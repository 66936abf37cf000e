import Pictor.Property.Objects

/-!
# Who owns a store

An object is in the hands of one person: its owner, or the one who threw it away. A pinned object,
one that can not be moved or whose gate is closed for good, stays in those hands; a store of a token
whose stores are untransferable is pinned, the vault's among them, and so is every primary store. An
object that an account owns changes hands only if the account signs, unless a reference to move it
is about.

With that, `owns` is the question whether someone is the store's owner, which is how the rest of
this development asks it.
-/

namespace Pictor

namespace ObjectChain

open Object

variable {host : Object.Host} {S : Set Source} {c c' : ObjectChain} {act : Act} {a x : Address}

/-- The object is in the hands of `x`. -/
def HeldBy (c : ObjectChain) (a x : Address) : Prop :=
  ∃ core, c.objects.cores.lookup a = some core ∧
    (core.owner = x ∧ c.objects.tombStones.lookup a = none ∨
      core.owner = BURN_ADDRESS ∧ c.objects.tombStones.lookup a = some x)

theorem HeldBy.mem (h : HeldBy c a x) : a ∈ c.objects.cores := by
  obtain ⟨core, hcore, _⟩ := h
  exact Table.mem_of_lookup hcore

/-- No reference to the object is about. -/
structure Unreferenced (c : ObjectChain) (a : Address) : Prop where
  constructorRefs : ∀ ref ∈ c.refs.constructorRefs, ref.self ≠ a
  deleteRefs : a ∉ c.refs.deleteRefs
  extendRefs : a ∉ c.refs.extendRefs
  transferRefs : a ∉ c.refs.transferRefs
  linearTransferRefs : ∀ ref ∈ c.refs.linearTransferRefs, ref.self ≠ a

/-- The gate is closed, and nothing can open it or get around it. -/
structure Pinned (c : ObjectChain) (a : Address) : Prop where
  gate : ∀ core, c.objects.cores.lookup a = some core → core.allowUngatedTransfer = false
  held : c.objects.untransferable.lookup a = some () ∨ Unreferenced c a

/-! ## One step -/

theorem unreferenced_of_effect (h : Effect host c act c') (ha : a ∈ c.objects.cores)
    (hun : Unreferenced c a) : Unreferenced c' a := by
  cases h with
  | @create signer call src o canDelete owner hsrc hdraw hnew =>
    refine { hun with constructorRefs := ?_ }
    intro ref href
    rcases Finset.mem_insert.mp href with rfl | href
    · rintro rfl
      exact Finmap.lookup_eq_none.mp hnew ((mem_of_draw hdraw).mpr ha)
    · exact hun.constructorRefs ref href
  | issue hsrc hissue =>
    -- a reference is made from another one to the same object
    have hinsert : ∀ {ref : ConstructorRef} {refs : Finset Address}, ref ∈ c.refs.constructorRefs →
        a ∉ refs → a ∉ insert ref.self refs := by
      intro ref refs href hnot hmem
      rcases Finset.mem_insert.mp hmem with rfl | hmem
      · exact hun.constructorRefs ref href rfl
      · exact hnot hmem
    cases hissue with
    | delete href => exact { hun with deleteRefs := hinsert href hun.deleteRefs }
    | extend href => exact { hun with extendRefs := hinsert href hun.extendRefs }
    | transfer href => exact { hun with transferRefs := hinsert href hun.transferRefs }
    | linear href hmark hcore =>
      refine { hun with linearTransferRefs := ?_ }
      intro ref hmem
      rcases Finset.mem_insert.mp hmem with rfl | hmem
      · rintro rfl
        exact hun.transferRefs href
      · exact hun.linearTransferRefs ref hmem
  | endTransaction =>
    exact { hun with
      constructorRefs := fun ref href => absurd href (Finset.notMem_empty ref)
      linearTransferRefs := fun ref href => absurd href (Finset.notMem_empty ref) }
  | _ => exact { hun with }

/-- The mark falls only with the object. -/
theorem untransferable_of_effect (h : Effect host c act c')
    (hmark : c.objects.untransferable.lookup a = some ()) :
    c'.objects.untransferable.lookup a = some () ∨ a ∉ c'.objects.cores := by
  cases h with
  | create owner hsrc hdraw =>
    cases hdraw <;> exact .inl hmark
  | primaryStore =>
    refine .inl ?_
    show (if _ then Finmap.insert _ () c.objects.untransferable
      else c.objects.untransferable).lookup a = _
    split
    · rw [Table.lookup_insert_ite]
      split
      · rfl
      · exact hmark
    · exact hmark
  | pin =>
    refine .inl ?_
    show (Finmap.insert _ () c.objects.untransferable).lookup a = _
    rw [Table.lookup_insert_ite]
    split
    · rfl
    · exact hmark
  | @delete _ b =>
    by_cases hab : a = b
    · subst hab
      exact .inr Finmap.notMem_erase_self
    · exact .inl ((Finmap.lookup_erase_ne hab).trans hmark)
  | _ => exact .inl hmark

theorem not_verified {o : Objects} {person : Address} {core : ObjectCore}
    (hcore : o.cores.lookup a = some core) (hgate : core.allowUngatedTransfer = false) :
    verifyUngatedAndDescendant host o person a ≠ .ok () := by
  intro h
  obtain ⟨core', hcore', hopen, _⟩ := verifyUngatedAndDescendant_eq_ok.mp h
  obtain rfl := Option.some.inj (hcore.symm.trans hcore')
  rw [hgate] at hopen
  cases hopen

/-- No `LinearTransferRef` gets around a pin. -/
theorem Pinned.not_sent (hp : Pinned c a) {ref : LinearTransferRef}
    (href : ref ∈ c.refs.linearTransferRefs) (hself : ref.self = a)
    (hmark : c.objects.untransferable.lookup a = none) : False := by
  rcases hp.held with hmark' | hun
  · rw [hmark] at hmark'
    cases hmark'
  · exact hun.linearTransferRefs ref href hself

/-- **A pinned object stays pinned.** -/
theorem Pinned.step (hp : Pinned c a) (h : Effect host c act c') {core : ObjectCore}
    (hcore : c.objects.cores.lookup a = some core) : a ∉ c'.objects.cores ∨ Pinned c' a := by
  have hmem := Table.mem_of_lookup hcore
  have hgate := hp.gate core hcore
  by_cases hgone : a ∉ c'.objects.cores
  · exact .inl hgone
  refine .inr ⟨fun core'' hcore'' => ?_, ?_⟩
  · -- every fate leaves the gate as it was, but for an opening, which needs a reference
    cases fate_of_effect h hcore with
    | gone _ hgone' => exact absurd hgone' hgone
    | kept hcore' _ hopen _ _ =>
      obtain rfl := Option.some.inj (hcore'.symm.trans hcore'')
      refine Bool.eq_false_iff.mpr fun htrue => ?_
      rcases hopen htrue with hopen | ⟨href, hmark⟩
      · rw [hgate] at hopen
        cases hopen
      · rcases hp.held with hmark' | hun
        · rw [hmark] at hmark'
          cases hmark'
        · exact hun.transferRefs href
    | transferred _ hverify => exact absurd hverify (not_verified hcore hgate)
    | sent _ href hmark => exact (hp.not_sent href rfl hmark).elim
    | burnt _ _ hcore' =>
      obtain rfl := Option.some.inj (hcore'.symm.trans hcore'')
      exact hgate
    | unburnt _ _ hcore' =>
      obtain rfl := Option.some.inj (hcore'.symm.trans hcore'')
      exact hgate
  · rcases hp.held with hmark | hun
    · rcases untransferable_of_effect h hmark with hmark' | hgone'
      · exact .inl hmark'
      · exact absurd hgone' hgone
    · exact .inr (unreferenced_of_effect h hmem hun)

/-- **… and in the hands it is in.** -/
theorem Pinned.heldBy_step (hp : Pinned c a) (h : Effect host c act c') (hh : HeldBy c a x) :
    a ∉ c'.objects.cores ∨ HeldBy c' a x := by
  obtain ⟨core, hcore, hhands⟩ := hh
  cases fate_of_effect h hcore with
  | gone _ hgone => exact .inl hgone
  | kept hcore' howner _ htomb => exact .inr ⟨_, hcore', by rw [howner, htomb]; exact hhands⟩
  | transferred _ hverify => exact absurd hverify (not_verified hcore (hp.gate core hcore))
  | sent _ href hmark => exact (hp.not_sent href rfl hmark).elim
  | burnt _ hbefore hcore' htomb =>
    refine .inr ⟨_, hcore', .inr ⟨rfl, ?_⟩⟩
    rcases hhands with ⟨rfl, _⟩ | ⟨_, hx⟩
    · exact htomb
    · rw [hbefore] at hx
      cases hx
  | unburnt _ hbefore hcore' htomb =>
    refine .inr ⟨_, hcore', .inl ⟨?_, htomb⟩⟩
    rcases hhands with ⟨_, hnone⟩ | ⟨_, hx⟩
    · rw [hnone] at hbefore
      cases hbefore
    · exact Option.some.inj (hbefore.symm.trans hx)

/-! ## Everything is in somebody's hands -/

theorem HeldBy.unique {y : Address} (hx : HeldBy c a x) (hy : HeldBy c a y) : x = y := by
  obtain ⟨core, hcore, hx⟩ := hx
  obtain ⟨core', hcore', hy⟩ := hy
  obtain rfl := Option.some.inj (hcore.symm.trans hcore')
  rcases hx with ⟨rfl, htomb⟩ | ⟨_, htomb⟩ <;> rcases hy with ⟨hy, htomb'⟩ | ⟨_, htomb'⟩
  · exact hy
  · rw [htomb] at htomb'
    cases htomb'
  · rw [htomb] at htomb'
    cases htomb'
  · exact Option.some.inj (htomb.symm.trans htomb')

/-- Nobody transfers what belongs to an address that is no object and does not sign. -/
theorem signer_of_verified {o : Objects} {person : Address} {core : ObjectCore}
    (hcore : o.cores.lookup a = some core) (howner : core.owner ∉ o.cores)
    (h : verifyUngatedAndDescendant host o person a = .ok ()) : person = core.owner := by
  obtain ⟨core', hcore', _, hwithin⟩ := verifyUngatedAndDescendant_eq_ok.mp h
  obtain rfl := Option.some.inj (hcore.symm.trans hcore')
  rcases hwithin with heq | ⟨⟨core₁, hcore₁, _⟩, _⟩
  · exact heq.symm
  · exact absurd (Table.mem_of_lookup hcore₁) howner

/-- A new object has no tombstone. -/
theorem tombStones_of_drawing (h : Effect host c act c') {src : Source}
    (hsrc : c.source act = some src) : c'.objects.tombStones = c.objects.tombStones := by
  rcases drawing_of_effect h hsrc with ⟨_, _, _, hdraw, _, rfl⟩ | ⟨_, _, _, ⟨_, rfl⟩ | ⟨_, rfl⟩⟩
  · cases hdraw <;> rfl
  · rfl
  · rfl

/-- **Hands.** Each object is owned, or was thrown away by someone. -/
theorem heldBy_step (hA : Accounted host S c) (hinj : Set.InjOn host.address (S ∪ c.drawn act))
    (hburn : BURN_ADDRESS ∉ c.objects.cores) (hexec : exec host c act = .ok c')
    (hc : ∀ a ∈ c.objects.cores, ∃ x, HeldBy c a x) :
    ∀ a ∈ c'.objects.cores, ∃ x, HeldBy c' a x := by
  intro a ha
  have h := exec_effect hexec
  obtain ⟨core', hcore'⟩ := Finmap.mem_iff.mp ha
  rcases core_of_effect h hcore' with ⟨core, hcore, _⟩ | ⟨hnone, _, src, hsrc, rfl⟩
  · obtain ⟨x, core₁, hcore₁, hhands⟩ := hc a (Table.mem_of_lookup hcore)
    obtain rfl := Option.some.inj (hcore₁.symm.trans hcore)
    cases fate_of_effect h hcore with
    | gone _ hgone => exact absurd ha hgone
    | kept hcore₂ howner _ htomb => exact ⟨x, _, hcore₂, by rw [howner, htomb]; exact hhands⟩
    | transferred hact hverify hcore₂ htomb =>
      refine ⟨_, _, hcore₂, .inl ⟨rfl, htomb.trans ?_⟩⟩
      rcases hhands with ⟨_, hnone⟩ | ⟨howner, _⟩
      · exact hnone
      · -- what was thrown away has an owner that does not sign
        subst hact
        have hsigner := signer_of_verified hcore (howner ▸ hburn) hverify
        exact absurd (hsigner.trans howner) (canSign_of_exec hexec).1
    | sent _ _ _ hcore₂ htomb => exact ⟨_, _, hcore₂, .inl ⟨rfl, htomb⟩⟩
    | burnt _ _ hcore₂ htomb => exact ⟨_, _, hcore₂, .inr ⟨rfl, htomb⟩⟩
    | unburnt _ _ hcore₂ htomb => exact ⟨_, _, hcore₂, .inl ⟨rfl, htomb⟩⟩
  · refine ⟨core'.owner, core', hcore', .inl ⟨rfl, ?_⟩⟩
    rw [tombStones_of_drawing h hsrc, Finmap.lookup_eq_none]
    intro htomb
    rcases fresh_of_effect hA hinj h hsrc with rfl | hnew
    · rw [hnone] at hcore'
      cases hcore'
    · exact hnew (hA.traces _ (.inr (.inl htomb)))

/-- The address things are thrown away to is no object. -/
theorem burn_not_mem {T : Set Source} (hA : Accounted host S c) (hST : S ⊆ T)
    (hQ : ∀ src ∈ T, host.address src ≠ BURN_ADDRESS) : BURN_ADDRESS ∉ c.objects.cores := by
  intro hmem
  obtain ⟨src, hsrc, heq⟩ := hA.traces _ (.inl hmem)
  exact hQ src (hST hsrc) heq

theorem heldBy_run (as : List Act) (hno : NoCollision host (history host empty as)) :
    ∀ a ∈ (run host empty as).objects.cores, ∃ x, HeldBy (run host empty as) a x := by
  refine run_rest [] (P := fun c => ∀ a ∈ c.objects.cores, ∃ x, HeldBy c a x) hno hno.2
    (fun a ha => absurd ha Finmap.notMem_empty) ?_
  intro S c act c' _ hQ hinj hA hexec hc
  exact heldBy_step hA hinj (burn_not_mem hA Set.subset_union_left hQ) hexec hc

/-! ## Stores of an untransferable token -/

/-- All stores of the token are pinned, and so will be any that are made. -/
structure TokenPinned (c : ObjectChain) (token : Address) : Prop where
  mark : c.objects.untransferableTokens.lookup token = some ()
  stores : ∀ a ∈ c.objects.cores, c.objects.stores.lookup a = some token → Pinned c a

theorem tokenMark_of_effect (h : Effect host c act c') {token : Address}
    (hmark : c.objects.untransferableTokens.lookup token = some ()) :
    c'.objects.untransferableTokens.lookup token = some () := by
  cases h with
  | create owner hsrc hdraw => cases hdraw <;> exact hmark
  | token hsrc hgrow => exact hgrow token hmark
  | _ => exact hmark

/-- A store that a step makes of an untransferable token is pinned. -/
theorem store_of_effect (h : Effect host c act c') {token : Address}
    (hmark : c.objects.untransferableTokens.lookup token = some ())
    (hstore : c'.objects.stores.lookup a = some token) :
    c.objects.stores.lookup a = some token ∨ Pinned c' a := by
  cases h with
  | create owner hsrc hdraw => cases hdraw <;> exact .inl hstore
  | @primaryStore _ owner t hnew =>
    replace hstore : (Finmap.insert (primaryStoreAddress host owner t) t
      c.objects.stores).lookup a = some token := hstore
    rw [Table.lookup_insert_ite] at hstore
    split at hstore
    · next ha =>
      cases hstore
      subst ha
      refine .inr ⟨fun core hcore => ?_, .inl ?_⟩
      · obtain rfl := Option.some.inj ((Finmap.lookup_insert _).symm.trans hcore)
        rfl
      · show (if _ then Finmap.insert _ () c.objects.untransferable
          else c.objects.untransferable).lookup _ = _
        rw [if_pos (Table.contains_eq_true.mpr ⟨_, hmark⟩), Finmap.lookup_insert]
    · exact .inl hstore
  | @pin _ _ ref core stores hsrc href hcore hstores =>
    rcases hstores with rfl | ⟨t, _, rfl⟩
    · exact .inl hstore
    · by_cases ha : a = ref.self
      · subst ha
        refine .inr ⟨fun core' hcore' => ?_, .inl (Finmap.lookup_insert _)⟩
        obtain rfl := Option.some.inj ((Finmap.lookup_insert _).symm.trans hcore')
        rfl
      · exact .inl ((Finmap.lookup_insert_of_ne _ ha).symm.trans hstore)
  | @store _ _ ref core t hsrc href hcore htoken =>
    by_cases ha : a = ref.self
    · subst ha
      obtain rfl := Option.some.inj ((Finmap.lookup_insert _).symm.trans hstore)
      rw [htoken] at hmark
      cases hmark
    · exact .inl ((Finmap.lookup_insert_of_ne _ ha).symm.trans hstore)
  | @unstore _ b href =>
    replace hstore : (Finmap.erase b c.objects.stores).lookup a = some token := hstore
    rw [Table.lookup_erase_ite] at hstore
    split at hstore
    · cases hstore
    · exact .inl hstore
  | _ => exact .inl hstore

theorem TokenPinned.step {token : Address} (hc : TokenPinned c token) (hA : Accounted host S c)
    (hinj : Set.InjOn host.address (S ∪ c.drawn act)) (h : Effect host c act c') :
    TokenPinned c' token := by
  refine ⟨tokenMark_of_effect h hc.mark, fun a ha hstore => ?_⟩
  rcases store_of_effect h hc.mark hstore with hbefore | hpinned
  · have hmade := hA.traces a (.inr (.inr (.inr (.inl (Table.mem_of_lookup hbefore)))))
    by_cases hmem : a ∈ c.objects.cores
    · obtain ⟨core, hcore⟩ := Finmap.mem_iff.mp hmem
      rcases (hc.stores a hmem hbefore).step h hcore with hgone | hpinned
      · exact absurd ha hgone
      · exact hpinned
    · exact absurd ha (not_mem_of_effect hA hinj h hmade hmem)
  · exact hpinned

/-- A pinned object in the hands of `x`, or none any more. -/
def StaysWith (c : ObjectChain) (a x : Address) : Prop :=
  a ∉ c.objects.cores ∨ Pinned c a ∧ HeldBy c a x

theorem StaysWith.step (hc : StaysWith c a x) (hA : Accounted host S c)
    (hinj : Set.InjOn host.address (S ∪ c.drawn act)) (hmade : Made host S a)
    (h : Effect host c act c') : StaysWith c' a x := by
  rcases hc with hgone | ⟨hpinned, hheld⟩
  · exact .inl (not_mem_of_effect hA hinj h hmade hgone)
  · obtain ⟨core, hcore⟩ := Finmap.mem_iff.mp hheld.mem
    rcases hpinned.step h hcore with hgone | hpinned'
    · exact .inl hgone
    · rcases hpinned.heldBy_step h hheld with hgone | hheld'
      · exact .inl hgone
      · exact .inr ⟨hpinned', hheld'⟩

/-- **A pinned object never changes hands.** -/
theorem staysWith_run (as bs : List Act) (hno : NoCollision host (history host empty (as ++ bs)))
    (hpinned : Pinned (run host empty as) a) (hheld : HeldBy (run host empty as) a x) :
    StaysWith (run host empty (as ++ bs)) a x := by
  have hmade := (accounted_run as hno.of_append).traces a (.inl hheld.mem)
  refine run_rest _ (P := fun c => StaysWith c a x) hno (fun _ _ => trivial)
    (.inr ⟨hpinned, hheld⟩) ?_
  intro S c act c' hS _ hinj hA hexec hc
  exact hc.step hA hinj (hmade.mono hS) (exec_effect hexec)

/-- **Stores of an untransferable token never change hands.** Let a token be made untransferable
before it has a store, as `usdt` is. Then after any run each of its stores is in one person's hands,
who owns it or has thrown it away, and whatever anyone signs and whatever references are about, it
stays in these hands until it is deleted. -/
theorem untransferable_stores (as bs cs : List Act) (token a : Address)
    (hno : NoCollision host (history host empty (as ++ bs ++ cs)))
    (hmark : (run host empty as).objects.untransferableTokens.lookup token = some ())
    (hnone : ∀ b, (run host empty as).objects.stores.lookup b ≠ some token)
    (hobject : a ∈ (run host empty (as ++ bs)).objects.cores)
    (hstore : (run host empty (as ++ bs)).objects.stores.lookup a = some token) :
    ∃ x, HeldBy (run host empty (as ++ bs)) a x ∧
      (a ∉ (run host empty (as ++ bs ++ cs)).objects.cores ∨
        HeldBy (run host empty (as ++ bs ++ cs)) a x) := by
  obtain ⟨x, hheld⟩ := heldBy_run (as ++ bs) hno.of_append a hobject
  have htoken : TokenPinned (run host empty (as ++ bs)) token := by
    refine run_rest _ (P := fun c => TokenPinned c token) hno.of_append (fun _ _ => trivial)
      ⟨hmark, fun b _ hb => absurd hb (hnone b)⟩ ?_
    intro S c act c' _ _ hinj hA hexec hc
    exact hc.step hA hinj (exec_effect hexec)
  refine ⟨x, hheld, ?_⟩
  rcases staysWith_run (as ++ bs) cs hno (htoken.stores a hobject hstore) hheld with
    hgone | ⟨_, hheld'⟩
  · exact .inl hgone
  · exact .inr hheld'

/-- Its owner can throw the store away, which changes nothing. -/
theorem untransferable_stores_test :
    ∃ x, HeldBy (run testHost empty (tokenActs ++ storeActs)) 0xfb x ∧
      (0xfb ∉ (run testHost empty
          (tokenActs ++ storeActs ++ [.call 0xb0b (.burn 0xfb)])).objects.cores ∨
        HeldBy (run testHost empty (tokenActs ++ storeActs ++ [.call 0xb0b (.burn 0xfb)]))
          0xfb x) := by
  have hnone : (run testHost empty tokenActs).objects.stores = ∅ := by decide +kernel
  refine untransferable_stores tokenActs storeActs [.call 0xb0b (.burn 0xfb)] 0xcafefe 0xfb
    (by decide +kernel) (by decide +kernel) ?_ (by decide +kernel) (by decide +kernel)
  intro b hb
  rw [hnone] at hb
  cases hb

/-! ## Asking for the owner -/

/-- An object without a reference does not sign. -/
theorem Unreferenced.not_canSign (hun : Unreferenced c a) (ha : a ∈ c.objects.cores) :
    ¬ c.CanSign a := by
  rintro ⟨_, hsign⟩
  rcases hsign (Table.contains_eq_true.mpr (Finmap.mem_iff.mp ha)) with href | ⟨ref, href, hself⟩
  · exact hun.extendRefs href
  · exact hun.constructorRefs ref href hself

/-- **Who owns a store at a distance withdraws as its direct owner does**: whoever `owns` is true of
is checked as the owner `x` is, and everybody else is refused. -/
theorem withdrawSanityCheck_at_distance (o : Objects) {l : Table Address FungibleStore}
    {l' : Stores} (person : Address) {token : Token} {kind : StoreKind}
    (hstore : l.lookup a = l'.lookup ⟨x, token, kind⟩) :
    Object.withdrawSanityCheck host o l person a = (do
      let owned ← owns host o a person
      if owned then FungibleAsset.withdrawSanityCheck l' x ⟨x, token, kind⟩
      else .error FungibleAsset.ENOT_STORE_OWNER) := by
  refine Checked.bind_congr fun owned _ => ?_
  cases owned with
  | false => rfl
  | true =>
    rw [FungibleAsset.withdrawSanityCheck, Checked.require_of rfl, Checked.require_of rfl,
      if_pos rfl, Table.borrow, Table.borrow, hstore]

/-- **The framework's check is the model's**, for a store that an account owns: among those who
sign, `owns` is true of the owner alone. -/
theorem withdrawSanityCheck_eq {o : Objects} {core : ObjectCore} {l : Table Address FungibleStore}
    {l' : Stores} {person : Address} {token : Token} {kind : StoreKind} {st : FungibleStore}
    (hcore : o.cores.lookup a = some core) (howner : core.owner = x) (haccount : x ∉ o.cores)
    (hperson : person ≠ a) (hl : l.lookup a = some st)
    (hl' : l'.lookup ⟨x, token, kind⟩ = some st) :
    Object.withdrawSanityCheck host o l person a =
      FungibleAsset.withdrawSanityCheck l' person ⟨x, token, kind⟩ := by
  subst howner
  rw [withdrawSanityCheck_at_distance o person (hl.trans hl'.symm),
    owns_of_account hcore (Finmap.lookup_eq_none.mpr haccount), Checked.ok_bind]
  by_cases h : person = core.owner
  · rw [if_pos (by simp [h]), h]
  · rw [if_neg (by simp [h, hperson]), FungibleAsset.withdrawSanityCheck,
      Checked.require_of_not (Ne.symm h)]
    rfl

/-! ## Stores that are kept -/

/-- A store of `token` as it is kept for `x`: without a reference, gated, in the hands of `x`. -/
structure Kept (c : ObjectChain) (a x : Address) (token : Token) : Prop where
  unreferenced : Unreferenced c a
  gate : ∀ core, c.objects.cores.lookup a = some core → core.allowUngatedTransfer = false
  heldBy : HeldBy c a x
  store : c.objects.stores.lookup a = some token

/-- What is a store stays one, and of the same token, while no reference to it is about. -/
theorem stores_of_effect (h : Effect host c act c') {token : Address} (hun : Unreferenced c a)
    (ha : a ∈ c.objects.cores) (hstore : c.objects.stores.lookup a = some token) :
    c'.objects.stores.lookup a = some token := by
  cases h with
  | create owner hsrc hdraw => cases hdraw <;> exact hstore
  | @primaryStore _ owner t hnew =>
    refine (Finmap.lookup_insert_of_ne _ ?_).trans hstore
    rintro rfl
    exact Finmap.lookup_eq_none.mp hnew ha
  | @pin _ _ ref core stores hsrc href hcore hstores =>
    rcases hstores with rfl | ⟨t, _, rfl⟩
    · exact hstore
    · exact (Finmap.lookup_insert_of_ne _ (hun.constructorRefs ref href).symm).trans hstore
  | store hsrc href =>
    exact (Finmap.lookup_insert_of_ne _ (hun.constructorRefs _ href).symm).trans hstore
  | unstore href =>
    refine (Finmap.lookup_erase_ne ?_).trans hstore
    rintro rfl
    exact hun.deleteRefs href
  | _ => exact hstore

theorem Kept.step {token : Token} (hc : Kept c a x token) (h : Effect host c act c') :
    Kept c' a x token := by
  have ha := hc.heldBy.mem
  have hpinned : Pinned c a := ⟨hc.gate, .inr hc.unreferenced⟩
  obtain ⟨core, hcore⟩ := Finmap.mem_iff.mp ha
  -- with no reference to it, it is not deleted
  have hstays : a ∈ c'.objects.cores :=
    (mem_of_effect h ha).resolve_right hc.unreferenced.deleteRefs
  refine ⟨unreferenced_of_effect h ha hc.unreferenced, ?_, ?_,
    stores_of_effect h hc.unreferenced ha hc.store⟩
  · exact ((hpinned.step h hcore).resolve_left (not_not_intro hstays)).gate
  · exact (hpinned.heldBy_step h hc.heldBy).resolve_left (not_not_intro hstays)

/-- Where an address is derived for something new, there is no trace of anything. -/
theorem Accounted.untraced (hA : Accounted host S c)
    (hinj : Set.InjOn host.address (S ∪ c.drawn act)) (h : Effect host c act c') {src : Source}
    (hsrc : c.source act = some src) (hnew : host.address src ∉ c.objects.cores)
    (hthere : host.address src ∈ c'.objects.cores) : ¬ c.Traced (host.address src) := by
  intro htraced
  rcases fresh_of_effect hA hinj h hsrc with rfl | hmade
  · exact hnew hthere
  · exact hmade (hA.traces _ htraced)

/-! ## Primary stores -/

/-- A primary store that is new. -/
theorem primary_of_drawing {owner token : Address} (hA : Accounted host S c)
    (hinj : Set.InjOn host.address (S ∪ c.drawn act)) (h : Effect host c act c')
    (hsrc : c.source act = some (.derived owner token))
    (hnew : primaryStoreAddress host owner token ∉ c.objects.cores)
    (hthere : primaryStoreAddress host owner token ∈ c'.objects.cores) :
    Kept c' (primaryStoreAddress host owner token) owner token := by
  have huntraced := hA.untraced hinj h hsrc hnew hthere
  rcases drawing_of_effect h hsrc with ⟨_, _, _, hdraw, _⟩ |
    ⟨owner', token', heq, ⟨hnone, rfl⟩ | ⟨hmem, _⟩⟩
  · cases hdraw
  · obtain ⟨rfl, rfl⟩ : owner = owner' ∧ token = token' := by
      injection heq with howner htoken
      exact ⟨howner, htoken⟩
    simp only [Traced, not_or, not_exists, not_and] at huntraced
    obtain ⟨_, htomb, _, _, hctor, hdelete, hextend, htransfer, hlinear⟩ := huntraced
    refine ⟨⟨hctor, hdelete, hextend, htransfer, hlinear⟩, ?_, ?_, Finmap.lookup_insert _⟩
    · intro core hcore
      obtain rfl := Option.some.inj ((Finmap.lookup_insert _).symm.trans hcore)
      rfl
    · exact ⟨_, Finmap.lookup_insert _, .inl ⟨rfl, Finmap.lookup_eq_none.mpr htomb⟩⟩
  · exact absurd hmem hnew

theorem primary_run (as : List Act) (owner token : Address)
    (hno : NoCollision host (history host empty as))
    (hasked : Source.derived owner token ∈ sources (history host empty as)) :
    Kept (run host empty as) (primaryStoreAddress host owner token) owner token := by
  have hthere := (accounted_run as hno).kept _ hasked id
  refine run_rest []
    (Q := fun src => host.address src = primaryStoreAddress host owner token →
      src = .derived owner token)
    (P := fun c => primaryStoreAddress host owner token ∈ c.objects.cores →
      Kept c (primaryStoreAddress host owner token) owner token) hno
    (fun src hsrc heq => hno.1 src hsrc _ hasked heq)
    (fun ha => absurd ha Finmap.notMem_empty) ?_ hthere
  intro S c act c' _ hQ hinj hA hexec hc ha
  have h := exec_effect hexec
  by_cases hbefore : primaryStoreAddress host owner token ∈ c.objects.cores
  · exact (hc hbefore).step h
  · obtain ⟨core', hcore'⟩ := Finmap.mem_iff.mp ha
    rcases core_of_effect h hcore' with ⟨core, hcore, _⟩ | ⟨_, _, src, hsrc, heq⟩
    · exact absurd (Table.mem_of_lookup hcore) hbefore
    · obtain rfl := hQ src (.inr hsrc) heq
      exact primary_of_drawing hA hinj h hsrc hbefore ha

/-- An account is no object, if no address that is derived is its. -/
theorem account_not_mem {T : Set Source} (hA : Accounted host S c) (hST : S ⊆ T)
    (hT : ∀ src ∈ T, host.address src ≠ x) : x ∉ c.objects.cores := by
  intro hmem
  obtain ⟨src, hsrc, heq⟩ := hA.traces _ (.inl hmem)
  exact hT src (hST hsrc) heq

/-- `may_be_unburn`, called by the one whose hands the store is in, succeeds and leaves it owned. -/
theorem HeldBy.mayBeUnburn (hc : HeldBy c a x) :
    ∃ o core, Object.mayBeUnburn host c.objects x a = .ok o ∧ o.cores.lookup a = some core ∧
      core.owner = x ∧ ∀ y, y ∈ o.cores ↔ y ∈ c.objects.cores := by
  obtain ⟨core, hcore, ⟨howner, htomb⟩ | ⟨howner, htomb⟩⟩ := hc
  · refine ⟨c.objects, core, ?_, hcore, howner, fun _ => Iff.rfl⟩
    unfold Object.mayBeUnburn isBurnt
    rw [if_neg (by simp [Table.contains, htomb])]
  · let o : Objects := { c.objects with tombStones := c.objects.tombStones.erase a }
    refine ⟨handOver o a core x, _, ?_, Finmap.lookup_insert _, rfl, ?_⟩
    · unfold Object.mayBeUnburn isBurnt
      rw [if_pos (Table.contains_eq_true.mpr ⟨_, htomb⟩)]
      simp only [unburn, Checked.bind_eq_ok, Table.borrow_eq_ok, Checked.require_eq_ok,
        exists_const, transferRawInner_eq_ok]
      exact ⟨x, htomb, rfl, core, hcore, rfl⟩
    · intro y
      show y ∈ Finmap.insert _ _ c.objects.cores ↔ _
      rw [Finmap.mem_insert, or_iff_right_of_imp]
      rintro rfl
      exact Table.mem_of_lookup hcore

/-- **A primary store is its account's for good.** Once the primary store of an account has been
asked for, asking again finds it; its owner's `may_be_unburn` succeeds; and after it the check
before a withdrawal says of whoever can sign what it says in the model where the store's owner is
part of its name. -/
theorem primary_store_kept (as : List Act) (owner token : Address)
    (hno : NoCollision host (history host empty as))
    (hasked : Source.derived owner token ∈ sources (history host empty as))
    (haccount : ∀ src ∈ sources (history host empty as), host.address src ≠ owner) :
    ensurePrimaryStoreExists host (run host empty as).objects owner token =
        .ok (primaryStoreAddress host owner token, (run host empty as).objects) ∧
      ∃ o, Object.mayBeUnburn host (run host empty as).objects owner
          (primaryStoreAddress host owner token) = .ok o ∧
        ∀ (l : Table Address FungibleStore) (l' : Stores) (st : FungibleStore) (person : Address),
          (run host empty as).CanSign person →
          l.lookup (primaryStoreAddress host owner token) = some st →
          l'.lookup (PrimaryFungibleStore.primaryStore owner token) = some st →
          Object.withdrawSanityCheck host o l person (primaryStoreAddress host owner token) =
            FungibleAsset.withdrawSanityCheck l' person
              (PrimaryFungibleStore.primaryStore owner token) := by
  have hprimary := primary_run as owner token hno hasked
  have hmem := hprimary.heldBy.mem
  constructor
  · simp only [ensurePrimaryStoreExists]
    rw [if_pos (Table.contains_eq_true.mpr ⟨_, hprimary.store⟩),
      Checked.require_of (Table.contains_eq_true.mpr (Finmap.mem_iff.mp hmem))]
    rfl
  · obtain ⟨o, core, hunburn, hcore, howner, hcores⟩ := hprimary.heldBy.mayBeUnburn
    refine ⟨o, hunburn, fun l l' st person hsign hl hl' => ?_⟩
    refine withdrawSanityCheck_eq hcore howner ?_ ?_ hl hl'
    · rw [hcores]
      exact account_not_mem (accounted_run as hno) subset_rfl haccount
    · rintro rfl
      exact hprimary.unreferenced.not_canSign hmem hsign

theorem primary_store_kept_test :
    ensurePrimaryStoreExists testHost (run testHost empty (tokenActs ++
        [.call 0xa11ce (.ensurePrimaryStoreExists 0xb0b 0xcafefe)])).objects 0xb0b 0xcafefe =
      .ok (primaryStoreAddress testHost 0xb0b 0xcafefe, (run testHost empty (tokenActs ++
        [.call 0xa11ce (.ensurePrimaryStoreExists 0xb0b 0xcafefe)])).objects) :=
  (primary_store_kept (tokenActs ++ [.call 0xa11ce (.ensurePrimaryStoreExists 0xb0b 0xcafefe)])
    0xb0b 0xcafefe (by decide +kernel) (by decide +kernel) (by decide +kernel)).1

/-! ## The vault -/

/-- What `pictor_config::initialize` does with objects, and the end of its transaction. -/
def vaultActs (deployer config token vault : Address) : List Act :=
  [.call deployer (.createObject config), .call deployer (.createStore ⟨vault, true⟩ token),
    .endTransaction]

/-- A store of an untransferable token, right after a transaction has made it. -/
theorem kept_of_vaultActs {deployer token : Address}
    (hnew : ¬ c.Traced (host.address (.auid c.objects.auids)))
    (hmark : c.objects.untransferableTokens.lookup token = some ())
    (hdone : (vaultActs deployer x token (host.address (.auid c.objects.auids))).foldlM
      (exec host) c = .ok c') :
    Kept c' (host.address (.auid c.objects.auids)) x token := by
  simp only [Traced, not_or, not_exists, not_and] at hnew
  obtain ⟨_, htomb, _, _, _, hdelete, hextend, htransfer, _⟩ := hnew
  simp only [vaultActs, List.foldlM_cons, List.foldlM_nil, exec, execCall, held, createObject,
    generateAuidAddress, Checked.bind_eq_ok, Checked.require_eq_ok, createObjectInternal_eq_ok,
    Checked.pure_eq_ok, exists_const] at hdone
  obtain ⟨_, ⟨_, _, ⟨_, rfl⟩, rfl⟩, _, ⟨_, _, o, hstore, rfl⟩, _, rfl, rfl⟩ := hdone
  obtain ⟨core, hcore, _, ⟨htoken, _⟩ | ⟨_, rfl⟩⟩ := createStore_cases hstore
  · rw [show c.objects.untransferableTokens.lookup token = none from htoken] at hmark
    cases hmark
  · obtain rfl := Option.some.inj ((Finmap.lookup_insert _).symm.trans hcore)
    refine ⟨⟨fun ref href => absurd href (Finset.notMem_empty ref), hdelete, hextend, htransfer,
      fun ref href => absurd href (Finset.notMem_empty ref)⟩, fun core hcore' => ?_, ?_,
      Finmap.lookup_insert _⟩
    · obtain rfl := Option.some.inj ((Finmap.lookup_insert _).symm.trans hcore')
      rfl
    · exact ⟨_, Finmap.lookup_insert _, .inl ⟨rfl, Finmap.lookup_eq_none.mpr htomb⟩⟩

theorem kept_run {token : Token} (as bs : List Act) (h : Kept (run host empty as) a x token) :
    Kept (run host empty (as ++ bs)) a x token := by
  unfold run
  rw [Transactions.run_append]
  exact Transactions.invariant (I := fun c => Kept c a x token)
    (fun _ _ _ hc hexec => hc.step (exec_effect hexec)) h bs

/-- A transaction that makes an object has a new address for it. -/
theorem untraced_of_createObject (as bs : List Act) {signer : Address}
    (hno : NoCollision host (history host empty (as ++ .call signer (.createObject x) :: bs)))
    (hcreate : exec host (run host empty as) (.call signer (.createObject x)) = .ok c') :
    ¬ (run host empty as).Traced (host.address (.auid (run host empty as).objects.auids)) := by
  rw [List.append_cons] at hno
  have hhistory : history host empty (as ++ [.call signer (.createObject x)]) =
      history host empty as ++ [⟨run host empty as, .call signer (.createObject x), c'⟩] := by
    unfold history
    rw [Transactions.history_append, Transactions.history_cons_ok hcreate]
    rfl
  have hinj : Set.InjOn host.address (sourceSet (history host empty as) ∪
      (run host empty as).drawn (.call signer (.createObject x))) := by
    rw [← sourceSet_snoc _ _ c', ← hhistory]
    exact fun src hsrc src' hsrc' heq => hno.of_append.1 src hsrc src' hsrc' heq
  have hA := accounted_run as hno.of_append.of_append
  refine hA.untraced hinj (exec_effect hcreate) rfl ?_ ?_
  all_goals
    simp only [exec, execCall, createObject, generateAuidAddress, Checked.bind_eq_ok,
      createObjectInternal_eq_ok, Checked.pure_eq_ok] at hcreate
    obtain ⟨_, _, _, ⟨hnew, rfl⟩, rfl⟩ := hcreate
  · exact Finmap.lookup_eq_none.mp hnew
  · exact Finmap.mem_insert.mpr (.inl rfl)

/-- **The vault's store never moves.** Let the payment token be untransferable, as `usdt` is, when
the configuration is initialised. Then its store in the vault is there for good and in the hands of
the configuration's account, with no reference to it, whatever anyone signs; and unless that account
has thrown it away, the check before a withdrawal says of whoever can sign what it says in the
model. -/
theorem vault_never_moves (as bs : List Act) (deployer config token vault : Address)
    (hno : NoCollision host
      (history host empty (as ++ vaultActs deployer config token vault ++ bs)))
    (haccount : ∀ src ∈ sources
      (history host empty (as ++ vaultActs deployer config token vault ++ bs)),
      host.address src ≠ config)
    (hmark : (run host empty as).objects.untransferableTokens.lookup token = some ())
    (hvault : vault = host.address (.auid (run host empty as).objects.auids))
    (hdone : (vaultActs deployer config token vault).foldlM (exec host) (run host empty as) =
      .ok (run host empty (as ++ vaultActs deployer config token vault))) :
    Kept (run host empty (as ++ vaultActs deployer config token vault ++ bs)) vault config token ∧
      ∀ (l : Table Address FungibleStore) (l' : Stores) (st : FungibleStore) (person : Address),
        (run host empty
          (as ++ vaultActs deployer config token vault ++ bs)).objects.tombStones.lookup vault =
            none →
        (run host empty (as ++ vaultActs deployer config token vault ++ bs)).CanSign person →
        l.lookup vault = some st → l'.lookup ⟨config, token, .object vault⟩ = some st →
        Object.withdrawSanityCheck host
            (run host empty (as ++ vaultActs deployer config token vault ++ bs)).objects l person
            vault =
          FungibleAsset.withdrawSanityCheck l' person ⟨config, token, .object vault⟩ := by
  have hkept : Kept (run host empty (as ++ vaultActs deployer config token vault ++ bs)) vault
      config token := by
    subst hvault
    refine kept_run _ bs (kept_of_vaultActs ?_ hmark hdone)
    rw [vaultActs, List.foldlM_cons, Checked.bind_eq_ok] at hdone
    obtain ⟨c₁, hcreate, -⟩ := hdone
    rw [List.append_assoc] at hno
    exact untraced_of_createObject as _ hno hcreate
  refine ⟨hkept, fun l l' st person hunburnt hsign hl hl' => ?_⟩
  obtain ⟨core, hcore, ⟨howner, _⟩ | ⟨_, htomb⟩⟩ := hkept.heldBy
  · refine withdrawSanityCheck_eq hcore howner
      (account_not_mem (accounted_run _ hno) subset_rfl haccount) ?_ hl hl'
    rintro rfl
    exact hkept.unreferenced.not_canSign hkept.heldBy.mem hsign
  · rw [hunburnt] at htomb
    cases htomb

/-- Somebody tries to get the vault's store, and then it is thrown away. -/
theorem vault_never_moves_test :
    Kept (run testHost empty (tokenActs ++ vaultActs 0xcafe 0xc0f 0xcafefe 0xfb ++
      [.call 0xa11ce (.transfer 0xfb 0xa11ce), .call 0xc0f (.transfer 0xfb 0xa11ce),
        .call 0xc0f (.burn 0xfb)])) 0xfb 0xc0f 0xcafefe :=
  (vault_never_moves tokenActs [.call 0xa11ce (.transfer 0xfb 0xa11ce),
    .call 0xc0f (.transfer 0xfb 0xa11ce), .call 0xc0f (.burn 0xfb)] 0xcafe 0xc0f 0xcafefe 0xfb
    (by decide +kernel) (by decide +kernel) (by decide +kernel) (by decide +kernel)
    (by decide +kernel)).1

/-! ## What an account owns -/

/-- `x` owns the object, and no reference to it is about. -/
structure OwnedBy (c : ObjectChain) (a x : Address) : Prop where
  unreferenced : Unreferenced c a
  owner : ∃ core, c.objects.cores.lookup a = some core ∧ core.owner = x
  unburnt : c.objects.tombStones.lookup a = none

theorem OwnedBy.step (hc : OwnedBy c a x) (haccount : x ∉ c.objects.cores)
    (hquiet : ∀ call, act ≠ .call x call) (h : Effect host c act c') : OwnedBy c' a x := by
  obtain ⟨core, hcore, howner⟩ := hc.owner
  have hun := unreferenced_of_effect h (Table.mem_of_lookup hcore) hc.unreferenced
  cases fate_of_effect h hcore with
  | gone href => exact absurd href hc.unreferenced.deleteRefs
  | kept hcore' howner' _ htomb =>
    exact ⟨hun, ⟨_, hcore', howner'.trans howner⟩, htomb.trans hc.unburnt⟩
  | transferred hact hverify =>
    have hsigner := signer_of_verified hcore (howner ▸ haccount) hverify
    exact absurd (hsigner.trans howner ▸ hact) (hquiet _)
  | sent _ href => exact absurd rfl (hc.unreferenced.linearTransferRefs _ href)
  | burnt hact => exact absurd (howner ▸ hact) (hquiet _)
  | unburnt _ hbefore =>
    rw [hc.unburnt] at hbefore
    cases hbefore

/-- **What an account owns stays its own until it signs.** An object such as the vault's store, made
for an account in a transaction that is over and left no reference to it: whatever others sign, the
account owns it as long as it signs nothing itself, and the check before a withdrawal says of
whoever can sign what it says in the model. -/
theorem account_keeps (as bs : List Act) (a x : Address)
    (hno : NoCollision host (history host empty (as ++ bs)))
    (haccount : ∀ src ∈ sources (history host empty (as ++ bs)), host.address src ≠ x)
    (howned : OwnedBy (run host empty as) a x)
    (hquiet : ∀ e ∈ history host (run host empty as) bs, ∀ call, e.act ≠ .call x call) :
    OwnedBy (run host empty (as ++ bs)) a x ∧
      ∀ (l : Table Address FungibleStore) (l' : Stores) (st : FungibleStore) (person : Address)
        (token : Token),
        (run host empty (as ++ bs)).CanSign person →
        l.lookup a = some st → l'.lookup ⟨x, token, .object a⟩ = some st →
        Object.withdrawSanityCheck host (run host empty (as ++ bs)).objects l person a =
          FungibleAsset.withdrawSanityCheck l' person ⟨x, token, .object a⟩ := by
  have howned' : OwnedBy (run host empty (as ++ bs)) a x := by
    refine run_rest_of (C := fun act => ∀ call, act ≠ .call x call)
      (P := fun c => OwnedBy c a x) hno haccount hquiet howned ?_
    intro S c act c' _ hQ _ hA hact hexec hc
    exact hc.step (account_not_mem hA Set.subset_union_left hQ) hact (exec_effect hexec)
  refine ⟨howned', fun l l' st person token hsign hl hl' => ?_⟩
  obtain ⟨core, hcore, howner⟩ := howned'.owner
  refine withdrawSanityCheck_eq hcore howner
    (account_not_mem (accounted_run (as ++ bs) hno) subset_rfl haccount) ?_ hl hl'
  rintro rfl
  exact howned'.unreferenced.not_canSign (Table.mem_of_lookup hcore) hsign

/-- Somebody else tries to get the store, and then makes its owner a present. -/
theorem account_keeps_test :
    OwnedBy (run testHost empty (tokenActs ++ storeActs ++
      [.call 0xa11ce (.transfer 0xfb 0xa11ce), .call 0xa11ce (.createObject 0xb0b)])) 0xfb
      0xb0b := by
  have howned : OwnedBy (run testHost empty (tokenActs ++ storeActs)) 0xfb 0xb0b := by
    refine ⟨?_, ⟨⟨INIT_GUID_CREATION_NUM + 1, 0xb0b, false⟩, by decide +kernel, rfl⟩,
      by decide +kernel⟩
    exact ⟨by decide +kernel, by decide +kernel, by decide +kernel, by decide +kernel,
      by decide +kernel⟩
  have hacts : ∀ e ∈ history testHost (run testHost empty (tokenActs ++ storeActs))
      [.call 0xa11ce (.transfer 0xfb 0xa11ce), .call 0xa11ce (.createObject 0xb0b)],
      e.act = .call 0xa11ce (.createObject 0xb0b) := by decide +kernel
  refine (account_keeps (tokenActs ++ storeActs)
    [.call 0xa11ce (.transfer 0xfb 0xa11ce), .call 0xa11ce (.createObject 0xb0b)] 0xfb 0xb0b
    (by decide +kernel) (by decide +kernel) howned ?_).1
  intro e he call hcall
  rw [hacts e he] at hcall
  injection hcall with hsigner
  exact absurd hsigner (by decide)

end ObjectChain

end Pictor
