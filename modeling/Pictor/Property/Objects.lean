import Pictor.Effect.Objects

/-!
# Addresses of objects, and who owns them

A deletable object lives at an address that can not be derived again; what can be derived again can
not be deleted. So no address is ever used for a second object, and a new object starts without any
trace of an older one. On that rests the rest: what can happen to an object in one step (`Fate`),
who it takes, and that the log of transfers tells the owner.

The hashes are the one assumption (`NoCollision`).
-/

namespace Pictor

namespace Object

/-- Can not be derived twice. -/
def Source.Unique : Source → Prop
  | .guid _ _ => True
  | .auid _ => True
  | _ => False

end Object

namespace ObjectChain

open Object

variable {host : Object.Host} {S : Set Source} {c c' : ObjectChain} {act : Act} {a x : Address}

/-! ## No address is used twice -/

/-- An address that has been derived. -/
def Made (host : Object.Host) (S : Set Source) (a : Address) : Prop :=
  ∃ src ∈ S, host.address src = a

/-- Something there is, or refers to, an object at this address. -/
def Traced (c : ObjectChain) (a : Address) : Prop :=
  a ∈ c.objects.cores ∨ a ∈ c.objects.tombStones ∨ a ∈ c.objects.untransferable ∨
    a ∈ c.objects.stores ∨ (∃ ref ∈ c.refs.constructorRefs, ref.self = a) ∨
    a ∈ c.refs.deleteRefs ∨ a ∈ c.refs.extendRefs ∨ a ∈ c.refs.transferRefs ∨
    ∃ ref ∈ c.refs.linearTransferRefs, ref.self = a

/-- **A step leaves a trace only of what was there or what it makes.** -/
theorem traced_of_effect (h : Effect host c act c') (ht : c'.Traced a) :
    c.Traced a ∨ ∃ src, c.source act = some src ∧ host.address src = a := by
  cases h with
  | @create signer call src o _ owner hsrc hdraw hnew =>
    have hsource : c.source (.call signer call) = some src := hsrc
    have hcores : a ∈ o.cores → a ∈ c.objects.cores := by
      intro ha
      cases hdraw with
      | object hcore _ =>
        rcases Finmap.mem_insert.mp ha with rfl | ha
        · exact Table.mem_of_lookup hcore
        · exact ha
      | _ => exact ha
    have hrest : o.tombStones = c.objects.tombStones ∧
        o.untransferable = c.objects.untransferable ∧ o.stores = c.objects.stores := by
      cases hdraw <;> exact ⟨rfl, rfl, rfl⟩
    obtain ⟨htombStones, huntransferable, hstores⟩ := hrest
    simp only [Traced, obtain, Finmap.mem_insert, Finset.mem_insert, htombStones,
      huntransferable, hstores] at ht ⊢
    grind
  | @primaryStore _ owner token hnew =>
    by_cases ha : primaryStoreAddress host owner token = a
    · exact .inr ⟨.derived owner token, rfl, ha⟩
    · have hne : a ≠ primaryStoreAddress host owner token := Ne.symm ha
      refine .inl ?_
      simp only [Traced, withPrimaryStore, Finmap.mem_insert, hne, false_or] at ht ⊢
      split at ht
      · simpa only [Finmap.mem_insert, hne, false_or] using ht
      · exact ht
  | primaryStoreExists hcore => exact .inl ht
  | account => exact .inl ht
  | touch hsrc hcore =>
    have hmem := Table.mem_of_lookup hcore
    simp only [Traced, Finmap.mem_insert] at ht ⊢
    grind
  | pin hsrc href hcore hstores =>
    have hmem := Table.mem_of_lookup hcore
    simp only [Traced, Finmap.mem_insert] at ht ⊢
    rcases hstores with rfl | ⟨_, _, rfl⟩
    · grind
    · simp only [Finmap.mem_insert] at ht
      grind
  | store hsrc href hcore =>
    simp only [Traced, Finmap.mem_insert] at ht ⊢
    grind
  | unstore href =>
    simp only [Traced, Finmap.mem_erase] at ht ⊢
    grind
  | token hsrc hgrow => exact .inl ht
  | issue hsrc hissue =>
    cases hissue <;>
    · simp only [Traced, Finset.mem_insert] at ht ⊢
      grind
  | delete href hcore =>
    simp only [Traced, Finmap.mem_erase] at ht ⊢
    grind
  | transfer hverify hcore =>
    have hmem := Table.mem_of_lookup hcore
    simp only [Traced, handOver, Finmap.mem_insert] at ht ⊢
    grind
  | transferWithRef href hmark hcore howner =>
    have hmem := Table.mem_of_lookup hcore
    simp only [Traced, Finmap.mem_insert, Finmap.mem_erase] at ht ⊢
    grind
  | burn hcore howner htomb =>
    have hmem := Table.mem_of_lookup hcore
    simp only [Traced, handOver, Finmap.mem_insert] at ht ⊢
    grind
  | unburn htomb hcore =>
    have hmem := Table.mem_of_lookup hcore
    simp only [Traced, handOver, Finmap.mem_insert, Finmap.mem_erase] at ht ⊢
    grind
  | endTransaction =>
    simp only [Traced] at ht ⊢
    grind

/-- The counter that the source has its number from has passed it. The counter of a deleted object
never comes back. -/
def Used (host : Object.Host) (S : Set Source) (o : Objects) : Source → Prop
  | .auid n => n < o.auids
  | .guid creator num =>
    (num < MAX_GUID_CREATION_NUM ∧ ∃ next, o.accounts.lookup creator = some next ∧ num < next) ∨
      INIT_GUID_CREATION_NUM ≤ num ∧ Made host S creator ∧
        ∀ core, o.cores.lookup creator = some core → num < core.guidCreationNum
  | _ => True

/-- There is a reference to delete the object, or one that gives it. -/
def Deletable (c : ObjectChain) (a : Address) : Prop :=
  a ∈ c.refs.deleteRefs ∨ ∃ ref ∈ c.refs.constructorRefs, ref.canDelete = true ∧ ref.self = a

/-- The sources used so far account for the objects there are. -/
structure Accounted (host : Object.Host) (S : Set Source) (c : ObjectChain) : Prop where
  traces : ∀ a, c.Traced a → Made host S a
  kept : ∀ src ∈ S, ¬ src.Unique → host.address src ∈ c.objects.cores
  used : ∀ src ∈ S, Used host S c.objects src
  counters : ∀ a core, c.objects.cores.lookup a = some core →
    INIT_GUID_CREATION_NUM ≤ core.guidCreationNum
  deletable : ∀ a, c.Deletable a → ∃ src ∈ S, src.Unique ∧ host.address src = a

/-- What an action derives an address from. -/
def drawn (c : ObjectChain) (act : Act) : Set Source := { src | c.source act = some src }

/-- A write to an object that is there, and that does not lower its counter. -/
theorem grows_of_insert {t : Table Address ObjectCore} {b : Address}
    {core₁ core₂ core' : ObjectCore} (hb : t.lookup b = some core₁)
    (h : (Finmap.insert b core₂ t).lookup a = some core')
    (hle : core₁.guidCreationNum ≤ core₂.guidCreationNum) :
    ∃ core, t.lookup a = some core ∧ core.guidCreationNum ≤ core'.guidCreationNum := by
  rw [Table.lookup_insert_ite] at h
  split at h
  · next hab =>
    cases h
    exact ⟨core₁, hab ▸ hb, hle⟩
  · exact ⟨core', h, UInt64.le_refl _⟩

theorem le_of_next {num next : UInt64} (h : next.toNat = num.toNat + 1) : num ≤ next := by
  rw [UInt64.le_iff_toNat_le, h]
  exact Nat.le_succ _

theorem lt_of_next {num next : UInt64} (h : next.toNat = num.toNat + 1) : num < next := by
  rw [UInt64.lt_iff_toNat_lt, h]
  exact Nat.lt_succ_self _

theorem core_of_draw {o o' : Objects} {src : Source} {canDelete : Bool}
    (h : Draw o src o' canDelete) {core' : ObjectCore} (hcore' : o'.cores.lookup a = some core') :
    ∃ core, o.cores.lookup a = some core ∧ core.guidCreationNum ≤ core'.guidCreationNum := by
  cases h with
  | object hcore hnext => exact grows_of_insert hcore hcore' (le_of_next hnext)
  | _ => exact ⟨core', hcore', UInt64.le_refl _⟩

theorem mem_of_draw {o o' : Objects} {src : Source} {canDelete : Bool}
    (h : Draw o src o' canDelete) : a ∈ o'.cores ↔ a ∈ o.cores := by
  cases h with
  | object hcore hnext =>
    rw [Finmap.mem_insert, or_iff_right_of_imp]
    rintro rfl
    exact Table.mem_of_lookup hcore
  | _ => rfl

/-- **An object after a step** was there before it, with no higher counter, or is new. -/
theorem core_of_effect (h : Effect host c act c') {core' : ObjectCore}
    (hcore' : c'.objects.cores.lookup a = some core') :
    (∃ core, c.objects.cores.lookup a = some core ∧
        core.guidCreationNum ≤ core'.guidCreationNum) ∨
      c.objects.cores.lookup a = none ∧
        core'.guidCreationNum = INIT_GUID_CREATION_NUM + 1 ∧
        ∃ src, c.source act = some src ∧ host.address src = a := by
  cases h with
  | @create signer call src o _ owner hsrc hdraw hnew =>
    have hsource : c.source (.call signer call) = some src := hsrc
    replace hcore' : (Finmap.insert (host.address src) (newCore owner) o.cores).lookup a =
      some core' := hcore'
    rw [Table.lookup_insert_ite] at hcore'
    split at hcore'
    · next ha =>
      cases hcore'
      subst ha
      refine .inr ⟨?_, rfl, src, hsource, rfl⟩
      rw [Finmap.lookup_eq_none, ← mem_of_draw hdraw, ← Finmap.lookup_eq_none]
      exact hnew
    · exact .inl (core_of_draw hdraw hcore')
  | @primaryStore _ owner token hnew =>
    replace hcore' : (Finmap.insert (primaryStoreAddress host owner token)
      { newCore owner with allowUngatedTransfer := false } c.objects.cores).lookup a =
      some core' := hcore'
    rw [Table.lookup_insert_ite] at hcore'
    split at hcore'
    · next ha =>
      cases hcore'
      subst ha
      exact .inr ⟨hnew, rfl, .derived owner token, rfl, rfl⟩
    · exact .inl ⟨core', hcore', UInt64.le_refl _⟩
  | touch hsrc hcore howner hguid => exact .inl (grows_of_insert hcore hcore' hguid)
  | pin hsrc href hcore => exact .inl (grows_of_insert hcore hcore' (UInt64.le_refl _))
  | transfer hverify hcore => exact .inl (grows_of_insert hcore hcore' (UInt64.le_refl _))
  | transferWithRef href hmark hcore =>
    exact .inl (grows_of_insert hcore hcore' (UInt64.le_refl _))
  | burn hcore => exact .inl (grows_of_insert hcore hcore' (UInt64.le_refl _))
  | unburn htomb hcore => exact .inl (grows_of_insert hcore hcore' (UInt64.le_refl _))
  | delete href hcore =>
    replace hcore' : (Finmap.erase _ c.objects.cores).lookup a = some core' := hcore'
    rw [Table.lookup_erase_ite] at hcore'
    split at hcore'
    · cases hcore'
    · exact .inl ⟨core', hcore', UInt64.le_refl _⟩
  | _ => exact .inl ⟨core', hcore', UInt64.le_refl _⟩

/-- **An object that is gone after a step** was deleted through its reference. -/
theorem mem_of_effect (h : Effect host c act c') (ha : a ∈ c.objects.cores) :
    a ∈ c'.objects.cores ∨ a ∈ c.refs.deleteRefs := by
  cases h with
  | create owner hsrc hdraw =>
    exact .inl (Finmap.mem_insert.mpr (.inr ((mem_of_draw hdraw).mpr ha)))
  | primaryStore => exact .inl (Finmap.mem_insert.mpr (.inr ha))
  | touch => exact .inl (Finmap.mem_insert.mpr (.inr ha))
  | pin => exact .inl (Finmap.mem_insert.mpr (.inr ha))
  | transfer => exact .inl (Finmap.mem_insert.mpr (.inr ha))
  | transferWithRef => exact .inl (Finmap.mem_insert.mpr (.inr ha))
  | burn => exact .inl (Finmap.mem_insert.mpr (.inr ha))
  | unburn => exact .inl (Finmap.mem_insert.mpr (.inr ha))
  | @delete _ b _ href =>
    by_cases hab : a = b
    · exact .inr (hab ▸ href)
    · exact .inl (Finmap.mem_erase.mpr ⟨hab, ha⟩)
  | _ => exact .inl ha

theorem counters_of_effect (h : Effect host c act c') : c.objects.auids ≤ c'.objects.auids ∧
    ∀ x num, c.objects.accounts.lookup x = some num →
      ∃ num', c'.objects.accounts.lookup x = some num' ∧ num ≤ num' := by
  have hsame : ∀ x num, c.objects.accounts.lookup x = some num →
      ∃ num', c.objects.accounts.lookup x = some num' ∧ num ≤ num' :=
    fun x num hx => ⟨num, hx, UInt64.le_refl _⟩
  cases h with
  | create owner hsrc hdraw =>
    cases hdraw with
    | auid => exact ⟨Nat.le_succ _, hsame⟩
    | account hnum hnext => exact ⟨le_rfl, grows_of_next hnum hnext⟩
    | _ => exact ⟨le_rfl, hsame⟩
  | account hsrc hgrow => exact ⟨le_rfl, hgrow⟩
  | _ => exact ⟨le_rfl, hsame⟩

theorem Made.mono {T : Set Source} (hST : S ⊆ T) (h : Made host S a) : Made host T a := by
  obtain ⟨src, hsrc, rfl⟩ := h
  exact ⟨src, hST hsrc, rfl⟩

/-- A number that has been used stays used, whatever happens to its creator. -/
theorem used_of_effect {T : Set Source} (hST : S ⊆ T) (h : Effect host c act c')
    (hfresh : ∀ src, c.source act = some src → c' = c ∨ ¬ Made host S (host.address src))
    {src : Source} (hused : Used host S c.objects src) : Used host T c'.objects src := by
  obtain ⟨hauids, haccounts⟩ := counters_of_effect h
  cases src with
  | auid n => exact Nat.lt_of_lt_of_le hused hauids
  | guid creator num =>
    rcases hused with ⟨hmax, next, hnext, hlt⟩ | ⟨hmin, hmade, hlt⟩
    · obtain ⟨next', hnext', hle⟩ := haccounts creator next hnext
      exact .inl ⟨hmax, next', hnext', UInt64.lt_of_lt_of_le hlt hle⟩
    · refine .inr ⟨hmin, hmade.mono hST, fun core' hcore' => ?_⟩
      rcases core_of_effect h hcore' with ⟨core, hcore, hle⟩ | ⟨hnone, _, src', hsrc', rfl⟩
      · exact UInt64.lt_of_lt_of_le (hlt core hcore) hle
      · rcases hfresh src' hsrc' with rfl | hnew
        · rw [hnone] at hcore'
          cases hcore'
        · exact absurd hmade hnew
  | _ => trivial

/-- **A step that derives an address** makes an object there, or finds the store it wants. -/
theorem drawing_of_effect (h : Effect host c act c') {src : Source}
    (hsrc : c.source act = some src) :
    (∃ o canDelete owner, Draw c.objects src o canDelete ∧
        o.cores.lookup (host.address src) = none ∧ c' = c.obtain (⟨host.address src, canDelete⟩,
          { o with cores := o.cores.insert (host.address src) (newCore owner) })) ∨
      (∃ owner token, src = .derived owner token ∧
        (c.objects.cores.lookup (host.address src) = none ∧
            c' = { c with objects := withPrimaryStore host c.objects owner token } ∨
          host.address src ∈ c.objects.cores ∧ c' = c)) := by
  cases h with
  | create owner hsrc' hdraw hnew =>
    obtain rfl := Option.some.inj (hsrc'.symm.trans hsrc)
    exact .inl ⟨_, _, owner, hdraw, hnew, rfl⟩
  | primaryStore hnew =>
    cases hsrc
    exact .inr ⟨_, _, rfl, .inl ⟨hnew, rfl⟩⟩
  | primaryStoreExists hcore =>
    cases hsrc
    exact .inr ⟨_, _, rfl, .inr ⟨Table.mem_of_lookup hcore, rfl⟩⟩
  | account hnone => cases hnone.symm.trans hsrc
  | touch hnone => cases hnone.symm.trans hsrc
  | pin hnone => cases hnone.symm.trans hsrc
  | store hnone => cases hnone.symm.trans hsrc
  | token hnone => cases hnone.symm.trans hsrc
  | issue hnone => cases hnone.symm.trans hsrc
  | _ => cases hsrc

/-- What a step derives an address from is used thereafter. -/
theorem used_of_drawn {T : Set Source} (hA : Accounted host S c) (hST : S ⊆ T)
    (h : Effect host c act c') {src : Source} (hsrc : c.source act = some src) :
    Used host T c'.objects src := by
  rcases drawing_of_effect h hsrc with ⟨o, _, owner, hdraw, hnew, rfl⟩ | ⟨_, _, rfl, _⟩
  · cases hdraw with
    | auid => exact Nat.lt_succ_self _
    | account hnum hnext hmax =>
      have hlt := lt_of_next hnext
      exact .inl ⟨UInt64.lt_trans hlt hmax, _, Finmap.lookup_insert _, hlt⟩
    | @object creator core next hcore hnext =>
      refine .inr ⟨hA.counters _ _ hcore,
        (hA.traces _ (.inl (Table.mem_of_lookup hcore))).mono hST, fun core' hcore' => ?_⟩
      have hne : creator ≠ host.address (.guid creator core.guidCreationNum) := by
        intro heq
        rw [← heq, Finmap.lookup_insert] at hnew
        cases hnew
      replace hcore' : (Finmap.insert (host.address (.guid creator core.guidCreationNum))
        (newCore owner) (Finmap.insert creator { core with guidCreationNum := next }
          c.objects.cores)).lookup creator = some core' := hcore'
      rw [Finmap.lookup_insert_of_ne _ hne, Finmap.lookup_insert] at hcore'
      cases hcore'
      exact lt_of_next hnext
    | seed => trivial
  · trivial

/-- **A new object gets an address of its own.** Nothing was derived for it before. -/
theorem fresh_of_effect (hA : Accounted host S c)
    (hinj : Set.InjOn host.address (S ∪ c.drawn act)) (h : Effect host c act c') {src : Source}
    (hsrc : c.source act = some src) : c' = c ∨ ¬ Made host S (host.address src) := by
  -- with no collision, an address that was derived before was derived from the same
  have hsame : Made host S (host.address src) → src ∈ S := by
    rintro ⟨src', hsrc', heq⟩
    rwa [← hinj (.inl hsrc') (.inr hsrc) heq]
  rcases drawing_of_effect h hsrc with ⟨o, _, owner, hdraw, hnew, rfl⟩ |
    ⟨_, _, rfl, ⟨hnone, rfl⟩ | ⟨_, rfl⟩⟩
  · refine .inr fun hmade => ?_
    have hused := hA.used src (hsame hmade)
    cases hdraw with
    | seed creator seed =>
      have hkept := hA.kept _ (hsame hmade) id
      exact Finmap.lookup_eq_none.mp hnew hkept
    | auid => exact Nat.lt_irrefl _ hused
    | account hnum hnext hmax =>
      rcases hused with ⟨_, num', hnum', hlt⟩ | ⟨hmin, _⟩
      · rw [hnum] at hnum'
        cases hnum'
        exact UInt64.lt_irrefl _ hlt
      · exact UInt64.lt_irrefl _
          (UInt64.lt_of_le_of_lt hmin (UInt64.lt_trans (lt_of_next hnext) hmax))
    | object hcore hnext =>
      rcases hused with ⟨hmax, _⟩ | ⟨_, _, hlt⟩
      · exact UInt64.lt_irrefl _ (UInt64.lt_of_le_of_lt (hA.counters _ _ hcore) hmax)
      · exact UInt64.lt_irrefl _ (hlt _ hcore)
  · refine .inr fun hmade => ?_
    exact Finmap.lookup_eq_none.mp hnone (hA.kept _ (hsame hmade) id)
  · exact .inl rfl

theorem unique_of_draw {o o' : Objects} {src : Source} {canDelete : Bool}
    (h : Draw o src o' canDelete) (hdelete : canDelete = true) : src.Unique := by
  cases h with
  | seed => cases hdelete
  | _ => trivial

/-- **Deletable is only what was**, or a new object whose address can not be derived again. -/
theorem deletable_of_effect (h : Effect host c act c') (ha : c'.Deletable a) :
    c.Deletable a ∨ ∃ src, c.source act = some src ∧ src.Unique ∧ host.address src = a := by
  cases h with
  | create owner hsrc hdraw hnew =>
    rcases ha with ha | ⟨ref, href, hdelete, hself⟩
    · exact .inl (.inl ha)
    · rcases Finset.mem_insert.mp href with rfl | href
      · exact .inr ⟨_, hsrc, unique_of_draw hdraw hdelete, hself⟩
      · exact .inl (.inr ⟨ref, href, hdelete, hself⟩)
  | issue hsrc hissue =>
    cases hissue with
    | delete href hdelete =>
      rcases ha with ha | ha
      · rcases Finset.mem_insert.mp ha with rfl | ha
        · exact .inl (.inr ⟨_, href, hdelete, rfl⟩)
        · exact .inl (.inl ha)
      · exact .inl (.inr ha)
    | _ => exact .inl ha
  | endTransaction =>
    rcases ha with ha | ⟨ref, href, _⟩
    · exact .inl (.inl ha)
    · exact absurd href (Finset.notMem_empty ref)
  | _ => exact .inl ha

theorem init_le_succ : INIT_GUID_CREATION_NUM ≤ INIT_GUID_CREATION_NUM + 1 := by decide

/-- **The account of the sources is kept**, as long as no two of them collide. -/
theorem Accounted.step (hA : Accounted host S c)
    (hinj : Set.InjOn host.address (S ∪ c.drawn act)) (h : Effect host c act c') :
    Accounted host (S ∪ c.drawn act) c' := by
  have hsub : S ⊆ S ∪ c.drawn act := Set.subset_union_left
  constructor
  case traces =>
    intro a ha
    rcases traced_of_effect h ha with ha | ⟨src, hsrc, rfl⟩
    · exact (hA.traces a ha).mono hsub
    · exact ⟨src, .inr hsrc, rfl⟩
  case kept =>
    rintro src (hsrc | hsrc) hunique
    · rcases mem_of_effect h (hA.kept src hsrc hunique) with hmem | href
      · exact hmem
      · obtain ⟨src', hsrc', hunique', heq⟩ := hA.deletable _ (.inl href)
        rw [hinj (.inl hsrc') (.inl hsrc) heq] at hunique'
        exact absurd hunique' hunique
    · rcases drawing_of_effect h hsrc with ⟨o, _, owner, _, _, rfl⟩ |
        ⟨_, _, rfl, ⟨_, rfl⟩ | ⟨hmem, rfl⟩⟩
      · exact Finmap.mem_insert.mpr (.inl rfl)
      · exact Finmap.mem_insert.mpr (.inl rfl)
      · exact hmem
  case used =>
    rintro src (hsrc | hsrc)
    · exact used_of_effect hsub h (fun _ => fresh_of_effect hA hinj h) (hA.used src hsrc)
    · exact used_of_drawn hA hsub h hsrc
  case counters =>
    intro a core' hcore'
    rcases core_of_effect h hcore' with ⟨core, hcore, hle⟩ | ⟨_, hguid, _⟩
    · exact UInt64.le_trans (hA.counters a core hcore) hle
    · exact hguid ▸ init_le_succ
  case deletable =>
    intro a ha
    rcases deletable_of_effect h ha with ha | ⟨src, hsrc, hunique, heq⟩
    · obtain ⟨src, hsrc, hunique, heq⟩ := hA.deletable a ha
      exact ⟨src, .inl hsrc, hunique, heq⟩
    · exact ⟨src, .inr hsrc, hunique, heq⟩

theorem accounted_empty : Accounted host ∅ empty := by
  constructor
  case traces =>
    intro a ha
    simp [Traced, empty, Finmap.notMem_empty] at ha
  case deletable =>
    intro a ha
    simp [Deletable, empty] at ha
  case counters =>
    intro a core hcore
    cases hcore
  case kept => exact fun src hsrc => absurd hsrc (Set.notMem_empty src)
  case used => exact fun src hsrc => absurd hsrc (Set.notMem_empty src)

/-! ## Induction over runs -/

/-- The same as a set. -/
def sourceSet (h : List (Transactions.Event ObjectChain Act)) : Set Source :=
  { src | src ∈ sources h }

theorem sourceSet_nil : sourceSet [] = ∅ := by
  ext src
  simp [sourceSet, sources]

theorem sourceSet_snoc (h : List (Transactions.Event ObjectChain Act)) (c c' : ObjectChain)
    (act : Act) : sourceSet (h ++ [⟨c, act, c'⟩]) = sourceSet h ∪ c.drawn act := by
  ext src
  cases hsrc : c.source act <;> simp [sourceSet, sources, drawn, hsrc, eq_comm, or_comm]

theorem sourceSet_append (as bs : List Act) : sourceSet (history host empty as) ⊆
    sourceSet (history host empty (as ++ bs)) := by
  intro src hsrc
  show src ∈ sources _
  unfold history
  rw [Transactions.history_append, sources, List.filterMap_append]
  exact List.mem_append_left _ hsrc

theorem NoCollision.of_append {as bs : List Act}
    (hno : NoCollision host (history host empty (as ++ bs))) :
    NoCollision host (history host empty as) :=
  ⟨fun src hsrc src' hsrc' =>
    hno.1 src (sourceSet_append as bs hsrc) src' (sourceSet_append as bs hsrc'),
    fun src hsrc => hno.2 src (sourceSet_append as bs hsrc)⟩

theorem accounted_run (as : List Act) (hno : NoCollision host (history host empty as)) :
    Accounted host (sourceSet (history host empty as)) (run host empty as) := by
  refine Transactions.run_induction (I := fun h c =>
    Set.InjOn host.address (sourceSet h) → Accounted host (sourceSet h) c) ?_ ?_ as
    fun src hsrc src' hsrc' heq => hno.1 src hsrc src' hsrc' heq
  · intro _
    rw [sourceSet_nil]
    exact accounted_empty
  · intro h c act c' hA hstep hinj
    rw [sourceSet_snoc] at hinj ⊢
    exact (hA (hinj.mono Set.subset_union_left)).step hinj (exec_effect hstep)

/-- **Induction over the rest of a run**, from the state it has come to, for a rest whose steps all
meet `C`. At every step the sources are accounted for, and what is known of all of them, such as
that none has a certain address, may be used. -/
theorem run_rest_of {Q : Source → Prop} {C : Act → Prop} {P : ObjectChain → Prop}
    {as bs : List Act} (hno : NoCollision host (history host empty (as ++ bs)))
    (hQ : ∀ src ∈ sources (history host empty (as ++ bs)), Q src)
    (hC : ∀ e ∈ history host (run host empty as) bs, C e.act) (base : P (run host empty as))
    (hstep : ∀ S c act c', sourceSet (history host empty as) ⊆ S →
      (∀ src ∈ S ∪ c.drawn act, Q src) → Set.InjOn host.address (S ∪ c.drawn act) →
      Accounted host S c → C act → exec host c act = .ok c' → P c → P c') :
    P (run host empty (as ++ bs)) := by
  have hbefore := accounted_run as hno.of_append
  unfold run
  unfold history at hno hQ
  rw [Transactions.run_append]
  rw [Transactions.history_append] at hno hQ
  -- the sources of the whole run so far are the ones accounted for
  let I : List (Transactions.Event ObjectChain Act) → ObjectChain → Prop := fun h c =>
    Set.InjOn host.address (sourceSet (history host empty as ++ h)) →
      (∀ src ∈ sourceSet (history host empty as ++ h), Q src) → (∀ e ∈ h, C e.act) →
      Accounted host (sourceSet (history host empty as ++ h)) c ∧ P c
  have key : I (Transactions.history (exec host) (run host empty as) bs)
      (Transactions.run (exec host) (run host empty as) bs) := by
    refine Transactions.run_induction ?_ ?_ bs
    · intro _ _ _
      rw [List.append_nil]
      exact ⟨hbefore, base⟩
    · intro h c act c' hI hexec hinj hQ' hC'
      rw [← List.append_assoc, sourceSet_snoc] at hinj hQ' ⊢
      obtain ⟨hA, hP⟩ := hI (hinj.mono Set.subset_union_left)
        (fun src hsrc => hQ' src (.inl hsrc)) fun e he => hC' e (List.mem_append_left _ he)
      have hact := hC' ⟨c, act, c'⟩ (List.mem_append_right _ (List.mem_singleton.mpr rfl))
      refine ⟨hA.step hinj (exec_effect hexec), hstep _ c act c' ?_ hQ' hinj hA hact hexec hP⟩
      intro src hsrc
      show src ∈ sources (_ ++ _)
      rw [sources, List.filterMap_append]
      exact List.mem_append_left _ hsrc
  exact (key (fun src hsrc src' hsrc' heq => hno.1 src hsrc src' hsrc' heq) hQ hC).2

/-- The same for a rest that may be anything. -/
theorem run_rest {Q : Source → Prop} {P : ObjectChain → Prop} (as : List Act) {bs : List Act}
    (hno : NoCollision host (history host empty (as ++ bs)))
    (hQ : ∀ src ∈ sources (history host empty (as ++ bs)), Q src) (base : P (run host empty as))
    (hstep : ∀ S c act c', sourceSet (history host empty as) ⊆ S →
      (∀ src ∈ S ∪ c.drawn act, Q src) → Set.InjOn host.address (S ∪ c.drawn act) →
      Accounted host S c → exec host c act = .ok c' → P c → P c') :
    P (run host empty (as ++ bs)) :=
  run_rest_of (C := fun _ => True) hno hQ (fun _ _ => trivial) base
    fun S c act c' hS hQ' hinj hA _ => hstep S c act c' hS hQ' hinj hA

/-- What is gone is not made again. -/
theorem not_mem_of_effect (hA : Accounted host S c)
    (hinj : Set.InjOn host.address (S ∪ c.drawn act)) (h : Effect host c act c')
    (hmade : Made host S a) (ha : a ∉ c.objects.cores) : a ∉ c'.objects.cores := by
  intro ha'
  obtain ⟨core', hcore'⟩ := Finmap.mem_iff.mp ha'
  rcases core_of_effect h hcore' with ⟨core, hcore, _⟩ | ⟨_, _, src, hsrc, rfl⟩
  · exact ha (Table.mem_of_lookup hcore)
  · rcases fresh_of_effect hA hinj h hsrc with rfl | hnew
    · exact ha ha'
    · exact hnew hmade

/-! ## What can happen to an object -/

/-- Whom the log last says the object went to. -/
def lastRecipient (a : Address) (log : List Transfer) : Option Address :=
  ((log.filter fun e => e.object = a).getLast?).map Transfer.recipient

/-- The log has grown, and what is new in it takes the object from `x` to `y`. -/
def Logged (o o' : Objects) (a x y : Address) : Prop :=
  ∃ new, o'.events = o.events ++ new ∧ y = (lastRecipient a new).getD x

theorem Logged.same {o o' : Objects} (h : o'.events = o.events) : Logged o o' a x x :=
  ⟨[], by rw [h, List.append_nil], rfl⟩

theorem Logged.own {o o' : Objects} {y z : Address}
    (h : o'.events = o.events ++ [⟨a, z, y⟩]) : Logged o o' a x y :=
  ⟨_, h, by simp [lastRecipient]⟩

theorem Logged.other {o o' : Objects} {e : Transfer} (h : o'.events = o.events ++ [e])
    (hne : a ≠ e.object) : Logged o o' a x x :=
  ⟨_, h, by simp [lastRecipient, hne.symm]⟩

theorem Logged.passed {o : Objects} {core : ObjectCore} {recipient : Address} :
    Logged o (handOver o a core recipient) a core.owner recipient := by
  by_cases h : core.owner = recipient
  · subst h
    exact .same (by simp [handOver])
  · exact .own (z := core.owner) (by simp [handOver, h])

theorem Logged.passed_other {o : Objects} {b : Address} {core : ObjectCore} {recipient : Address}
    (hne : a ≠ b) : Logged o (handOver o b core recipient) a x x := by
  by_cases h : core.owner = recipient
  · exact .same (by simp [handOver, h])
  · exact .other (e := ⟨b, core.owner, recipient⟩) (by simp [handOver, h]) hne

/-- The gate of an object is opened only through a reference that allows it to be moved. -/
def Gate (c : ObjectChain) (a : Address) (core core' : ObjectCore) : Prop :=
  core'.allowUngatedTransfer = true → core.allowUngatedTransfer = true ∨
    a ∈ c.refs.transferRefs ∧ c.objects.untransferable.lookup a = none

/-- One step of an object: it stays with its owner, or is deleted, or passes into other hands in one
of four ways. -/
inductive Fate (host : Object.Host) (c : ObjectChain) (act : Act) (c' : ObjectChain) (a : Address)
    (core : ObjectCore) : Prop
  | gone (href : a ∈ c.refs.deleteRefs) (hgone : a ∉ c'.objects.cores)
  | kept {core' : ObjectCore} (hcore' : c'.objects.cores.lookup a = some core')
      (howner : core'.owner = core.owner) (hgate : Gate c a core core')
      (htomb : c'.objects.tombStones.lookup a = c.objects.tombStones.lookup a)
      (hlog : Logged c.objects c'.objects a core.owner core.owner)
  | transferred {signer recipient : Address} (hact : act = .call signer (.transfer a recipient))
      (hverify : verifyUngatedAndDescendant host c.objects signer a = .ok ())
      (hcore' : c'.objects.cores.lookup a = some { core with owner := recipient })
      (htomb : c'.objects.tombStones.lookup a = c.objects.tombStones.lookup a)
      (hlog : Logged c.objects c'.objects a core.owner recipient)
  | sent {signer recipient : Address}
      (hact : act = .call signer (.transferWithRef ⟨a, core.owner⟩ recipient))
      (href : (⟨a, core.owner⟩ : LinearTransferRef) ∈ c.refs.linearTransferRefs)
      (hmark : c.objects.untransferable.lookup a = none)
      (hcore' : c'.objects.cores.lookup a = some { core with owner := recipient })
      (htomb : c'.objects.tombStones.lookup a = none)
      (hlog : Logged c.objects c'.objects a core.owner recipient)
  | burnt (hact : act = .call core.owner (.burn a)) (hbefore : c.objects.tombStones.lookup a = none)
      (hcore' : c'.objects.cores.lookup a = some { core with owner := BURN_ADDRESS })
      (htomb : c'.objects.tombStones.lookup a = some core.owner)
      (hlog : Logged c.objects c'.objects a core.owner BURN_ADDRESS)
  | unburnt {signer : Address} (hact : act = .call signer (.unburn a))
      (hbefore : c.objects.tombStones.lookup a = some signer)
      (hcore' : c'.objects.cores.lookup a = some { core with owner := signer })
      (htomb : c'.objects.tombStones.lookup a = none)
      (hlog : Logged c.objects c'.objects a core.owner signer)

/-- What a step does not touch. -/
theorem Fate.same {core : ObjectCore} (hcore' : c'.objects.cores.lookup a = some core)
    (htomb : c'.objects.tombStones.lookup a = c.objects.tombStones.lookup a)
    (hlog : Logged c.objects c'.objects a core.owner core.owner) : Fate host c act c' a core :=
  .kept hcore' rfl .inl htomb hlog

/-- **A step leaves an object to one of its fates.** -/
theorem fate_of_effect (h : Effect host c act c') {core : ObjectCore}
    (hcore : c.objects.cores.lookup a = some core) : Fate host c act c' a core := by
  cases h with
  | @create signer call src o canDelete owner hsrc hdraw hnew =>
    have hne : a ≠ host.address src := by
      rintro rfl
      exact Finmap.lookup_eq_none.mp hnew ((mem_of_draw hdraw).mpr (Table.mem_of_lookup hcore))
    have hcores : (c.obtain (⟨host.address src, canDelete⟩, { o with
        cores := o.cores.insert (host.address src) (newCore owner) })).objects.cores.lookup a =
          o.cores.lookup a := Finmap.lookup_insert_of_ne _ hne
    cases hdraw with
    | @object creator core₀ next hcore₀ hnext =>
      by_cases ha : a = creator
      · subst ha
        obtain rfl := Option.some.inj (hcore₀.symm.trans hcore)
        exact .kept (hcores.trans (Finmap.lookup_insert _)) rfl .inl rfl (.same rfl)
      · exact .same (hcores.trans ((Finmap.lookup_insert_of_ne _ ha).trans hcore)) rfl (.same rfl)
    | _ => exact .same (hcores.trans hcore) rfl (.same rfl)
  | @primaryStore _ owner token hnew =>
    have hne : a ≠ primaryStoreAddress host owner token := by
      rintro rfl
      rw [hnew] at hcore
      cases hcore
    exact .same ((Finmap.lookup_insert_of_ne _ hne).trans hcore) rfl (.same rfl)
  | @touch _ _ b core₀ core₁ hsrc hcore₀ howner hguid hgate =>
    by_cases ha : a = b
    · subst ha
      obtain rfl := Option.some.inj (hcore₀.symm.trans hcore)
      exact .kept (Finmap.lookup_insert _) howner hgate rfl (.same rfl)
    · exact .same ((Finmap.lookup_insert_of_ne _ ha).trans hcore) rfl (.same rfl)
  | @pin _ _ ref core₀ _ hsrc href hcore₀ =>
    by_cases ha : a = ref.self
    · subst ha
      obtain rfl := Option.some.inj (hcore₀.symm.trans hcore)
      exact .kept (Finmap.lookup_insert _) rfl (fun hgate => absurd hgate Bool.false_ne_true) rfl
        (.same rfl)
    · exact .same ((Finmap.lookup_insert_of_ne _ ha).trans hcore) rfl (.same rfl)
  | @delete _ b core₀ href hcore₀ =>
    by_cases ha : a = b
    · subst ha
      exact .gone href Finmap.notMem_erase_self
    · exact .same ((Finmap.lookup_erase_ne ha).trans hcore) rfl (.same rfl)
  | @transfer signer b recipient core₀ hverify hcore₀ =>
    by_cases ha : a = b
    · subst ha
      obtain rfl := Option.some.inj (hcore₀.symm.trans hcore)
      exact .transferred rfl hverify (Finmap.lookup_insert _) rfl .passed
    · exact .same ((Finmap.lookup_insert_of_ne _ ha).trans hcore) rfl (.passed_other ha)
  | @transferWithRef signer recipient ref core₀ href hmark hcore₀ howner =>
    by_cases ha : a = ref.self
    · subst ha
      obtain rfl := Option.some.inj (hcore₀.symm.trans hcore)
      obtain ⟨self, owner⟩ := ref
      obtain rfl : core₀.owner = owner := howner
      exact .sent rfl href hmark (Finmap.lookup_insert _) (Finmap.lookup_erase _ _) (.own rfl)
    · exact .same ((Finmap.lookup_insert_of_ne _ ha).trans hcore) (Finmap.lookup_erase_ne ha)
        (.other rfl ha)
  | @burn signer b core₀ hcore₀ howner htomb =>
    by_cases ha : a = b
    · subst ha
      obtain rfl := Option.some.inj (hcore₀.symm.trans hcore)
      subst howner
      exact .burnt rfl htomb (Finmap.lookup_insert _) (Finmap.lookup_insert _) .passed
    · exact .same ((Finmap.lookup_insert_of_ne _ ha).trans hcore)
        (Finmap.lookup_insert_of_ne _ ha) (.passed_other ha)
  | @unburn signer b core₀ htomb hcore₀ =>
    by_cases ha : a = b
    · subst ha
      obtain rfl := Option.some.inj (hcore₀.symm.trans hcore)
      exact .unburnt rfl htomb (Finmap.lookup_insert _) (Finmap.lookup_erase _ _) .passed
    · exact .same ((Finmap.lookup_insert_of_ne _ ha).trans hcore) (Finmap.lookup_erase_ne ha)
        (.passed_other ha)
  | _ => exact .same hcore rfl (.same rfl)

/-! ## Owners of owners -/

/-- The owners above an object, from the first one on. -/
theorem within_owner_iff {o : Objects} {core : ObjectCore} {p : Address → Prop} {person : Address}
    {n : ℕ} (hcore : o.cores.lookup a = some core) :
    Walk.Within (ownerOf o) p n core.owner person ↔
      ∃ m ≤ n, Walk.after (ownerOf o) (m + 1) a = some person ∧
        ∀ k < m, ∀ b, Walk.after (ownerOf o) (k + 1) a = some b → p b := by
  simp only [Walk.within_iff, Walk.after_succ_of (ownerOf_of_lookup hcore)]

/-- **Ownership at a distance.** Objects may own objects, in circles even. `owns` says yes exactly
for the object itself and the first eight owners up from it, and it says no only to who is no owner
at any distance; where it can not tell it aborts. A transfer is accepted exactly from the first
eight owners, if every object from the one transferred up to theirs is ungated. -/
theorem ownership_at_a_distance (o : Objects) (a person recipient : Address) :
    (owns host o a person = .ok true ↔
        a = person ∨ ∃ n < MAXIMUM_OBJECT_NESTING,
          Walk.after (ownerOf o) (n + 1) a = some person) ∧
      (owns host o a person = .ok false →
        ¬ Relation.ReflTransGen (fun b b' => ownerOf o b = some b') a person) ∧
      ((∃ o', transferRaw host o person a recipient = .ok o') ↔
        ∃ n < MAXIMUM_OBJECT_NESTING, Walk.after (ownerOf o) (n + 1) a = some person ∧
          ∀ k ≤ n, ∀ b, Walk.after (ownerOf o) k a = some b → Ungated o b) := by
  refine ⟨?_, ?_, ?_⟩
  · rw [owns_eq_true]
    refine or_congr_right ⟨?_, ?_⟩
    · rintro ⟨core, hcore, hwithin⟩
      obtain ⟨m, hm, hperson, _⟩ := (within_owner_iff hcore).mp hwithin
      exact ⟨m, Nat.lt_succ_of_le hm, hperson⟩
    · rintro ⟨n, hn, hperson⟩
      cases hcore : o.cores.lookup a with
      | none =>
        rw [Walk.after_succ_of_none (ownerOf_eq_none.mpr hcore)] at hperson
        cases hperson
      | some core =>
        exact ⟨core, rfl, (within_owner_iff hcore).mpr
          ⟨n, Nat.le_of_lt_succ hn, hperson, fun _ _ _ _ => trivial⟩⟩
  · intro h
    unfold owns at h
    split at h
    · cases h
    · next hne =>
      simp only [Checked.bind_eq_ok, Checked.require_eq_ok, exists_const,
        Table.borrow_eq_ok] at h
      obtain ⟨_, core, hcore, hloop⟩ := h
      obtain ⟨m, z, hz, hend, hnot⟩ := ownsLoop_eq_false hloop
      have hstep := ownerOf_of_lookup hcore
      refine Walk.not_reflTransGen ((Walk.after_succ_of hstep).trans hz) hend ?_
      rintro (_ | k) hk heq
      · exact hne (Option.some.inj heq)
      · rw [Walk.after_succ_of hstep] at heq
        exact hnot k (Nat.le_of_succ_le_succ hk) heq
  · simp only [transferRaw, Checked.bind_eq_ok, transferRawInner_eq_ok]
    constructor
    · rintro ⟨_, _, hverify, _⟩
      obtain ⟨core, hcore, hopen, hwithin⟩ := verifyUngatedAndDescendant_eq_ok.mp hverify
      obtain ⟨m, hm, hperson, hall⟩ := (within_owner_iff hcore).mp hwithin
      refine ⟨m, Nat.lt_succ_of_le hm, hperson, ?_⟩
      rintro (_ | k) hk b hb
      · cases hb
        exact ⟨core, hcore, hopen⟩
      · exact hall k hk b hb
    · rintro ⟨n, hn, hperson, hall⟩
      obtain ⟨core, hcore, hopen⟩ := hall 0 (Nat.zero_le n) a rfl
      have hwithin := (within_owner_iff hcore).mpr ⟨n, Nat.le_of_lt_succ hn, hperson,
        fun k hk b hb => hall (k + 1) hk b hb⟩
      exact ⟨_, (), verifyUngatedAndDescendant_eq_ok.mpr ⟨core, hcore, hopen, hwithin⟩, core,
        hcore, rfl⟩

/-! ## Addresses and the log, over whole runs -/

/-- **No address is used for a second object.** In every run without a hash collision: an object
that has been deleted never comes back, whatever anyone creates. -/
theorem gone_for_good (as bs cs : List Act) (a : Address)
    (hno : NoCollision host (history host empty (as ++ bs ++ cs)))
    (hthere : a ∈ (run host empty as).objects.cores)
    (hgone : a ∉ (run host empty (as ++ bs)).objects.cores) :
    a ∉ (run host empty (as ++ bs ++ cs)).objects.cores := by
  have hmade := (accounted_run as hno.of_append.of_append).traces a (.inl hthere)
  refine run_rest _ (P := fun c => a ∉ c.objects.cores) hno (fun _ _ => trivial) hgone ?_
  intro S c act c' hS _ hinj hA hexec hc
  exact not_mem_of_effect hA hinj (exec_effect hexec)
    (hmade.mono ((sourceSet_append as bs).trans hS)) hc

theorem gone_for_good_test :
    0xfb ∉ (run testHost empty ([.call 0xb0b (.createObject 0xb0b)] ++
      [.call 0xb0b (.generateDeleteRef ⟨0xfb, true⟩), .call 0xb0b (.delete 0xfb)] ++
      [.call 0xb0b (.createObject 0xb0b)])).objects.cores :=
  gone_for_good [.call 0xb0b (.createObject 0xb0b)]
    [.call 0xb0b (.generateDeleteRef ⟨0xfb, true⟩), .call 0xb0b (.delete 0xfb)]
    [.call 0xb0b (.createObject 0xb0b)] 0xfb (by decide +kernel) (by decide +kernel)
    (by decide +kernel)

theorem Logged.trans {o o' o'' : Objects} {y z : Address} (h : Logged o o' a x y)
    (h' : Logged o' o'' a y z) : Logged o o'' a x z := by
  obtain ⟨new, hevents, rfl⟩ := h
  obtain ⟨new', hevents', rfl⟩ := h'
  refine ⟨new ++ new', by rw [hevents', hevents, List.append_assoc], ?_⟩
  unfold lastRecipient
  rw [List.filter_append, List.getLast?_append]
  cases (new'.filter fun e => e.object = a).getLast? <;> rfl

theorem Fate.logged {core : ObjectCore} (h : Fate host c act c' a core) :
    a ∉ c'.objects.cores ∨ ∃ core', c'.objects.cores.lookup a = some core' ∧
      Logged c.objects c'.objects a core.owner core'.owner := by
  cases h with
  | gone _ hgone => exact .inl hgone
  | kept hcore' howner _ _ hlog => exact .inr ⟨_, hcore', howner ▸ hlog⟩
  | transferred _ _ hcore' _ hlog => exact .inr ⟨_, hcore', hlog⟩
  | sent _ _ _ hcore' _ hlog => exact .inr ⟨_, hcore', hlog⟩
  | burnt _ _ hcore' _ hlog => exact .inr ⟨_, hcore', hlog⟩
  | unburnt _ _ hcore' _ hlog => exact .inr ⟨_, hcore', hlog⟩

/-- **The log tells the owner.** In every run without a hash collision: for an object that is there
at two moments, the transfers logged in between lead from the owner at the first to the owner at the
second. -/
theorem log_tells_owner (as bs : List Act) (a : Address)
    (hno : NoCollision host (history host empty (as ++ bs))) (core core' : ObjectCore)
    (hcore : (run host empty as).objects.cores.lookup a = some core)
    (hcore' : (run host empty (as ++ bs)).objects.cores.lookup a = some core') :
    Logged (run host empty as).objects (run host empty (as ++ bs)).objects a core.owner
      core'.owner := by
  have hmade := (accounted_run as hno.of_append).traces a (.inl (Table.mem_of_lookup hcore))
  -- until it is gone, and then it is gone for good
  have key := run_rest as (P := fun c => a ∉ c.objects.cores ∨
    ∃ core₁, c.objects.cores.lookup a = some core₁ ∧
      Logged (run host empty as).objects c.objects a core.owner core₁.owner)
    hno (fun _ _ => trivial) (.inr ⟨core, hcore, .same rfl⟩) ?_
  · rcases key with hgone | ⟨core₁, hcore₁, hlog⟩
    · exact absurd (Table.mem_of_lookup hcore') hgone
    · obtain rfl := Option.some.inj (hcore₁.symm.trans hcore')
      exact hlog
  · rintro S c act c' hS _ hinj hA hexec (hgone | ⟨core₁, hcore₁, hlog⟩)
    · exact .inl (not_mem_of_effect hA hinj (exec_effect hexec) (hmade.mono hS) hgone)
    · rcases (fate_of_effect (exec_effect hexec) hcore₁).logged with
        hgone | ⟨core₂, hcore₂, hlog'⟩
      · exact .inl hgone
      · exact .inr ⟨core₂, hcore₂, hlog.trans hlog'⟩

/-- An object is passed on and then thrown away. -/
theorem log_tells_owner_test :
    Logged (run testHost empty [.call 0xb0b (.createObject 0xb0b)]).objects
      (run testHost empty ([.call 0xb0b (.createObject 0xb0b)] ++
        [.call 0xb0b (.transfer 0xfb 0xa11ce), .call 0xa11ce (.burn 0xfb)])).objects
      0xfb 0xb0b BURN_ADDRESS :=
  log_tells_owner [.call 0xb0b (.createObject 0xb0b)]
    [.call 0xb0b (.transfer 0xfb 0xa11ce), .call 0xa11ce (.burn 0xfb)] 0xfb (by decide +kernel)
    ⟨INIT_GUID_CREATION_NUM + 1, 0xb0b, true⟩ ⟨INIT_GUID_CREATION_NUM + 1, BURN_ADDRESS, true⟩
    (by decide +kernel) (by decide +kernel)

end ObjectChain

end Pictor
