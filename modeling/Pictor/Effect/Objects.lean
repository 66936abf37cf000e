import Pictor.Contract.Objects

/-!
# What a call does to the objects

The two walks along the owners are bounded searches (`Walk.Within`). Everything else is said by
`Effect`: a call makes one new object, or changes one object in one of a few ways, or only the
references, and each way comes with what it needs. The invariants are case analyses over it.
-/

namespace Pictor

namespace Object

variable {host : Host} {o o' : Objects}

/-! ## Walking along the owners -/

/-- The owner, of what is an object. -/
def ownerOf (o : Objects) (a : Address) : Option Address := (o.cores.lookup a).map ObjectCore.owner

/-- The object may be passed on by whoever owns it. -/
def Ungated (o : Objects) (a : Address) : Prop :=
  ∃ core, o.cores.lookup a = some core ∧ core.allowUngatedTransfer = true

theorem ownerOf_of_lookup {a : Address} {core : ObjectCore} (h : o.cores.lookup a = some core) :
    ownerOf o a = some core.owner := by
  rw [ownerOf, h, Option.map_some]

theorem ownerOf_eq_none {a : Address} : ownerOf o a = none ↔ o.cores.lookup a = none :=
  Option.map_eq_none_iff

theorem verifyLoop_eq_ok {person current : Address} {n : ℕ} :
    verifyLoop host o person current n = .ok () ↔
      Walk.Within (ownerOf o) (Ungated o) n current person := by
  induction n generalizing current with
  | zero =>
    unfold verifyLoop Walk.Within
    split
    · next h => simp [h]
    · next h => simpa using Ne.symm h
  | succ n ih =>
    unfold verifyLoop Walk.Within
    split
    · next h => simp [h]
    · next h =>
      rw [or_iff_right (Ne.symm h)]
      simp only [Checked.bind_eq_ok, Checked.require_eq_ok, Table.borrow_eq_ok, exists_const,
        Table.contains_eq_true, ih]
      constructor
      · rintro ⟨_, core, hcore, hopen, hrest⟩
        exact ⟨⟨core, hcore, hopen⟩, core.owner, ownerOf_of_lookup hcore, hrest⟩
      · rintro ⟨⟨core, hcore, hopen⟩, z, hz, hrest⟩
        rw [ownerOf_of_lookup hcore] at hz
        cases hz
        exact ⟨⟨core, hcore⟩, core, hcore, hopen, hrest⟩

/-- **Whose transfers go through**: those of the owner, or of an owner's owner and so on at most
eight owners up, if nothing that would be passed through on the way is gated. -/
theorem verifyUngatedAndDescendant_eq_ok {person a : Address} :
    verifyUngatedAndDescendant host o person a = .ok () ↔
      ∃ core, o.cores.lookup a = some core ∧ core.allowUngatedTransfer = true ∧
        Walk.Within (ownerOf o) (Ungated o) (MAXIMUM_OBJECT_NESTING - 1) core.owner person := by
  unfold verifyUngatedAndDescendant
  simp only [Checked.bind_eq_ok, Checked.require_eq_ok, Table.borrow_eq_ok, exists_const,
    Table.contains_eq_true, verifyLoop_eq_ok]
  constructor
  · rintro ⟨_, core, hcore, hopen, hrest⟩
    exact ⟨core, hcore, hopen, hrest⟩
  · rintro ⟨core, hcore, hopen, hrest⟩
    exact ⟨⟨core, hcore⟩, core, hcore, hopen, hrest⟩

theorem ownsLoop_eq_true {person current : Address} {n : ℕ} :
    ownsLoop host o person current n = .ok true ↔
      Walk.Within (ownerOf o) (fun _ => True) n current person := by
  induction n generalizing current with
  | zero =>
    unfold ownsLoop Walk.Within
    split
    · next h => simp [h]
    · next h => simpa using Ne.symm h
  | succ n ih =>
    unfold ownsLoop Walk.Within
    split
    · next h => simp [h]
    · next h =>
      rw [or_iff_right (Ne.symm h)]
      cases hcore : o.cores.lookup current with
      | none =>
        rw [if_pos (Table.contains_eq_false.mpr hcore)]
        simp [ownerOf_eq_none.mpr hcore]
      | some core =>
        rw [if_neg (by simp [Table.contains, hcore]), Table.borrow_eq_ok.mpr hcore, Checked.ok_bind,
          ih]
        simp [ownerOf_of_lookup hcore]

/-- It is false where the owners come to an end and the person is not one of them. -/
theorem ownsLoop_eq_false {person current : Address} {n : ℕ}
    (h : ownsLoop host o person current n = .ok false) :
    ∃ m z, Walk.after (ownerOf o) m current = some z ∧ ownerOf o z = none ∧
      ∀ k ≤ m, Walk.after (ownerOf o) k current ≠ some person := by
  induction n generalizing current with
  | zero =>
    unfold ownsLoop at h
    split at h <;> cases h
  | succ n ih =>
    unfold ownsLoop at h
    split at h
    · cases h
    · next hne =>
      split at h
      · next hcore =>
        refine ⟨0, current, rfl, ownerOf_eq_none.mpr (Table.contains_eq_false.mp hcore), ?_⟩
        intro k hk heq
        obtain rfl := Nat.le_zero.mp hk
        exact hne (Option.some.inj heq).symm
      · simp only [Checked.bind_eq_ok, Table.borrow_eq_ok] at h
        obtain ⟨core, hcore, hrest⟩ := h
        obtain ⟨m, z, hz, hend, hnot⟩ := ih hrest
        have hstep := ownerOf_of_lookup hcore
        refine ⟨m + 1, z, (Walk.after_succ_of hstep).trans hz, hend, ?_⟩
        rintro (_ | k) hk heq
        · exact hne (Option.some.inj heq).symm
        · rw [Walk.after_succ_of hstep] at heq
          exact hnot k (Nat.le_of_succ_le_succ hk) heq

/-- `owns` is true of the object itself and of its first eight owners. -/
theorem owns_eq_true {person a : Address} : owns host o a person = .ok true ↔
    a = person ∨ ∃ core, o.cores.lookup a = some core ∧
      Walk.Within (ownerOf o) (fun _ => True) (MAXIMUM_OBJECT_NESTING - 1) core.owner person := by
  unfold owns
  split
  · next h => simp [h]
  · next h =>
    rw [or_iff_right h]
    simp only [Checked.bind_eq_ok, Checked.require_eq_ok, Table.borrow_eq_ok, exists_const,
      Table.contains_eq_true, ownsLoop_eq_true]
    constructor
    · rintro ⟨_, core, hcore, hrest⟩
      exact ⟨core, hcore, hrest⟩
    · rintro ⟨core, hcore, hrest⟩
      exact ⟨⟨core, hcore⟩, core, hcore, hrest⟩

/-- Owned by what is no object, the object is owned by nobody else, itself apart. -/
theorem owns_of_account {person a : Address} {core : ObjectCore}
    (hcore : o.cores.lookup a = some core) (haccount : o.cores.lookup core.owner = none) :
    owns host o a person = .ok (decide (person = a ∨ person = core.owner)) := by
  unfold owns
  split
  · next h => simp [h]
  · next h =>
    rw [Checked.require_of (Table.contains_eq_true.mpr ⟨core, hcore⟩), Checked.ok_bind,
      Table.borrow_eq_ok.mpr hcore, Checked.ok_bind]
    show ownsLoop host o person core.owner 7 = _
    unfold ownsLoop
    split
    · next hp => simp [hp]
    · next hp =>
      rw [if_pos (Table.contains_eq_false.mpr haccount)]
      simp [hp, Ne.symm h]

/-! ## The functions that change objects -/

/-- A new object as `create_object_internal` leaves it. -/
def newCore (owner : Address) : ObjectCore := ⟨INIT_GUID_CREATION_NUM + 1, owner, true⟩

theorem createObjectInternal_eq_ok {creator a : Address} {canDelete : Bool}
    {r : ConstructorRef × Objects} :
    createObjectInternal host o creator a canDelete = .ok r ↔ o.cores.lookup a = none ∧
      r = (⟨a, canDelete⟩, { o with cores := o.cores.insert a (newCore creator) }) := by
  have hadd : U64.add INIT_GUID_CREATION_NUM 1 = .ok (INIT_GUID_CREATION_NUM + 1) := rfl
  unfold createObjectInternal
  rw [hadd]
  simp only [Checked.bind_eq_ok, Checked.require_eq_ok, exists_const, Table.contains_eq_false,
    Checked.ok_bind, Checked.pure_eq_ok, newCore]
  exact and_congr_right fun _ => eq_comm

theorem accountGuid_eq_ok {addr : Address} {r : UInt64 × Objects} :
    accountGuid host o addr = .ok r ↔ ∃ num next : UInt64, o.accounts.lookup addr = some num ∧
      next.toNat = num.toNat + 1 ∧ next < MAX_GUID_CREATION_NUM ∧
      r = (num, { o with accounts := o.accounts.insert addr next }) := by
  unfold accountGuid
  simp only [Checked.bind_eq_ok, Table.borrow_eq_ok, U64.add, Checked.add_eq_ok,
    Checked.require_eq_ok, exists_const, Checked.pure_eq_ok]
  constructor
  · rintro ⟨num, hnum, next, hnext, hmax, rfl⟩
    exact ⟨num, next, hnum, hnext, hmax, rfl⟩
  · rintro ⟨num, next, hnum, hnext, hmax, rfl⟩
    exact ⟨num, hnum, next, hnext, hmax, rfl⟩

theorem createGuid_eq_ok {a : Address} {r : UInt64 × Objects} :
    createGuid o a = .ok r ↔ ∃ (core : ObjectCore) (next : UInt64), o.cores.lookup a = some core ∧
      next.toNat = core.guidCreationNum.toNat + 1 ∧
      r = (core.guidCreationNum,
        { o with cores := o.cores.insert a { core with guidCreationNum := next } }) := by
  unfold createGuid
  simp only [Checked.bind_eq_ok, Table.borrow_eq_ok, U64.add, Checked.add_eq_ok,
    Checked.pure_eq_ok]
  constructor
  · rintro ⟨core, hcore, next, hnext, rfl⟩
    exact ⟨core, next, hcore, hnext, rfl⟩
  · rintro ⟨core, next, hcore, hnext, rfl⟩
    exact ⟨core, hcore, next, hnext, rfl⟩

/-- What becomes of `o` when the object `a` passes into other hands. There is no event if these are
the hands it was in. -/
def handOver (o : Objects) (a : Address) (core : ObjectCore) (recipient : Address) : Objects :=
  { o with
    cores := o.cores.insert a { core with owner := recipient }
    events := o.events ++ if core.owner = recipient then [] else [⟨a, core.owner, recipient⟩] }

theorem transferRawInner_eq_ok {a recipient : Address} :
    transferRawInner o a recipient = .ok o' ↔
      ∃ core, o.cores.lookup a = some core ∧ o' = handOver o a core recipient := by
  unfold transferRawInner
  simp only [Checked.bind_eq_ok, Table.borrow_eq_ok]
  refine exists_congr fun core => and_congr_right fun hcore => ?_
  unfold handOver
  split
  · next h =>
    subst h
    rw [Checked.pure_eq_ok, Table.insert_of_lookup hcore, List.append_nil]
    exact eq_comm
  · rw [Checked.pure_eq_ok]
    exact eq_comm

end Object

namespace ObjectChain

open Object

variable (host : Object.Host)

/-! ## What a call does -/

/-- Where the address of a new object comes from, and what is used up by it. -/
inductive Draw (o : Objects) : Source → Objects → Bool → Prop
  | seed (creator : Address) (seed : List UInt8) : Draw o (.seed creator seed) o false
  | auid (canDelete : Bool) : Draw o (.auid o.auids) { o with auids := o.auids + 1 } canDelete
  | account {creator : Address} {num next : UInt64} (hnum : o.accounts.lookup creator = some num)
      (hnext : next.toNat = num.toNat + 1) (hmax : next < MAX_GUID_CREATION_NUM) :
      Draw o (.guid creator num) { o with accounts := o.accounts.insert creator next } true
  | object {creator : Address} {core : ObjectCore} {next : UInt64}
      (hcore : o.cores.lookup creator = some core)
      (hnext : next.toNat = core.guidCreationNum.toNat + 1) :
      Draw o (.guid creator core.guidCreationNum)
        { o with cores := o.cores.insert creator { core with guidCreationNum := next } } true

/-- A reference made from another one. -/
inductive Issue (c : ObjectChain) : References → Prop
  | delete {ref : ConstructorRef} (href : ref ∈ c.refs.constructorRefs)
      (hdelete : ref.canDelete = true) :
      Issue c { c.refs with deleteRefs := insert ref.self c.refs.deleteRefs }
  | extend {ref : ConstructorRef} (href : ref ∈ c.refs.constructorRefs) :
      Issue c { c.refs with extendRefs := insert ref.self c.refs.extendRefs }
  | transfer {ref : ConstructorRef} (href : ref ∈ c.refs.constructorRefs)
      (hmark : c.objects.untransferable.lookup ref.self = none) :
      Issue c { c.refs with transferRefs := insert ref.self c.refs.transferRefs }
  | linear {a : Address} {core : ObjectCore} (href : a ∈ c.refs.transferRefs)
      (hmark : c.objects.untransferable.lookup a = none)
      (hcore : c.objects.cores.lookup a = some core) :
      Issue c { c.refs with
        linearTransferRefs := insert ⟨a, core.owner⟩ c.refs.linearTransferRefs }

/-- `o` with a new primary store, which nobody can pass on. -/
def withPrimaryStore (o : Objects) (owner token : Address) : Objects :=
  let a := primaryStoreAddress host owner token
  { o with
    cores := o.cores.insert a { newCore owner with allowUngatedTransfer := false }
    stores := o.stores.insert a token
    untransferable :=
      if o.untransferableTokens.contains token then o.untransferable.insert a ()
      else o.untransferable }

inductive Effect (c : ObjectChain) : Act → ObjectChain → Prop
  | create {signer : Address} {call : Object.Call} {src : Source} {o : Objects} {canDelete : Bool}
      (owner : Address) (hsrc : c.callSource signer call = some src)
      (hdraw : Draw c.objects src o canDelete) (hnew : o.cores.lookup (host.address src) = none) :
      Effect c (.call signer call) (c.obtain (⟨host.address src, canDelete⟩,
        { o with cores := o.cores.insert (host.address src) (newCore owner) }))
  | primaryStore {signer owner token : Address}
      (hnew : c.objects.cores.lookup (primaryStoreAddress host owner token) = none) :
      Effect c (.call signer (.ensurePrimaryStoreExists owner token))
        { c with objects := withPrimaryStore host c.objects owner token }
  | primaryStoreExists {signer owner token : Address} {core : ObjectCore}
      (hcore : c.objects.cores.lookup (primaryStoreAddress host owner token) = some core) :
      Effect c (.call signer (.ensurePrimaryStoreExists owner token)) c
  | account {signer : Address} {call : Object.Call} {accounts : Table Address UInt64}
      (hsrc : c.callSource signer call = none)
      (hgrow : ∀ a num, c.objects.accounts.lookup a = some num →
        ∃ num', accounts.lookup a = some num' ∧ num ≤ num') :
      Effect c (.call signer call) { c with objects := { c.objects with accounts } }
  | touch {signer : Address} {call : Object.Call} {a : Address} {core core' : ObjectCore}
      (hsrc : c.callSource signer call = none) (hcore : c.objects.cores.lookup a = some core)
      (howner : core'.owner = core.owner) (hguid : core.guidCreationNum ≤ core'.guidCreationNum)
      (hgate : core'.allowUngatedTransfer = true → core.allowUngatedTransfer = true ∨
        a ∈ c.refs.transferRefs ∧ c.objects.untransferable.lookup a = none) :
      Effect c (.call signer call)
        { c with objects := { c.objects with cores := c.objects.cores.insert a core' } }
  | pin {signer : Address} {call : Object.Call} {ref : ConstructorRef} {core : ObjectCore}
      {stores : Table Address Token} (hsrc : c.callSource signer call = none)
      (href : ref ∈ c.refs.constructorRefs)
      (hcore : c.objects.cores.lookup ref.self = some core)
      (hstores : stores = c.objects.stores ∨
        ∃ token, c.objects.stores.lookup ref.self = none ∧
          stores = c.objects.stores.insert ref.self token) :
      Effect c (.call signer call) { c with objects := { c.objects with
        cores := c.objects.cores.insert ref.self { core with allowUngatedTransfer := false }
        untransferable := c.objects.untransferable.insert ref.self ()
        stores } }
  | store {signer : Address} {call : Object.Call} {ref : ConstructorRef} {core : ObjectCore}
      {token : Address} (hsrc : c.callSource signer call = none)
      (href : ref ∈ c.refs.constructorRefs)
      (hcore : c.objects.cores.lookup ref.self = some core)
      (htoken : c.objects.untransferableTokens.lookup token = none) :
      Effect c (.call signer call)
        { c with objects := { c.objects with stores := c.objects.stores.insert ref.self token } }
  | unstore {signer a : Address} (href : a ∈ c.refs.deleteRefs) :
      Effect c (.call signer (.removeStore a))
        { c with objects := { c.objects with stores := c.objects.stores.erase a } }
  | token {signer : Address} {call : Object.Call}
      {metadata untransferableTokens deriveRefPods : Table Address Unit}
      (hsrc : c.callSource signer call = none)
      (hgrow : ∀ token, c.objects.untransferableTokens.lookup token = some () →
        untransferableTokens.lookup token = some ()) :
      Effect c (.call signer call) { c with
        objects := { c.objects with metadata, untransferableTokens, deriveRefPods } }
  | issue {signer : Address} {call : Object.Call} {refs : References}
      (hsrc : c.callSource signer call = none) (hissue : Issue c refs) :
      Effect c (.call signer call) { c with refs }
  | delete {signer a : Address} {core : ObjectCore} (href : a ∈ c.refs.deleteRefs)
      (hcore : c.objects.cores.lookup a = some core) :
      Effect c (.call signer (.delete a)) { c with objects := { c.objects with
        cores := c.objects.cores.erase a, untransferable := c.objects.untransferable.erase a } }
  | transfer {signer a recipient : Address} {core : ObjectCore}
      (hverify : verifyUngatedAndDescendant host c.objects signer a = .ok ())
      (hcore : c.objects.cores.lookup a = some core) :
      Effect c (.call signer (.transfer a recipient))
        { c with objects := handOver c.objects a core recipient }
  | transferWithRef {signer recipient : Address} {ref : LinearTransferRef} {core : ObjectCore}
      (href : ref ∈ c.refs.linearTransferRefs)
      (hmark : c.objects.untransferable.lookup ref.self = none)
      (hcore : c.objects.cores.lookup ref.self = some core) (howner : core.owner = ref.owner) :
      Effect c (.call signer (.transferWithRef ref recipient)) { c with objects := { c.objects with
        tombStones := c.objects.tombStones.erase ref.self
        cores := c.objects.cores.insert ref.self { core with owner := recipient }
        events := c.objects.events ++ [⟨ref.self, core.owner, recipient⟩] } }
  | burn {signer a : Address} {core : ObjectCore} (hcore : c.objects.cores.lookup a = some core)
      (howner : core.owner = signer) (htomb : c.objects.tombStones.lookup a = none) :
      Effect c (.call signer (.burn a))
        ⟨handOver { c.objects with tombStones := c.objects.tombStones.insert a signer } a core
          BURN_ADDRESS, c.refs⟩
  | unburn {signer a : Address} {core : ObjectCore}
      (htomb : c.objects.tombStones.lookup a = some signer)
      (hcore : c.objects.cores.lookup a = some core) :
      Effect c (.call signer (.unburn a))
        ⟨handOver { c.objects with tombStones := c.objects.tombStones.erase a } a core signer,
          c.refs⟩
  | endTransaction :
      Effect c .endTransaction { c with
        refs := { c.refs with constructorRefs := ∅, linearTransferRefs := ∅ } }

variable {host}

/-! ## Every call has its effect -/

/-- A counter that takes its next number. -/
theorem grows_of_next {accounts : Table Address UInt64} {addr : Address} {num next : UInt64}
    (hnum : accounts.lookup addr = some num) (hnext : next.toNat = num.toNat + 1) (a : Address)
    (n : UInt64) (ha : accounts.lookup a = some n) :
    ∃ n', (Finmap.insert addr next accounts).lookup a = some n' ∧ n ≤ n' := by
  rw [Table.lookup_insert_ite]
  split
  · next h =>
    subst h
    obtain rfl := Option.some.inj (hnum.symm.trans ha)
    refine ⟨next, rfl, ?_⟩
    rw [UInt64.le_iff_toNat_le, hnext]
    exact Nat.le_succ _
  · exact ⟨n, ha, UInt64.le_refl _⟩

/-- What a new store changes: nothing of the object, unless its token is untransferable. -/
theorem createStore_cases {o o' : Objects} {ref : ConstructorRef} {token : Address}
    (h : createStore host o ref token = .ok o') : ∃ core, o.cores.lookup ref.self = some core ∧
      o.stores.lookup ref.self = none ∧
      (o.untransferableTokens.lookup token = none ∧
          o' = { o with stores := o.stores.insert ref.self token } ∨
        (∃ u, o.untransferableTokens.lookup token = some u) ∧ o' = { o with
          cores := o.cores.insert ref.self { core with allowUngatedTransfer := false }
          untransferable := o.untransferable.insert ref.self ()
          stores := o.stores.insert ref.self token }) := by
  simp only [createStore, Checked.bind_eq_ok, Table.add_eq_ok, Checked.require_eq_ok,
    exists_const, Checked.pure_eq_ok] at h
  obtain ⟨_, _, _, ⟨hnone, rfl⟩, o₁, hmark, hobject, rfl⟩ := h
  split at hmark
  · next htoken =>
    simp only [setUntransferable, Checked.bind_eq_ok, Table.borrow_eq_ok, Table.add_eq_ok,
      Checked.pure_eq_ok] at hmark
    obtain ⟨core, hcore, _, ⟨_, rfl⟩, rfl⟩ := hmark
    exact ⟨core, hcore, hnone, .inr ⟨Table.contains_eq_true.mp htoken, rfl⟩⟩
  · next htoken =>
    cases hmark
    obtain ⟨core, hcore⟩ := Table.contains_eq_true.mp hobject
    exact ⟨core, hcore, hnone,
      .inl ⟨Table.contains_eq_false.mp (Bool.eq_false_iff.mpr htoken), rfl⟩⟩

theorem createPrimaryStore_eq {o o' : Objects} {owner token : Address}
    (h : createPrimaryStore host o owner token = .ok o') :
    o.cores.lookup (primaryStoreAddress host owner token) = none ∧
      o' = withPrimaryStore host o owner token := by
  unfold createPrimaryStore at h
  simp only [Checked.bind_eq_ok, createUserDerivedObject, createObjectInternal_eq_ok] at h
  obtain ⟨_, _, _, _, _, ⟨hnew, rfl⟩, transferRef, hgenerate, o₁, hdisable, hstore⟩ := h
  simp only [generateTransferRef, Checked.bind_eq_ok, Checked.pure_eq_ok,
    exists_and_right] at hgenerate
  obtain ⟨_, rfl⟩ := hgenerate
  simp only [disableUngatedTransfer, Checked.bind_eq_ok, Table.borrow_eq_ok, Finmap.lookup_insert,
    Option.some.injEq, Checked.pure_eq_ok, exists_eq_left'] at hdisable
  subst hdisable
  refine ⟨hnew, ?_⟩
  obtain ⟨core, hcore, _, ⟨htoken, rfl⟩ | ⟨⟨_, htoken⟩, rfl⟩⟩ := createStore_cases hstore
  · simp [withPrimaryStore, primaryStoreAddress, Table.contains, htoken]
  · rw [Finmap.lookup_insert] at hcore
    cases hcore
    simp [withPrimaryStore, primaryStoreAddress, Table.contains, htoken]

/-- **Every call has its effect.** -/
theorem execCall_effect {c c' : ObjectChain} {signer : Address} {call : Object.Call}
    (h : execCall host c signer call = .ok c') : Effect host c (.call signer call) c' := by
  cases call with
  | createNamedObject seed =>
    simp only [execCall, createNamedObject, Checked.bind_eq_ok, createObjectInternal_eq_ok,
      Checked.pure_eq_ok] at h
    obtain ⟨_, ⟨hnew, rfl⟩, rfl⟩ := h
    exact .create signer rfl (.seed signer seed) hnew
  | createObject owner =>
    simp only [execCall, createObject, generateAuidAddress, Checked.bind_eq_ok,
      createObjectInternal_eq_ok, Checked.pure_eq_ok] at h
    obtain ⟨_, ⟨hnew, rfl⟩, rfl⟩ := h
    exact .create (o := { c.objects with auids := c.objects.auids + 1 }) owner rfl (.auid true) hnew
  | createStickyObject owner =>
    simp only [execCall, createStickyObject, generateAuidAddress, Checked.bind_eq_ok,
      createObjectInternal_eq_ok, Checked.pure_eq_ok] at h
    obtain ⟨_, ⟨hnew, rfl⟩, rfl⟩ := h
    exact .create (o := { c.objects with auids := c.objects.auids + 1 }) owner rfl (.auid false)
      hnew
  | createObjectFromAccount =>
    simp only [execCall, createObjectFromAccount, Checked.bind_eq_ok, accountGuid_eq_ok,
      createObjectInternal_eq_ok, Checked.pure_eq_ok] at h
    obtain ⟨_, ⟨_, ⟨num, next, hnum, hnext, hmax, rfl⟩, hnew, rfl⟩, rfl⟩ := h
    refine .create signer ?_ (.account hnum hnext hmax) hnew
    show (c.objects.accounts.lookup signer).map (Source.guid signer) = _
    rw [hnum]
    rfl
  | createObjectFromObject =>
    simp only [execCall, createObjectFromObject, Checked.bind_eq_ok, createGuid_eq_ok,
      createObjectInternal_eq_ok, Checked.pure_eq_ok] at h
    obtain ⟨_, ⟨_, ⟨core, next, hcore, hnext, rfl⟩, hnew, rfl⟩, rfl⟩ := h
    refine .create signer ?_ (.object hcore hnext) hnew
    show (c.objects.cores.lookup signer).map
      (fun core => Source.guid signer core.guidCreationNum) = _
    rw [hcore]
    rfl
  | createAccount account =>
    simp only [execCall, Checked.bind_eq_ok, Table.add_eq_ok, Checked.pure_eq_ok] at h
    obtain ⟨_, ⟨hnone, rfl⟩, rfl⟩ := h
    refine .account rfl fun a num hnum => ⟨num, ?_, UInt64.le_refl _⟩
    rw [Finmap.lookup_insert_of_ne _ (by rintro rfl; rw [hnone] at hnum; cases hnum)]
    exact hnum
  | accountGuid =>
    simp only [execCall, Checked.bind_eq_ok, accountGuid_eq_ok, Checked.pure_eq_ok] at h
    obtain ⟨_, ⟨num, next, hnum, hnext, _, rfl⟩, rfl⟩ := h
    exact .account rfl (grows_of_next hnum hnext)
  | createGuid =>
    simp only [execCall, Checked.bind_eq_ok, createGuid_eq_ok, Checked.pure_eq_ok] at h
    obtain ⟨_, ⟨core, next, hcore, hnext, rfl⟩, rfl⟩ := h
    refine .touch rfl hcore rfl ?_ .inl
    rw [UInt64.le_iff_toNat_le, hnext]
    exact Nat.le_succ _
  | generateDeleteRef ref =>
    simp only [execCall, held, generateDeleteRef, Checked.bind_eq_ok, Checked.require_eq_ok,
      exists_const, Checked.pure_eq_ok] at h
    obtain ⟨href, _, ⟨hdelete, rfl⟩, rfl⟩ := h
    exact .issue rfl (.delete href hdelete)
  | generateExtendRef ref =>
    simp only [execCall, held, Checked.bind_eq_ok, Checked.require_eq_ok, exists_const,
      Checked.pure_eq_ok] at h
    obtain ⟨href, rfl⟩ := h
    exact .issue rfl (.extend href)
  | generateTransferRef ref =>
    simp only [execCall, held, generateTransferRef, Checked.bind_eq_ok, Checked.require_eq_ok,
      exists_const, Checked.pure_eq_ok] at h
    obtain ⟨href, _, ⟨hmark, rfl⟩, rfl⟩ := h
    exact .issue rfl (.transfer href (Table.contains_eq_false.mp hmark))
  | setUntransferable ref =>
    simp only [execCall, held, setUntransferable, Checked.bind_eq_ok, Checked.require_eq_ok,
      exists_const, Table.borrow_eq_ok, Table.add_eq_ok, Checked.pure_eq_ok] at h
    obtain ⟨href, _, ⟨core, hcore, _, ⟨_, rfl⟩, rfl⟩, rfl⟩ := h
    exact .pin rfl href hcore (.inl rfl)
  | addFungibility ref =>
    simp only [execCall, held, addFungibility, Checked.bind_eq_ok, Checked.require_eq_ok,
      exists_const, Table.add_eq_ok, Checked.pure_eq_ok] at h
    obtain ⟨_, _, ⟨_, _, ⟨_, rfl⟩, rfl⟩, rfl⟩ := h
    exact .token rfl fun _ => id
  | createPrimaryStoreEnabledFungibleAsset ref =>
    simp only [execCall, held, createPrimaryStoreEnabledFungibleAsset, addFungibility,
      Checked.bind_eq_ok, Checked.require_eq_ok, exists_const, Table.add_eq_ok,
      Checked.pure_eq_ok] at h
    obtain ⟨_, _, ⟨_, ⟨_, _, ⟨_, rfl⟩, rfl⟩, _, ⟨_, rfl⟩, rfl⟩, rfl⟩ := h
    exact .token rfl fun _ => id
  | setTokenUntransferable ref =>
    simp only [execCall, held, setTokenUntransferable, Checked.bind_eq_ok, Checked.require_eq_ok,
      exists_const, Table.add_eq_ok, Checked.pure_eq_ok] at h
    obtain ⟨_, _, ⟨_, _, ⟨hnone, rfl⟩, rfl⟩, rfl⟩ := h
    refine .token rfl fun token htoken => ?_
    rw [Finmap.lookup_insert_of_ne _ (by rintro rfl; rw [hnone] at htoken; cases htoken)]
    exact htoken
  | createStore ref token =>
    simp only [execCall, held, Checked.bind_eq_ok, Checked.require_eq_ok, exists_const,
      Checked.pure_eq_ok] at h
    obtain ⟨href, o, hstore, rfl⟩ := h
    obtain ⟨core, hcore, hnone, ⟨htoken, rfl⟩ | ⟨_, rfl⟩⟩ := createStore_cases hstore
    · exact .store rfl href hcore htoken
    · exact .pin rfl href hcore (.inr ⟨token, hnone, rfl⟩)
  | removeStore a =>
    simp only [execCall, held, removeStore, Checked.bind_eq_ok, Checked.require_eq_ok,
      exists_const, Table.remove_eq_ok, Checked.pure_eq_ok] at h
    obtain ⟨href, _, ⟨_, _, _, ⟨_, rfl⟩, rfl⟩, rfl⟩ := h
    exact .unstore href
  | delete a =>
    simp only [execCall, held, Object.delete, Checked.bind_eq_ok, Checked.require_eq_ok,
      exists_const, Table.remove_eq_ok, Checked.pure_eq_ok] at h
    obtain ⟨href, _, ⟨_, ⟨hcontains, rfl⟩, rfl⟩, rfl⟩ := h
    obtain ⟨core, hcore⟩ := Table.contains_eq_true.mp hcontains
    exact .delete href hcore
  | disableUngatedTransfer a =>
    simp only [execCall, held, disableUngatedTransfer, Checked.bind_eq_ok, Checked.require_eq_ok,
      exists_const, Table.borrow_eq_ok, Checked.pure_eq_ok] at h
    obtain ⟨_, _, ⟨core, hcore, rfl⟩, rfl⟩ := h
    exact .touch rfl hcore rfl (UInt64.le_refl _) fun hgate => absurd hgate Bool.false_ne_true
  | enableUngatedTransfer a =>
    simp only [execCall, held, enableUngatedTransfer, Checked.bind_eq_ok, Checked.require_eq_ok,
      exists_const, Table.borrow_eq_ok, Checked.pure_eq_ok] at h
    obtain ⟨href, _, ⟨hmark, core, hcore, rfl⟩, rfl⟩ := h
    exact .touch rfl hcore rfl (UInt64.le_refl _) fun _ =>
      .inr ⟨href, Table.contains_eq_false.mp hmark⟩
  | generateLinearTransferRef a =>
    simp only [execCall, held, generateLinearTransferRef, Object.owner, Checked.bind_eq_ok,
      Checked.require_eq_ok, exists_const, Table.borrow_eq_ok, Checked.pure_eq_ok] at h
    obtain ⟨href, _, ⟨hmark, _, ⟨_, core, hcore, rfl⟩, rfl⟩, rfl⟩ := h
    exact .issue rfl (.linear href (Table.contains_eq_false.mp hmark) hcore)
  | transferWithRef ref recipient =>
    simp only [execCall, held, transferWithRef, Checked.bind_eq_ok, Checked.require_eq_ok,
      exists_const, Table.borrow_eq_ok, Checked.pure_eq_ok] at h
    obtain ⟨href, _, ⟨hmark, core, hcore, howner, rfl⟩, rfl⟩ := h
    exact .transferWithRef href (Table.contains_eq_false.mp hmark) hcore howner
  | transfer a recipient =>
    simp only [execCall, transferRaw, Checked.bind_eq_ok, transferRawInner_eq_ok,
      Checked.pure_eq_ok] at h
    obtain ⟨_, ⟨_, hverify, core, hcore, rfl⟩, rfl⟩ := h
    exact .transfer hverify hcore
  | burn a =>
    simp only [execCall, burn, isOwner, Object.owner, Checked.bind_eq_ok, Checked.require_eq_ok,
      exists_const, Table.borrow_eq_ok, Table.add_eq_ok, transferRawInner_eq_ok,
      Checked.pure_eq_ok] at h
    obtain ⟨_, ⟨_, ⟨_, ⟨_, core, hcore, rfl⟩, rfl⟩, howner, _, ⟨htomb, rfl⟩, core', hcore', rfl⟩,
      rfl⟩ := h
    obtain rfl := Option.some.inj (hcore.symm.trans hcore')
    exact .burn hcore (of_decide_eq_true howner) htomb
  | unburn a =>
    simp only [execCall, unburn, Checked.bind_eq_ok, Checked.require_eq_ok, exists_const,
      Table.borrow_eq_ok, transferRawInner_eq_ok, Checked.pure_eq_ok] at h
    obtain ⟨_, ⟨_, htomb, rfl, core, hcore, rfl⟩, rfl⟩ := h
    exact .unburn htomb hcore
  | ensurePrimaryStoreExists owner token =>
    simp only [execCall, Checked.bind_eq_ok, Checked.pure_eq_ok] at h
    obtain ⟨⟨store, o⟩, hensure, rfl⟩ := h
    simp only [ensurePrimaryStoreExists] at hensure
    split at hensure
    · simp only [Checked.bind_eq_ok, Checked.require_eq_ok, exists_const, Checked.pure_eq_ok,
        Prod.mk.injEq] at hensure
      obtain ⟨hcontains, _, rfl⟩ := hensure
      obtain ⟨core, hcore⟩ := Table.contains_eq_true.mp hcontains
      exact .primaryStoreExists hcore
    · simp only [Checked.bind_eq_ok, Checked.pure_eq_ok, Prod.mk.injEq] at hensure
      obtain ⟨_, hcreate, _, rfl⟩ := hensure
      obtain ⟨hnew, rfl⟩ := createPrimaryStore_eq hcreate
      exact .primaryStore hnew

theorem exec_effect {c c' : ObjectChain} {act : Act} (h : exec host c act = .ok c') :
    Effect host c act c' := by
  cases act with
  | call signer call =>
    simp only [exec, Checked.bind_eq_ok, Checked.require_eq_ok, exists_const] at h
    exact execCall_effect h.2
  | endTransaction =>
    cases h
    exact .endTransaction

theorem canSign_of_exec {c c' : ObjectChain} {signer : Address} {call : Object.Call}
    (h : exec host c (.call signer call) = .ok c') : c.CanSign signer := by
  simp only [exec, Checked.bind_eq_ok, Checked.require_eq_ok, exists_const] at h
  exact h.1

end ObjectChain

end Pictor
