import Pictor.Framework.ConcurrentBalance

/-!
# One balance per store

A store that has a `ConcurrentFungibleBalance` has nothing in its `FungibleStore`. So the two
resources are one balance, and every run of deposits, withdrawals, freezes, upgrades and removals
is the run of that balance. Only an overflow has a code of its own in an aggregator.
-/

namespace Pictor

namespace StoreResources

open FungibleAsset

variable {r r' : StoreResources} {l l' : Stores}

/-- The two resources under a store, and the one they stand for. -/
inductive Row : Option FungibleStore → Option UInt64 → Option FungibleStore → Prop
  | none : Row none none none
  | plain (store : FungibleStore) : Row (some store) none (some store)
  | concurrent (frozen : Bool) (balance : UInt64) :
      Row (some ⟨0, frozen⟩) (some balance) (some ⟨balance, frozen⟩)

def Represents (r : StoreResources) (l : Stores) : Prop :=
  ∀ s, Row (r.stores.lookup s) (r.concurrent.lookup s) (l.lookup s)

theorem represents_empty : Represents ⟨∅, ∅⟩ ∅ := fun _ => .none

/-- A store by what is under it. -/
theorem Represents.cases (h : Represents r l) (s : Store) :
    (r.stores.lookup s = none ∧ r.concurrent.lookup s = none ∧ l.lookup s = none) ∨
      (∃ store, r.stores.lookup s = some store ∧ r.concurrent.lookup s = none ∧
        l.lookup s = some store) ∨
      ∃ frozen balance, r.stores.lookup s = some ⟨0, frozen⟩ ∧
        r.concurrent.lookup s = some balance ∧ l.lookup s = some ⟨balance, frozen⟩ := by
  have hrow := h s
  generalize r.stores.lookup s = x, r.concurrent.lookup s = y, l.lookup s = z at hrow ⊢
  cases hrow with
  | none => exact .inl ⟨rfl, rfl, rfl⟩
  | plain store => exact .inr (.inl ⟨store, rfl, rfl, rfl⟩)
  | concurrent frozen balance => exact .inr (.inr ⟨frozen, balance, rfl, rfl, rfl⟩)

/-- A change under one store. -/
theorem Represents.change (h : Represents r l) (s : Store)
    (hrow : Row (r'.stores.lookup s) (r'.concurrent.lookup s) (l'.lookup s))
    (hstores : ∀ s', s' ≠ s → r'.stores.lookup s' = r.stores.lookup s')
    (hconcurrent : ∀ s', s' ≠ s → r'.concurrent.lookup s' = r.concurrent.lookup s')
    (hmerged : ∀ s', s' ≠ s → l'.lookup s' = l.lookup s') : Represents r' l' := by
  intro s'
  by_cases hs : s' = s
  · rw [hs]
    exact hrow
  · rw [hstores s' hs, hconcurrent s' hs, hmerged s' hs]
    exact h s'

theorem Represents.balance_eq (h : Represents r l) (s : Store) :
    r.balance s = FungibleAsset.balance l s := by
  unfold StoreResources.balance FungibleAsset.balance
  rcases h.cases s with ⟨hs, hc, hl⟩ | ⟨store, hs, hc, hl⟩ | ⟨frozen, balance, hs, hc, hl⟩
  · simp [hs, hl]
  · simp [hs, hl, Concurrent, Table.contains, hc]
  · simp [hs, hl, Concurrent, Table.contains, hc]

theorem Represents.isFrozen_eq (h : Represents r l) (s : Store) :
    r.isFrozen s = isFrozenMerged l s := by
  unfold isFrozen isFrozenMerged
  rcases h.cases s with ⟨hs, _, hl⟩ | ⟨_, hs, _, hl⟩ | ⟨_, _, hs, _, hl⟩
  · rw [hs, hl]
  · rw [hs, hl]
  · rw [hs, hl]
    rfl

theorem Represents.contains_eq (h : Represents r l) (s : Store) :
    r.stores.contains s = l.contains s := by
  unfold Table.contains
  rcases h.cases s with ⟨hs, _, hl⟩ | ⟨_, hs, _, hl⟩ | ⟨_, _, hs, _, hl⟩
  · rw [hs, hl]
  · rw [hs, hl]
  · rw [hs, hl]
    rfl

/-- The resource that counts. -/
theorem concurrent_of_lookup {s : Store} {frozen : Bool} {balance : UInt64}
    (hc : r.concurrent.lookup s = some balance) : r.Concurrent s ⟨0, frozen⟩ :=
  ⟨rfl, Table.contains_eq_true.mpr ⟨_, hc⟩⟩

theorem not_concurrent_of_lookup {s : Store} {store : FungibleStore}
    (hc : r.concurrent.lookup s = none) : ¬ r.Concurrent s store := by
  rintro ⟨_, hcontains⟩
  rw [Table.contains_eq_false.mpr hc] at hcontains
  cases hcontains

theorem Represents.set_plain (h : Represents r l) {s : Store} (store : FungibleStore)
    (hc : r.concurrent.lookup s = none) :
    Represents { r with stores := r.stores.insert s store } (l.insert s store) := by
  refine h.change s ?_ (fun s' hs => Finmap.lookup_insert_of_ne _ hs) (fun _ _ => rfl)
    fun s' hs => Finmap.lookup_insert_of_ne _ hs
  rw [Finmap.lookup_insert, Finmap.lookup_insert]
  show Row _ (r.concurrent.lookup s) _
  rw [hc]
  exact .plain store

theorem Represents.set_concurrent (h : Represents r l) {s : Store} {frozen : Bool}
    (balance : UInt64) (hs : r.stores.lookup s = some ⟨0, frozen⟩) :
    Represents { r with concurrent := r.concurrent.insert s balance }
      (l.insert s ⟨balance, frozen⟩) := by
  refine h.change s ?_ (fun _ _ => rfl) (fun s' hs => Finmap.lookup_insert_of_ne _ hs)
    fun s' hs => Finmap.lookup_insert_of_ne _ hs
  rw [Finmap.lookup_insert, Finmap.lookup_insert]
  show Row (r.stores.lookup s) _ _
  rw [hs]
  exact .concurrent frozen balance

/-! ## One step -/

theorem createStore_agree (h : Represents r l) (s : Store) (concurrent : Bool) :
    Checked.Agree Represents (createStore r s concurrent) (FungibleAsset.createStore l s) := by
  unfold createStore FungibleAsset.createStore Table.add
  rw [h.contains_eq]
  split
  · exact .error _
  · next hnone =>
    rcases h.cases s with ⟨hs, hc, hl⟩ | ⟨_, hs, _⟩ | ⟨_, _, hs, _⟩
    · have hplain := h.set_plain { balance := 0, frozen := false } hc
      cases concurrent with
      | false => exact .ok hplain
      | true =>
        rw [Checked.ok_bind, if_pos rfl, if_neg (by simp [Table.contains, hc]), Checked.ok_bind]
        refine .ok ?_
        have hset := hplain.set_concurrent 0 (Finmap.lookup_insert _)
        rwa [Table.insert_of_lookup (Finmap.lookup_insert _)] at hset
    · exact absurd (h.contains_eq s ▸ Table.contains_eq_true.mpr ⟨_, hs⟩) hnone
    · exact absurd (h.contains_eq s ▸ Table.contains_eq_true.mpr ⟨_, hs⟩) hnone

theorem withdrawInternal_agree (h : Represents r l) (s : Store) (amount : UInt64) :
    Checked.Agree (fun x y => x.1 = y.1 ∧ Represents x.2 y.2) (withdrawInternal r s amount)
      (FungibleAsset.withdrawInternal l s amount) := by
  unfold withdrawInternal FungibleAsset.withdrawInternal
  rcases h.cases s with ⟨hs, hc, hl⟩ | ⟨store, hs, hc, hl⟩ | ⟨frozen, balance, hs, hc, hl⟩
  · rw [Table.borrow_eq_error.mpr ⟨hs, rfl⟩, Table.borrow_eq_error.mpr ⟨hl, rfl⟩]
    exact .error _
  · rw [Table.borrow_eq_ok.mpr hs, Table.borrow_eq_ok.mpr hl, Checked.ok_bind, Checked.ok_bind]
    split
    · exact .ok ⟨rfl, h⟩
    · rw [if_neg (not_concurrent_of_lookup hc)]
      refine .bind_same fun _ _ => .bind_same fun balance _ => ?_
      exact .ok ⟨rfl, h.set_plain _ hc⟩
  · rw [Table.borrow_eq_ok.mpr hs, Table.borrow_eq_ok.mpr hl, Checked.ok_bind, Checked.ok_bind]
    split
    · exact .ok ⟨rfl, h⟩
    · rw [if_pos (concurrent_of_lookup hc), Table.borrow_eq_ok.mpr hc, Checked.ok_bind]
      refine .bind_same fun _ hle => ?_
      have hsub : U64.sub balance amount = .ok (balance - amount) :=
        if_pos (UInt64.le_iff_toNat_le.mp (Checked.require_eq_ok.mp hle))
      rw [hsub]
      exact .ok ⟨rfl, h.set_concurrent _ hs⟩

theorem depositInternal_agree (h : Represents r l) (s : Store) (fa : FungibleAsset) :
    Checked.Agree Represents (depositInternal .arithmeticError r s fa)
      (FungibleAsset.depositInternal l s fa) := by
  unfold depositInternal FungibleAsset.depositInternal
  split
  · exact .ok h
  · rcases h.cases s with ⟨hs, hc, hl⟩ | ⟨store, hs, hc, hl⟩ | ⟨frozen, balance, hs, hc, hl⟩
    · rw [Table.borrow_eq_error.mpr ⟨hs, rfl⟩, Table.borrow_eq_error.mpr ⟨hl, rfl⟩]
      exact .error _
    · rw [Table.borrow_eq_ok.mpr hs, Table.borrow_eq_ok.mpr hl, Checked.ok_bind, Checked.ok_bind,
        if_neg (not_concurrent_of_lookup hc)]
      refine .bind_same fun _ _ => .bind_same fun balance _ => ?_
      exact .ok (h.set_plain _ hc)
    · rw [Table.borrow_eq_ok.mpr hs, Table.borrow_eq_ok.mpr hl, Checked.ok_bind, Checked.ok_bind,
        if_pos (concurrent_of_lookup hc), Table.borrow_eq_ok.mpr hc, Checked.ok_bind]
      refine .bind_same fun _ _ => .bind_same fun sum _ => ?_
      exact .ok (h.set_concurrent _ hs)

theorem setFrozenFlag_agree (h : Represents r l) (ref : Token) (s : Store) (frozen : Bool) :
    Checked.Agree Represents (setFrozenFlag r ref s frozen)
      (setFrozenFlagMerged l ref s frozen) := by
  unfold setFrozenFlag setFrozenFlagMerged
  rcases h.cases s with ⟨hs, hc, hl⟩ | ⟨store, hs, hc, hl⟩ | ⟨frozen', balance, hs, hc, hl⟩
  · rw [Table.borrow_eq_error.mpr ⟨hs, rfl⟩, Table.borrow_eq_error.mpr ⟨hl, rfl⟩]
    exact .error _
  · rw [Table.borrow_eq_ok.mpr hs, Table.borrow_eq_ok.mpr hl, Checked.ok_bind, Checked.ok_bind]
    refine .bind_same fun _ _ => ?_
    exact .ok (h.set_plain _ hc)
  · rw [Table.borrow_eq_ok.mpr hs, Table.borrow_eq_ok.mpr hl, Checked.ok_bind, Checked.ok_bind]
    refine .bind_same fun _ _ => .ok ?_
    refine h.change s ?_ (fun s' hs => Finmap.lookup_insert_of_ne _ hs) (fun _ _ => rfl)
      fun s' hs => Finmap.lookup_insert_of_ne _ hs
    rw [Finmap.lookup_insert, Finmap.lookup_insert]
    show Row _ (r.concurrent.lookup s) _
    rw [hc]
    exact .concurrent frozen balance

/-- **An upgrade changes nothing** but where the balance is. -/
theorem upgradeStoreToConcurrent_agree (h : Represents r l) (owns : Bool) (s : Store)
    (allowed : Bool) : Checked.Agree Represents (upgradeStoreToConcurrent r owns s allowed)
      (upgradeMerged l owns s allowed) := by
  unfold upgradeStoreToConcurrent upgradeMerged
  rw [h.isFrozen_eq]
  refine .bind_same fun _ _ => .bind_same fun _ _ => .bind_same fun _ _ => ?_
  unfold ensureStoreUpgradedToConcurrentInternal
  rcases h.cases s with ⟨hs, hc, hl⟩ | ⟨store, hs, hc, hl⟩ | ⟨frozen', balance, hs, hc, hl⟩
  · rw [if_neg (by simp [Table.contains, hc]), Table.borrow_eq_error.mpr ⟨hs, rfl⟩,
      Table.borrow_eq_error.mpr ⟨hl, rfl⟩]
    exact .error _
  · rw [if_neg (by simp [Table.contains, hc]), Table.borrow_eq_ok.mpr hs, Table.borrow_eq_ok.mpr hl]
    refine .ok (h.change s ?_ (fun s' hs => Finmap.lookup_insert_of_ne _ hs)
      (fun s' hs => Finmap.lookup_insert_of_ne _ hs) fun _ _ => rfl)
    rw [Finmap.lookup_insert, Finmap.lookup_insert, hl]
    exact .concurrent store.frozen store.balance
  · rw [if_pos (Table.contains_eq_true.mpr ⟨_, hc⟩), Table.borrow_eq_ok.mpr hl]
    exact .ok h

theorem removeStore_agree (h : Represents r l) (host : Object.Host) (s : Store)
    (isObject : Bool) : Checked.Agree Represents (removeStore host r s isObject)
      (removeStoreMerged host l s isObject) := by
  unfold removeStore removeStoreMerged
  refine .bind_same fun _ _ => ?_
  rcases h.cases s with ⟨hs, hc, hl⟩ | ⟨store, hs, hc, hl⟩ | ⟨frozen', balance, hs, hc, hl⟩
  · rw [Table.borrow_eq_error.mpr ⟨hs, rfl⟩, Table.borrow_eq_error.mpr ⟨hl, rfl⟩]
    exact .error _
  · rw [Table.borrow_eq_ok.mpr hs, Table.borrow_eq_ok.mpr hl, Checked.ok_bind, Checked.ok_bind]
    refine .bind_same fun _ _ => ?_
    rw [if_neg (by simp [Table.contains, hc])]
    refine .ok (h.change s ?_ (fun s' hs => Finmap.lookup_erase_ne hs) (fun _ _ => rfl)
      fun s' hs => Finmap.lookup_erase_ne hs)
    rw [Finmap.lookup_erase, Finmap.lookup_erase]
    show Row _ (r.concurrent.lookup s) _
    rw [hc]
    exact .none
  · rw [Table.borrow_eq_ok.mpr hs, Table.borrow_eq_ok.mpr hl, Checked.ok_bind, Checked.ok_bind,
      Checked.require_of rfl, Checked.ok_bind, if_pos (Table.contains_eq_true.mpr ⟨_, hc⟩),
      Table.borrow_eq_ok.mpr hc, Checked.ok_bind]
    refine .bind_same fun _ _ => ?_
    refine .ok (h.change s ?_ (fun s' hs => Finmap.lookup_erase_ne hs)
      (fun s' hs => Finmap.lookup_erase_ne hs) fun s' hs => Finmap.lookup_erase_ne hs)
    rw [Finmap.lookup_erase, Finmap.lookup_erase, Finmap.lookup_erase]
    exact .none

theorem exec_agree (h : Represents r l) (host : Object.Host) (act : Act) :
    Checked.Agree Represents (exec host .arithmeticError r act) (execMerged host l act) := by
  cases act with
  | create s concurrent => exact createStore_agree h s concurrent
  | withdraw s amount => exact (withdrawInternal_agree h s amount).bind fun _ _ hx => .ok hx.2
  | deposit s fa => exact depositInternal_agree h s fa
  | setFrozenFlag ref s frozen => exact setFrozenFlag_agree h ref s frozen
  | upgrade owns s allowed => exact upgradeStoreToConcurrent_agree h owns s allowed
  | remove s isObject => exact removeStore_agree h host s isObject

/-- An aggregator's overflow is an overflow. -/
theorem depositInternal_recoded (overflow : Abort) (r : StoreResources) (s : Store)
    (fa : FungibleAsset) :
    depositInternal overflow r s fa = depositInternal .arithmeticError r s fa ∨
      depositInternal overflow r s fa = .error overflow ∧
        depositInternal .arithmeticError r s fa = .error .arithmeticError := by
  unfold depositInternal
  by_cases hamount : fa.amount = 0
  · exact .inl (by rw [if_pos hamount, if_pos hamount])
  · rw [if_neg hamount, if_neg hamount]
    cases r.stores.borrow EFUNGIBLE_STORE_EXISTENCE s with
    | error e => exact .inl rfl
    | ok store =>
      cases Checked.require (fa.metadata = s.metadata) EFUNGIBLE_ASSET_AND_STORE_MISMATCH with
      | error e => exact .inl rfl
      | ok u =>
        simp only [Checked.ok_bind]
        by_cases hconcurrent : r.Concurrent s store
        · rw [if_pos hconcurrent, if_pos hconcurrent]
          cases r.concurrent.borrow Abort.missingData s with
          | error e => exact .inl rfl
          | ok balance =>
            simp only [Checked.ok_bind]
            unfold Checked.add
            by_cases hfits : balance.toNat + fa.amount.toNat < 2 ^ 64
            · rw [if_pos hfits, if_pos hfits]
              exact .inl rfl
            · rw [if_neg hfits, if_neg hfits]
              exact .inr ⟨rfl, rfl⟩
        · exact .inl (by rw [if_neg hconcurrent, if_neg hconcurrent])

theorem exec_recoded (host : Object.Host) (overflow : Abort) (r : StoreResources) (act : Act) :
    exec host overflow r act = exec host .arithmeticError r act ∨
      exec host overflow r act = .error overflow ∧
        exec host .arithmeticError r act = .error .arithmeticError := by
  cases act with
  | deposit s fa => exact depositInternal_recoded overflow r s fa
  | _ => exact .inl rfl

/-! ## Runs -/

/-- **One balance per store.** Over every run, from no store on, the two resources stand for one
balance in each store, `balance` reads it, and an action is refused exactly when it is refused by
the one balance, with the same abort unless an aggregator overflows. -/
theorem one_balance (host : Object.Host) (overflow : Abort) (as : List Act) :
    Represents (Transactions.run (exec host overflow) ⟨∅, ∅⟩ as)
        (Transactions.run (execMerged host) ∅ as) ∧
      (∀ s, (Transactions.run (exec host overflow) ⟨∅, ∅⟩ as).balance s =
        FungibleAsset.balance (Transactions.run (execMerged host) ∅ as) s) ∧
      List.Forall₂ (fun x y => x = y ∨ x = some overflow ∧ y = some .arithmeticError)
        (Transactions.aborts (exec host overflow) ⟨∅, ∅⟩ as)
        (Transactions.aborts (execMerged host) ∅ as) := by
  obtain ⟨hrun, haborts⟩ := Transactions.run_recoded (exec_recoded host overflow) ⟨∅, ∅⟩ as
  obtain ⟨hrep, heq⟩ := Transactions.run_agree (C := fun _ => True)
    (fun _ _ act _ h => exec_agree h host act) represents_empty as (fun _ _ => trivial)
  rw [hrun, ← heq]
  exact ⟨hrep, hrep.balance_eq, haborts⟩

end StoreResources

end Pictor
