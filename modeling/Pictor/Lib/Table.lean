import Mathlib.Data.Finmap
import Mathlib.Algebra.BigOperators.Group.Finset.Basic
import Mathlib.Algebra.Order.BigOperators.Group.Finset
import Pictor.Lib.Checked

/-!
# Tables: finite maps with aborting access, and sums over them

A table is a finite map; two tables are equal iff every lookup agrees, so equality *is*
extensional. The operations are those a ledger program uses: `contains`, a `borrow` that aborts on
an absent key, an `add` that aborts on a present one, and a write-back (`Finmap.insert`) through a
mutable reference.

`Table.sum` totals a weight over all entries. Its one law, `sum_insert`, says what a single write
does to a total, and covers the fresh and the overwriting write at once.
-/

/-- A finite map from `K` to `V`. -/
abbrev Table (K V : Type) : Type := Finmap (fun _ : K => V)

namespace Table

variable {K V ε : Type} [DecidableEq K]

/-- Whether `k` has an entry. -/
def contains (t : Table K V) (k : K) : Bool := (t.lookup k).isSome

/-- The entry at `k`; aborts with `e` if there is none. -/
def borrow (t : Table K V) (e : ε) (k : K) : Except ε V := Checked.getOrAbort (t.lookup k) e

/-- Write a new entry; aborts with `e` if `k` already has one. -/
def add (t : Table K V) (e : ε) (k : K) (v : V) : Except ε (Table K V) :=
  if t.contains k then .error e else .ok (t.insert k v)

/-- The entry at `k`, or `v` if there is none. -/
def borrowWithDefault (t : Table K V) (k : K) (v : V) : V := (t.lookup k).getD v

/-- Take out the entry at `k`; aborts with `e` if there is none. -/
def remove (t : Table K V) (e : ε) (k : K) : Except ε (Table K V) :=
  if t.contains k then .ok (t.erase k) else .error e

theorem contains_eq_true {t : Table K V} {k : K} :
    t.contains k = true ↔ ∃ v, t.lookup k = some v := by
  simp [contains, Option.isSome_iff_exists]

theorem contains_eq_false {t : Table K V} {k : K} :
    t.contains k = false ↔ t.lookup k = none := by
  simp [contains]

theorem mem_of_lookup {t : Table K V} {k : K} {v : V} (h : t.lookup k = some v) : k ∈ t :=
  Finmap.mem_iff.mpr ⟨v, h⟩

@[simp] theorem borrow_eq_ok {t : Table K V} {e : ε} {k : K} {v : V} :
    t.borrow e k = .ok v ↔ t.lookup k = some v :=
  Checked.getOrAbort_eq_ok

@[simp] theorem add_eq_ok {t t' : Table K V} {e : ε} {k : K} {v : V} :
    t.add e k v = .ok t' ↔ t.lookup k = none ∧ t' = t.insert k v := by
  unfold add
  cases h : t.contains k with
  | true =>
    have := contains_eq_true.mp h
    simp only [if_true, reduceCtorEq, false_iff, not_and]
    obtain ⟨v', hv'⟩ := this
    intro hn
    rw [hn] at hv'
    cases hv'
  | false =>
    simp [contains_eq_false.mp h, eq_comm]

theorem borrow_eq_error {t : Table K V} {e e' : ε} {k : K} :
    t.borrow e k = .error e' ↔ t.lookup k = none ∧ e' = e :=
  Checked.getOrAbort_eq_error

theorem add_eq_error {t : Table K V} {e e' : ε} {k : K} {v : V} :
    t.add e k v = .error e' ↔ (∃ v', t.lookup k = some v') ∧ e' = e := by
  rw [← contains_eq_true]
  unfold add
  split
  · next h => simp [h, eq_comm]
  · next h => simp [h]

@[simp] theorem remove_eq_ok {t t' : Table K V} {e : ε} {k : K} :
    t.remove e k = .ok t' ↔ t.contains k = true ∧ t' = t.erase k := by
  unfold remove
  split
  · next h => simp [h, eq_comm]
  · next h => simp [h]

/-- Lookup after a write, in one equation. -/
theorem lookup_insert_ite (t : Table K V) (k k' : K) (v : V) :
    (Finmap.insert k v t).lookup k' = if k' = k then some v else t.lookup k' := by
  split
  · next h => rw [h, Finmap.lookup_insert]
  · next h => exact Finmap.lookup_insert_of_ne t h

/-- Writing back what is there changes nothing. -/
theorem insert_of_lookup {t : Table K V} {k : K} {v : V} (h : t.lookup k = some v) :
    Finmap.insert k v t = t := by
  apply Finmap.ext_lookup
  intro k'
  rw [lookup_insert_ite]
  split
  · next hk => rw [hk, h]
  · rfl

theorem lookup_erase_ite (t : Table K V) (k k' : K) :
    (Finmap.erase k t).lookup k' = if k' = k then none else t.lookup k' := by
  split
  · next h => rw [h, Finmap.lookup_erase]
  · next h => exact Finmap.lookup_erase_ne h

/-- A write to a fresh key only fills in what was absent … -/
theorem lookup_insert_of_fresh {t : Table K V} {k : K} (h : t.lookup k = none) (k' : K) (v : V) :
    (Finmap.insert k v t).lookup k' = (t.lookup k').or (if k' = k then some v else none) := by
  rw [lookup_insert_ite]
  split
  · next hk => rw [hk, h, Option.none_or]
  · rw [Option.or_none]

/-- … and filling in a key that is present changes nothing. -/
theorem lookup_or_of_present {t : Table K V} {k : K} {v' : V} (h : t.lookup k = some v') (k' : K)
    (v : V) : t.lookup k' = (t.lookup k').or (if k' = k then some v else none) := by
  split
  · next hk => rw [hk, h, Option.some_or]
  · rw [Option.or_none]

theorem mem_keys_iff {t : Table K V} {k : K} : k ∈ t.keys ↔ ∃ v, t.lookup k = some v :=
  Finmap.mem_keys.trans Finmap.mem_iff

theorem keys_insert (t : Table K V) (k : K) (v : V) :
    (Finmap.insert k v t).keys = insert k t.keys := by
  ext k'
  rw [Finmap.mem_keys, Finmap.mem_insert, Finset.mem_insert, Finmap.mem_keys]

/-! ## Totals -/

/-- The weight of one lookup: zero when the key is absent. -/
def weight (t : Table K V) (f : K → V → ℕ) (k : K) : ℕ := (t.lookup k).elim 0 (f k)

/-- The total weight of a table's entries. -/
def sum (t : Table K V) (f : K → V → ℕ) : ℕ := ∑ k ∈ t.keys, t.weight f k

theorem weight_of_lookup {t : Table K V} {f : K → V → ℕ} {k : K} {v : V}
    (h : t.lookup k = some v) : t.weight f k = f k v := by
  simp [weight, h]

theorem weight_of_notMem {t : Table K V} {f : K → V → ℕ} {k : K} (h : k ∉ t.keys) :
    t.weight f k = 0 := by
  have hn : t.lookup k = none := Finmap.lookup_eq_none.mpr (fun hk => h (Finmap.mem_keys.mpr hk))
  simp [weight, hn]

theorem weight_insert (t : Table K V) (f : K → V → ℕ) (k k' : K) (v : V) :
    weight (Finmap.insert k v t) f k' = if k' = k then f k v else t.weight f k' := by
  unfold weight
  rw [lookup_insert_ite]
  split
  · next h => rw [h]; rfl
  · rfl

@[simp] theorem sum_empty (f : K → V → ℕ) : sum (∅ : Table K V) f = 0 := by
  simp [sum]

/-- A total may be taken over any finite set of keys that covers the table's. -/
theorem sum_eq_of_subset {t : Table K V} {f : K → V → ℕ} {s : Finset K} (h : t.keys ⊆ s) :
    t.sum f = ∑ k ∈ s, t.weight f k :=
  Finset.sum_subset h (fun _ _ hk => weight_of_notMem hk)

/-- **What one write does to a total**: the old entry's weight leaves, the new one's enters. -/
theorem sum_insert (t : Table K V) (f : K → V → ℕ) (k : K) (v : V) :
    sum (Finmap.insert k v t) f + t.weight f k = t.sum f + f k v := by
  have hk : k ∈ insert k t.keys := Finset.mem_insert_self k _
  have hrest : ∑ x ∈ (insert k t.keys).erase k, weight (Finmap.insert k v t) f x =
      ∑ x ∈ (insert k t.keys).erase k, t.weight f x := by
    apply Finset.sum_congr rfl
    intro x hx
    rw [weight_insert, if_neg (Finset.ne_of_mem_erase hx)]
  have hnew : sum (Finmap.insert k v t) f =
      f k v + ∑ x ∈ (insert k t.keys).erase k, t.weight f x := by
    unfold sum
    rw [keys_insert, ← Finset.add_sum_erase _ _ hk, hrest, weight_insert, if_pos rfl]
  have hold : t.sum f = t.weight f k + ∑ x ∈ (insert k t.keys).erase k, t.weight f x := by
    rw [sum_eq_of_subset (Finset.subset_insert k t.keys), ← Finset.add_sum_erase _ _ hk]
  omega

/-- A write to a fresh key only adds. -/
theorem sum_insert_of_fresh {t : Table K V} {k : K} (h : t.lookup k = none) (f : K → V → ℕ)
    (v : V) : sum (Finmap.insert k v t) f = t.sum f + f k v := by
  have := sum_insert t f k v
  simpa [weight, h] using this

end Table
