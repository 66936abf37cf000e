import Mathlib.Algebra.BigOperators.Group.Finset.Piecewise
import Mathlib.Algebra.BigOperators.Ring.Finset
import Mathlib.Algebra.Order.BigOperators.Group.Finset
import Mathlib.Data.Finset.Dedup

/-!
# Rounding down, term by term or once

Dividing a sum by `d` and rounding down gives at least what one gets by dividing and rounding down
each term. Everything about the difference follows from one identity, `sum_div`: it is the sum of
the terms' remainders, divided by `d`.

The second half groups the terms of a list by a key. Rounding once for each group lies between
rounding each term and rounding the whole, and each refinement costs at most one for every term or
group beyond the first.
-/

namespace Rounding

variable {ι κ : Type} {d : ℕ} {f : ι → ℕ}

/-- Divide each term. -/
def floors (d : ℕ) (f : ι → ℕ) (l : List ι) : ℕ := (l.map fun i => f i / d).sum

/-- What that leaves over. -/
def remainders (d : ℕ) (f : ι → ℕ) (l : List ι) : ℕ := (l.map fun i => f i % d).sum

theorem floors_add_remainders (d : ℕ) (f : ι → ℕ) (l : List ι) :
    d * floors d f l + remainders d f l = (l.map f).sum := by
  induction l with
  | nil => rfl
  | cons i l ih =>
    have hdiv := Nat.div_add_mod (f i) d
    simp only [floors, remainders, List.map_cons, List.sum_cons, Nat.mul_add] at ih ⊢
    omega

/-- **The rounding identity.** -/
theorem sum_div (hd : 0 < d) (l : List ι) :
    (l.map f).sum / d = floors d f l + remainders d f l / d := by
  rw [← floors_add_remainders d f l, Nat.mul_add_div hd]

theorem floors_le (hd : 0 < d) (l : List ι) : floors d f l ≤ (l.map f).sum / d := by
  rw [sum_div hd]
  exact Nat.le_add_right _ _

/-- **Nothing is lost** exactly if the remainders together stay below the divisor. -/
theorem sum_div_eq_floors_iff (hd : 0 < d) (l : List ι) :
    (l.map f).sum / d = floors d f l ↔ remainders d f l < d := by
  rw [sum_div hd, Nat.add_eq_left, Nat.div_eq_zero_iff_lt hd]

theorem remainders_le (hd : 0 < d) (l : List ι) : remainders d f l ≤ (d - 1) * l.length := by
  induction l with
  | nil => exact Nat.zero_le _
  | cons i l ih =>
    have hmod := Nat.mod_lt (f i) hd
    simp only [remainders, List.map_cons, List.sum_cons, List.length_cons, Nat.mul_add,
      Nat.mul_one] at ih ⊢
    omega

/-- **The loss** is less than one for each term. -/
theorem sum_div_lt (hd : 0 < d) {l : List ι} (hl : l ≠ []) :
    (l.map f).sum / d < floors d f l + l.length := by
  have hlen : 0 < l.length := List.length_pos_iff.mpr hl
  have hrem : remainders d f l / d < l.length := by
    rw [Nat.div_lt_iff_lt_mul hd]
    have hle := remainders_le (f := f) hd l
    have hlt : (d - 1) * l.length < d * l.length := Nat.mul_lt_mul_of_pos_right (by omega) hlen
    rw [Nat.mul_comm l.length]
    exact hle.trans_lt hlt
  rw [sum_div hd]
  omega

/-! ## Over finite sets -/

theorem floors_toList (s : Finset ι) : floors d f s.toList = ∑ i ∈ s, f i / d :=
  Finset.sum_map_toList s _

theorem sum_floors_le (hd : 0 < d) (s : Finset ι) : ∑ i ∈ s, f i / d ≤ (∑ i ∈ s, f i) / d := by
  rw [← floors_toList, ← Finset.sum_map_toList s f]
  exact floors_le hd _

theorem div_sum_lt (hd : 0 < d) {s : Finset ι} (hs : s.Nonempty) :
    (∑ i ∈ s, f i) / d < ∑ i ∈ s, f i / d + s.card := by
  have hne : s.toList ≠ [] := by
    rw [ne_eq, Finset.toList_eq_nil]
    exact hs.ne_empty
  have hlt := sum_div_lt (f := f) hd hne
  rw [floors_toList, Finset.length_toList] at hlt
  rwa [← Finset.sum_map_toList s f]

/-! ## By groups -/

section Groups

variable [DecidableEq κ]

/-- The terms of a list with key `k`. -/
def group (key : ι → κ) (k : κ) (l : List ι) : List ι := l.filter fun i => key i = k

variable {key : ι → κ} {s : Finset κ} {l : List ι}

/-- **Groups partition the list**: summing over all of them is summing over the list. -/
theorem sum_groups (f : ι → ℕ) (hs : ∀ i ∈ l, key i ∈ s) :
    ∑ k ∈ s, ((group key k l).map f).sum = (l.map f).sum := by
  induction l with
  | nil => simp [group]
  | cons i l ih =>
    have hone : ∀ k, ((group key k (i :: l)).map f).sum =
        (if key i = k then f i else 0) + ((group key k l).map f).sum := by
      intro k
      unfold group
      rw [List.filter_cons]
      split
      · next hk => rw [if_pos (of_decide_eq_true hk), List.map_cons, List.sum_cons]
      · next hk => rw [if_neg (by simpa using hk), Nat.zero_add]
    rw [Finset.sum_congr rfl (fun k _ => hone k), Finset.sum_add_distrib, Finset.sum_ite_eq,
      if_pos (hs i List.mem_cons_self), ih (fun i' hi' => hs i' (List.mem_cons_of_mem _ hi')),
      List.map_cons, List.sum_cons]

theorem length_groups (hs : ∀ i ∈ l, key i ∈ s) : ∑ k ∈ s, (group key k l).length = l.length := by
  have hsum := sum_groups (fun _ => 1) hs
  simpa using hsum

/-- Rounding by groups gives at least what rounding term by term gives … -/
theorem floors_le_groups (hd : 0 < d) (hs : ∀ i ∈ l, key i ∈ s) :
    floors d f l ≤ ∑ k ∈ s, ((group key k l).map f).sum / d := by
  rw [floors, ← sum_groups (fun i => f i / d) hs]
  exact Finset.sum_le_sum fun k _ => floors_le hd _

/-- … and at most one more for each term that is not the first of its group. -/
theorem groups_le_floors (hd : 0 < d) (hs : ∀ i ∈ l, key i ∈ s)
    (hne : ∀ k ∈ s, group key k l ≠ []) :
    ∑ k ∈ s, ((group key k l).map f).sum / d + s.card ≤ floors d f l + l.length := by
  rw [Finset.card_eq_sum_ones, ← Finset.sum_add_distrib, floors,
    ← sum_groups (fun i => f i / d) hs, ← length_groups hs, ← Finset.sum_add_distrib]
  exact Finset.sum_le_sum fun k hk => Nat.succ_le_of_lt (sum_div_lt hd (hne k hk))

end Groups

end Rounding
