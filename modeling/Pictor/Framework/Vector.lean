import Mathlib.Data.List.Perm.Basic
import Pictor.Framework.Basic

/-!
# More of `std::vector`

The functions `smart_table` works on its buckets with. `partition` and `swap_remove` reorder what
they leave, so they are specified up to permutation.
-/

namespace Pictor

namespace MoveVector

variable {α : Type}

/-- `any`: scan until the predicate holds. -/
def any (p : α → Bool) : List α → Bool
  | [] => false
  | x :: v => if p x then true else any p v

/-- `all`: scan until the predicate fails. -/
def all (p : α → Bool) : List α → Bool
  | [] => true
  | x :: v => if p x then all p v else false

/-- The first loop of `partition`: the index at which `pred` first fails. -/
def failsAt (pred : α → Result Bool) : List α → Result ℕ
  | [] => .ok 0
  | x :: v => do
    let holds ← pred x
    if holds then return (← failsAt pred v) + 1 else return 0

/-- The second loop: `n` elements are left to look at, from index `i` on. -/
def partitionLoop (pred : α → Result Bool) : ℕ → List α → ℕ → ℕ → Result (ℕ × List α)
  | 0, v, p, _ => .ok (p, v)
  | n + 1, v, p, i => do
    let x ← borrow v i
    let holds ← pred x
    if holds then
      let v ← swap v p i
      partitionLoop pred n v (p + 1) (i + 1)
    else
      partitionLoop pred n v p (i + 1)

/-- `partition`: the elements that meet `pred` first, and how many they are. -/
def partition (pred : α → Result Bool) (v : List α) : Result (ℕ × List α) := do
  let p ← failsAt pred v
  partitionLoop pred (v.length - (p + 1)) v p (p + 1)

/-- The loop of `trim_reverse`: `n` more elements are popped. -/
def trimLoop : ℕ → List α → List α → Result (List α × List α)
  | 0, v, result => .ok (v, result)
  | n + 1, v, result => do
    let (x, v) ← popBack v
    trimLoop n v (result ++ [x])

/-- `trim_reverse`: what is left, and the elements cut off, in reverse. -/
def trimReverse (v : List α) (newLen : ℕ) : Result (List α × List α) := do
  Checked.require (newLen ≤ v.length) EINDEX_OUT_OF_BOUNDS
  trimLoop (v.length - newLen) v []

/-- `swap_remove`: the last element takes the place of the `i`th. -/
def swapRemove (v : List α) (i : ℕ) : Result (α × List α) := do
  Checked.require (¬ v.length = 0) EINDEX_OUT_OF_BOUNDS
  let lastIdx := v.length - 1
  let v ← swap v i lastIdx
  popBack v

theorem any_eq_true {p : α → Bool} {v : List α} : any p v = true ↔ ∃ x ∈ v, p x = true := by
  induction v with
  | nil => simp [any]
  | cons x v ih =>
    unfold any
    split
    · next h => simp [h]
    · next h => simp [h, ih]

theorem all_eq_true {p : α → Bool} {v : List α} : all p v = true ↔ ∀ x ∈ v, p x = true := by
  induction v with
  | nil => simp [all]
  | cons x v ih =>
    unfold all
    split
    · next h => simp [h, ih]
    · next h => simp [h]

/-- A swap of two places, on a list split at both. -/
theorem swap_split (pre mid suf : List α) (x y : α) :
    swap (pre ++ x :: (mid ++ y :: suf)) pre.length (pre.length + 1 + mid.length) =
      .ok (pre ++ y :: (mid ++ x :: suf)) := by
  have hx : (pre ++ x :: (mid ++ y :: suf))[pre.length]? = some x := by simp
  have hy : (pre ++ x :: (mid ++ y :: suf))[pre.length + 1 + mid.length]? = some y := by
    rw [List.getElem?_append_right (by omega)]
    have : pre.length + 1 + mid.length - pre.length = mid.length + 1 := by omega
    simp [this]
  rw [swap, borrow_eq_ok.mpr hx, Checked.ok_bind, borrow_eq_ok.mpr hy, Checked.ok_bind]
  refine congrArg Except.ok ?_
  rw [List.set_append_right _ _ (le_refl _), Nat.sub_self, List.set_cons_zero,
    List.set_append_right _ _ (by omega)]
  have : pre.length + 1 + mid.length - pre.length = mid.length + 1 := by omega
  rw [this, List.set_cons_succ, List.set_append_right _ _ (le_refl _), Nat.sub_self,
    List.set_cons_zero]

theorem popBack_concat (v : List α) (x : α) : popBack (v ++ [x]) = .ok (x, v) := by
  simp [popBack, Checked.getOrAbort]

/-! ## `partition` -/

section Partition

variable {pred : α → Result Bool} {p : α → Bool}

/-- The vector up to the first failure meets the predicate, and there is a failure unless the
vector ends there. -/
theorem failsAt_split (hpred : ∀ x, pred x = .ok (p x)) (v : List α) :
    (∀ x ∈ v, p x = true) ∧ failsAt pred v = .ok v.length ∨
    ∃ yes x rest, v = yes ++ x :: rest ∧ failsAt pred v = .ok yes.length ∧
      (∀ y ∈ yes, p y = true) ∧ p x = false := by
  induction v with
  | nil => exact .inl ⟨by simp, rfl⟩
  | cons a v ih =>
    rw [failsAt, hpred, Checked.ok_bind]
    cases ha : p a with
    | false => exact .inr ⟨[], a, v, rfl, rfl, by simp, ha⟩
    | true =>
      rw [if_pos rfl]
      rcases ih with ⟨hall, hlen⟩ | ⟨yes, x, rest, rfl, hlen, hyes, hx⟩
      · exact .inl ⟨by simpa [ha] using hall, by rw [hlen]; rfl⟩
      · exact .inr ⟨a :: yes, x, rest, rfl, by rw [hlen]; rfl, by simpa [ha] using hyes, hx⟩

/-- **The loop**: behind the elements that meet the predicate come some that do not, at least one,
then those still to be looked at. -/
theorem partitionLoop_eq (hpred : ∀ x, pred x = .ok (p x)) (yes no rest : List α) (hne : no ≠ [])
    (hyes : ∀ x ∈ yes, p x = true) (hno : ∀ x ∈ no, p x = false) :
    ∃ yes' no', partitionLoop pred rest.length (yes ++ (no ++ rest)) yes.length
        (yes.length + no.length) = .ok (yes'.length, yes' ++ no') ∧
      (∀ x ∈ yes', p x = true) ∧ (∀ x ∈ no', p x = false) ∧
      (yes' ++ no').Perm (yes ++ (no ++ rest)) := by
  induction rest generalizing yes no with
  | nil => exact ⟨yes, no, by simp [partitionLoop], hyes, hno, by simp⟩
  | cons c rest ih =>
    have hc : (yes ++ (no ++ c :: rest))[yes.length + no.length]? = some c := by simp
    rw [List.length_cons, partitionLoop, borrow_eq_ok.mpr hc, Checked.ok_bind, hpred,
      Checked.ok_bind]
    cases hpc : p c with
    | true =>
      -- the element takes the place of the first that fails, which goes behind the others
      obtain ⟨b, no, rfl⟩ := List.exists_cons_of_ne_nil hne
      have hswap := swap_split yes no rest b c
      rw [if_pos rfl, List.length_cons, show yes.length + (no.length + 1) =
        yes.length + 1 + no.length by omega, List.cons_append, hswap, Checked.ok_bind]
      obtain ⟨yes', no', hloop, hyes', hno', hperm⟩ := ih (yes ++ [c]) (no ++ [b])
        (by simp) (by grind) (by grind)
      refine ⟨yes', no', ?_, hyes', hno', hperm.trans ?_⟩
      · have hlen : yes.length + 1 + no.length + 1 =
            (yes ++ [c]).length + (no ++ [b]).length := by grind
        rw [hlen]
        simpa using hloop
      · rw [List.append_assoc]
        refine List.Perm.append_left yes ?_
        have hback : (no ++ [b] ++ rest).Perm (b :: no ++ rest) :=
          (List.perm_append_singleton b no).append_right rest
        exact (hback.cons c).trans List.perm_middle.symm
    | false =>
      rw [if_neg Bool.false_ne_true]
      obtain ⟨yes', no', hloop, hyes', hno', hperm⟩ := ih yes (no ++ [c]) (by simp) hyes (by grind)
      refine ⟨yes', no', ?_, hyes', hno', ?_⟩
      · simpa [Nat.add_assoc] using hloop
      · simpa using hperm

/-- **`partition`** with a predicate that never aborts: what it leaves is the elements that meet
the predicate, as many as it says, followed by the others. -/
theorem partition_eq (hpred : ∀ x, pred x = .ok (p x)) (v : List α) :
    ∃ yes no, partition pred v = .ok (yes.length, yes ++ no) ∧ (∀ x ∈ yes, p x = true) ∧
      (∀ x ∈ no, p x = false) ∧ (yes ++ no).Perm v := by
  unfold partition
  rcases failsAt_split hpred v with ⟨hall, hlen⟩ | ⟨yes, x, rest, rfl, hlen, hyes, hx⟩
  · refine ⟨v, [], ?_, hall, by simp, by simp⟩
    rw [hlen, Checked.ok_bind, Nat.sub_eq_zero_of_le (Nat.le_succ _), List.append_nil]
    rfl
  · have hcount : (yes ++ x :: rest).length - (yes.length + 1) = rest.length := by grind
    rw [hlen, Checked.ok_bind, hcount]
    exact partitionLoop_eq hpred yes [x] rest (by simp) hyes (by simpa using hx)

end Partition

/-! ## Cutting off and taking out -/

theorem trimLoop_eq (keep cut result : List α) :
    trimLoop cut.length (keep ++ cut) result = .ok (keep, result ++ cut.reverse) := by
  induction cut using List.reverseRecOn generalizing result with
  | nil => simp [trimLoop]
  | append_singleton cut x ih =>
    rw [List.length_append, List.length_singleton, trimLoop, ← List.append_assoc, popBack_concat,
      Checked.ok_bind]
    show trimLoop cut.length (keep ++ cut) (result ++ [x]) = _
    rw [ih, List.reverse_append, List.append_assoc]
    rfl

theorem trimReverse_eq (keep cut : List α) :
    trimReverse (keep ++ cut) keep.length = .ok (keep, cut.reverse) := by
  have hlen : (keep ++ cut).length - keep.length = cut.length := by simp
  have hle : keep.length ≤ (keep ++ cut).length := by simp
  rw [trimReverse, Checked.require_of hle, Checked.ok_bind, hlen, trimLoop_eq]
  rfl

/-- **`swap_remove`** takes out the element asked for and keeps the others, in some order. -/
theorem swapRemove_eq {v : List α} {i : ℕ} {x : α} (hx : v[i]? = some x) :
    ∃ v', swapRemove v i = .ok (x, v') ∧ v.Perm (x :: v') := by
  obtain ⟨hi, -⟩ := List.getElem?_eq_some_iff.mp hx
  -- split the vector at its last element …
  obtain ⟨init, y, rfl⟩ : ∃ init y, v = init ++ [y] :=
    ⟨v.dropLast, v.getLast (List.ne_nil_of_length_pos (by omega)),
      (List.dropLast_append_getLast _).symm⟩
  have hlen : ¬ (init ++ [y]).length = 0 := by simp
  have hlast : (init ++ [y]).length - 1 = init.length := by simp
  simp only [swapRemove, Checked.require_of hlen, Checked.ok_bind, hlast]
  by_cases hend : i < init.length
  · -- … and at the one asked for, whose place the last one takes
    obtain ⟨pre, z, suf, rfl, rfl⟩ : ∃ pre z suf, init = pre ++ z :: suf ∧ i = pre.length :=
      ⟨init.take i, init[i], init.drop (i + 1), by simp, by simp; omega⟩
    obtain rfl : z = x := by simpa using hx
    have hcount : (pre ++ z :: suf).length = pre.length + 1 + suf.length := by grind
    have hswap : swap (pre ++ z :: suf ++ [y]) pre.length (pre.length + 1 + suf.length) =
        .ok (pre ++ y :: suf ++ [z]) := by
      simpa using swap_split pre suf [] z y
    refine ⟨pre ++ y :: suf, ?_, ?_⟩
    · rw [hcount, hswap, Checked.ok_bind, popBack_concat]
    · have hfront : (pre ++ z :: suf ++ [y]).Perm (z :: (pre ++ suf ++ [y])) := by
        rw [List.append_assoc, List.append_assoc]
        exact List.perm_middle
      have hback : (pre ++ suf ++ [y]).Perm (pre ++ y :: suf) :=
        (List.perm_append_singleton y (pre ++ suf)).trans List.perm_middle.symm
      exact hfront.trans (hback.cons z)
  · obtain rfl : i = init.length := by
      rw [List.length_append, List.length_singleton] at hi
      omega
    obtain rfl : y = x := by simpa using hx
    have hswap : swap (init ++ [y]) init.length init.length = .ok (init ++ [y]) := by
      simp [swap]
    refine ⟨init, ?_, List.perm_append_singleton y init⟩
    rw [hswap, Checked.ok_bind, popBack_concat]

end MoveVector

end Pictor
