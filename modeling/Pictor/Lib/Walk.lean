import Mathlib.Data.Nat.Basic
import Mathlib.Logic.Relation

/-!
# Following a partial function

A function `next : α → Option α` sends each place to the next one, or nowhere. `after next n x` is
where `n` steps lead; there may be cycles, so a walk need not end. `Within next p n x y` is what a
loop finds out that goes from `x` until it comes to `y`, but not further than `n` steps and only on
from places where `p` holds.
-/

namespace Walk

variable {α : Type} {next : α → Option α} {p : α → Prop}

/-- Where `n` steps lead. -/
def after (next : α → Option α) : ℕ → α → Option α
  | 0, x => some x
  | n + 1, x => (next x).bind (after next n)

/-- `y` is at most `n` steps from `x`, and `p` holds wherever a step is taken from. -/
def Within (next : α → Option α) (p : α → Prop) : ℕ → α → α → Prop
  | 0, x, y => x = y
  | n + 1, x, y => x = y ∨ p x ∧ ∃ z, next x = some z ∧ Within next p n z y

theorem after_succ (n : ℕ) (x : α) : after next (n + 1) x = (next x).bind (after next n) := rfl

theorem after_succ_of {n : ℕ} {x z : α} (h : next x = some z) :
    after next (n + 1) x = after next n z := by
  rw [after_succ, h, Option.bind_some]

theorem after_succ_of_none {n : ℕ} {x : α} (h : next x = none) : after next (n + 1) x = none := by
  rw [after_succ, h, Option.bind_none]

/-- A walk that has come to an end goes no further. -/
theorem after_eq_none {m n : ℕ} {x z : α} (h : after next m x = some z) (hend : next z = none)
    (hmn : m < n) : after next n x = none := by
  induction m generalizing x n with
  | zero =>
    cases h
    obtain ⟨n, rfl⟩ := Nat.exists_eq_succ_of_ne_zero (Nat.ne_of_gt hmn)
    exact after_succ_of_none hend
  | succ m ih =>
    obtain ⟨n, rfl⟩ := Nat.exists_eq_succ_of_ne_zero (Nat.ne_of_gt (Nat.zero_lt_of_lt hmn))
    cases hx : next x with
    | none => exact after_succ_of_none hx
    | some y =>
      rw [after_succ_of hx] at h
      exact (after_succ_of hx).trans (ih h (Nat.lt_of_succ_lt_succ hmn))

/-- **The places ahead** are the ones some number of steps leads to. -/
theorem reflTransGen_iff {x y : α} :
    Relation.ReflTransGen (fun a b => next a = some b) x y ↔ ∃ n, after next n x = some y := by
  constructor
  · intro h
    induction h using Relation.ReflTransGen.head_induction_on with
    | refl => exact ⟨0, rfl⟩
    | head hstep _ ih =>
      obtain ⟨n, hn⟩ := ih
      exact ⟨n + 1, (after_succ_of hstep).trans hn⟩
  · rintro ⟨n, hn⟩
    induction n generalizing x with
    | zero =>
      cases hn
      exact .refl
    | succ n ih =>
      cases hx : next x with
      | none =>
        rw [after_succ_of_none hx] at hn
        cases hn
      | some z =>
        rw [after_succ_of hx] at hn
        exact .head hx (ih hn)

/-- **What is not met before the end** is nowhere ahead. -/
theorem not_reflTransGen {m : ℕ} {x y z : α} (h : after next m x = some z) (hend : next z = none)
    (hnot : ∀ k ≤ m, after next k x ≠ some y) :
    ¬ Relation.ReflTransGen (fun a b => next a = some b) x y := by
  intro hy
  obtain ⟨n, hn⟩ := reflTransGen_iff.mp hy
  rcases Nat.lt_or_ge m n with hmn | hnm
  · rw [after_eq_none h hend hmn] at hn
    cases hn
  · exact hnot n hnm hn

theorem Within.self (n : ℕ) (x : α) : Within next p n x x := by
  cases n with
  | zero => exact rfl
  | succ n => exact .inl rfl

/-- **What a bounded search finds**: a number of steps within the bound, with `p` all along. -/
theorem within_iff {n : ℕ} {x y : α} : Within next p n x y ↔
    ∃ m ≤ n, after next m x = some y ∧ ∀ k < m, ∀ z, after next k x = some z → p z := by
  induction n generalizing x with
  | zero =>
    constructor
    · rintro rfl
      exact ⟨0, le_rfl, rfl, fun k hk => absurd hk (Nat.not_lt_zero k)⟩
    · rintro ⟨m, hm, hy, _⟩
      obtain rfl := Nat.le_zero.mp hm
      exact Option.some.inj hy
  | succ n ih =>
    constructor
    · rintro (rfl | ⟨hx, z, hz, hrest⟩)
      · exact ⟨0, Nat.zero_le _, rfl, fun k hk => absurd hk (Nat.not_lt_zero k)⟩
      · obtain ⟨m, hm, hy, hp⟩ := ih.mp hrest
        refine ⟨m + 1, Nat.succ_le_succ hm, (after_succ_of hz).trans hy, ?_⟩
        rintro (_ | k) hk w hw
        · cases hw
          exact hx
        · rw [after_succ_of hz] at hw
          exact hp k (Nat.lt_of_succ_lt_succ hk) w hw
    · rintro ⟨m, hm, hy, hp⟩
      cases m with
      | zero => exact .inl (Option.some.inj hy)
      | succ m =>
        cases hx : next x with
        | none =>
          rw [after_succ_of_none hx] at hy
          cases hy
        | some z =>
          rw [after_succ_of hx] at hy
          refine .inr ⟨hp 0 (Nat.succ_pos m) x rfl, z, hx,
            ih.mpr ⟨m, Nat.le_of_succ_le_succ hm, hy, ?_⟩⟩
          intro k hk w hw
          exact hp (k + 1) (Nat.succ_lt_succ hk) w ((after_succ_of hx).trans hw)

end Walk
