import Mathlib.Algebra.BigOperators.Group.Finset.Basic
import Mathlib.Algebra.BigOperators.Group.Finset.Piecewise

/-!
# Movements between accounts

A movement takes an amount from one account to another. An end may be missing: what has no source is
created, what has no target is destroyed. `Moves f g` says that the balances `g` are `f` after the
movement, at every account; `sum_moves` is what it does to a total.
-/

structure Movement (K : Type) where
  source : Option K
  target : Option K
  amount : ℕ
  deriving DecidableEq

namespace Movement

variable {K : Type} [DecidableEq K]

def out (mv : Movement K) (k : K) : ℕ := if mv.source = some k then mv.amount else 0
def into (mv : Movement K) (k : K) : ℕ := if mv.target = some k then mv.amount else 0

/-- What leaves some account. -/
def outgoing (mv : Movement K) : ℕ := if mv.source.isSome then mv.amount else 0

/-- What reaches some account. -/
def incoming (mv : Movement K) : ℕ := if mv.target.isSome then mv.amount else 0

def Moves (mv : Movement K) (f g : K → ℕ) : Prop := ∀ k, g k + mv.out k = f k + mv.into k

/-- Nothing moves. -/
def still : Movement K := ⟨none, none, 0⟩

theorem still_moves {f g : K → ℕ} : (still : Movement K).Moves f g ↔ ∀ k, g k = f k := Iff.rfl

/-- One end of a movement, summed over accounts among which it is. -/
theorem sum_end {S : Finset K} {e : Option K} (h : ∀ k, e = some k → k ∈ S) (n : ℕ) :
    ∑ k ∈ S, (if e = some k then n else 0) = if e.isSome then n else 0 := by
  cases e with
  | none => simp
  | some k =>
    have hk := h k rfl
    simp only [Option.some.injEq, Finset.sum_ite_eq, hk, if_true, Option.isSome_some]

/-- **Totals.** Over accounts that contain both ends, a movement adds what is incoming and takes
what is outgoing. -/
theorem sum_moves {mv : Movement K} {f g : K → ℕ} {S : Finset K} (h : mv.Moves f g)
    (hsource : ∀ k, mv.source = some k → k ∈ S) (htarget : ∀ k, mv.target = some k → k ∈ S) :
    ∑ k ∈ S, g k + mv.outgoing = ∑ k ∈ S, f k + mv.incoming := by
  have hout : ∑ k ∈ S, mv.out k = mv.outgoing := sum_end hsource mv.amount
  have hinto : ∑ k ∈ S, mv.into k = mv.incoming := sum_end htarget mv.amount
  rw [← hout, ← hinto, ← Finset.sum_add_distrib, ← Finset.sum_add_distrib]
  exact Finset.sum_congr rfl fun k _ => h k

end Movement
