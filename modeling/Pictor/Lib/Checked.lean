import Mathlib.Data.UInt

/-!
# Aborting computations and checked 64-bit arithmetic

A transaction either returns a result or aborts, and an abort leaves no trace; `Except ε` is
that effect. This module fixes the three primitives every such program is written with —
sequencing, an assertion (`require`) and checked `UInt64` arithmetic — and characterises each by
*when it returns* and *what it returns then*. A proof about a program inverts its `do` block with
`bind_eq_ok` and reads these characterisations off; it never unfolds an operation.
-/

namespace Checked

variable {ε α β : Type}

/-! ## Sequencing -/

@[simp] theorem pure_eq_ok {a b : α} : (pure a : Except ε α) = .ok b ↔ a = b := by
  simp [pure, Except.pure]

/-- **Inversion of a sequence.** A sequence returns iff both halves do, in turn. -/
@[simp] theorem bind_eq_ok {x : Except ε α} {f : α → Except ε β} {b : β} :
    (x >>= f) = .ok b ↔ ∃ a, x = .ok a ∧ f a = .ok b := by
  cases x <;> simp [Bind.bind, Except.bind]

@[simp] theorem map_eq_ok {x : Except ε α} {f : α → β} {b : β} :
    (f <$> x) = .ok b ↔ ∃ a, x = .ok a ∧ f a = b := by
  cases x <;> simp [Functor.map, Except.map]

/-- A first half that aborts aborts the sequence. -/
@[simp] theorem error_bind {e : ε} {f : α → Except ε β} :
    ((.error e : Except ε α) >>= f) = .error e := rfl

/-- A first half that returns hands its value on. -/
@[simp] theorem ok_bind {a : α} {f : α → Except ε β} : ((.ok a : Except ε α) >>= f) = f a := rfl

/-- **Inversion of an abort.** A sequence aborts in its first half or in its second. -/
theorem bind_eq_error {x : Except ε α} {f : α → Except ε β} {e : ε} :
    (x >>= f) = .error e ↔ x = .error e ∨ ∃ a, x = .ok a ∧ f a = .error e := by
  cases x <;> simp [Bind.bind, Except.bind]

/-- A second half that only returns does not abort. -/
theorem error_of_bind_pure {x : Except ε α} {f : α → β} {e : ε}
    (h : (x >>= fun a => pure (f a)) = .error e) : x = .error e := by
  cases x with
  | error e' =>
    cases h
    rfl
  | ok a => cases h

/-- A result that is not a value is an abort. -/
theorem exists_error_of_not_ok {x : Except ε α} (h : ∀ a, x ≠ .ok a) : ∃ e, x = .error e := by
  cases x with
  | error e => exact ⟨e, rfl⟩
  | ok a => exact absurd rfl (h a)

/-- Two sequences with the same first half are the same if their second halves are, on whatever the
first one returns. -/
theorem bind_congr {x : Except ε α} {f g : α → Except ε β} (h : ∀ a, x = .ok a → f a = g a) :
    (x >>= f) = (x >>= g) := by
  cases x with
  | ok a => exact h a rfl
  | error e => rfl

/-! ## Assertions -/

/-- Abort with `e` unless `p` holds. -/
def require (p : Prop) [Decidable p] (e : ε) : Except ε Unit :=
  if p then .ok () else .error e

@[simp] theorem require_eq_ok {p : Prop} [Decidable p] {e : ε} {u : Unit} :
    require p e = .ok u ↔ p := by
  unfold require
  split <;> simp [*]

@[simp] theorem require_eq_error {p : Prop} [Decidable p] {e e' : ε} :
    require p e = .error e' ↔ ¬ p ∧ e' = e := by
  unfold require
  split <;> simp [*, eq_comm]

theorem require_of {p : Prop} [Decidable p] {e : ε} (h : p) : require p e = .ok () := if_pos h

theorem require_of_not {p : Prop} [Decidable p] {e : ε} (h : ¬ p) : require p e = .error e :=
  if_neg h

/-- The value of an option, or the abort `e`. -/
def getOrAbort (o : Option α) (e : ε) : Except ε α :=
  match o with
  | some a => .ok a
  | none => .error e

@[simp] theorem getOrAbort_eq_ok {o : Option α} {e : ε} {a : α} :
    getOrAbort o e = .ok a ↔ o = some a := by
  cases o <;> simp [getOrAbort]

theorem getOrAbort_eq_error {o : Option α} {e e' : ε} :
    getOrAbort o e = .error e' ↔ o = none ∧ e' = e := by
  cases o <;> simp [getOrAbort, eq_comm]

/-! ## Refining a sequence

Two computations, the second of which should be the first one seen through `g`. The lemmas take
them apart from the front, one step of each at a time. -/

section Refine

variable {γ δ : Type} {g : α → γ} {e : ε}

/-- The front steps return values that correspond through `k`. -/
theorem refine_map {x : Except ε β} {y : Except ε δ} {k : β → δ} {f : β → Except ε α}
    {h : δ → Except ε γ} (hxy : x.map k = y) (hstep : ∀ b, x = .ok b → (f b).map g = h (k b)) :
    (x >>= f).map g = y >>= h := by
  subst hxy
  cases x with
  | error e => rfl
  | ok b => exact hstep b rfl

theorem refine_bind {x : Except ε β} {f : β → Except ε α} {h : β → Except ε γ}
    (hstep : ∀ b, x = .ok b → (f b).map g = h b) : (x >>= f).map g = x >>= h := by
  cases x with
  | error e => rfl
  | ok b => exact hstep b rfl

theorem refine_require {p q : Prop} [Decidable p] [Decidable q] {f : Unit → Except ε α}
    {h : Unit → Except ε γ} (hpq : p ↔ q) (hstep : p → (f ()).map g = h ()) :
    (require p e >>= f).map g = require q e >>= h := by
  by_cases hp : p
  · rw [require_of hp, require_of (hpq.mp hp)]
    exact hstep hp
  · rw [require_of_not hp, require_of_not fun hq => hp (hpq.mpr hq)]
    rfl

end Refine

/-! ## Two computations that agree

Both return, and the values are related, or both abort alike. -/

inductive Agree (R : α → β → Prop) : Except ε α → Except ε β → Prop
  | ok {a : α} {b : β} (h : R a b) : Agree R (.ok a) (.ok b)
  | error (e : ε) : Agree R (.error e) (.error e)

section Agree

variable {γ δ : Type} {R : α → β → Prop} {S : γ → δ → Prop}

theorem Agree.bind {x : Except ε α} {y : Except ε β} {f : α → Except ε γ} {g : β → Except ε δ}
    (h : Agree R x y) (hstep : ∀ a b, R a b → Agree S (f a) (g b)) :
    Agree S (x >>= f) (y >>= g) := by
  cases h with
  | ok hab => exact hstep _ _ hab
  | error e => exact .error e

/-- The same first half. -/
theorem Agree.bind_same {x : Except ε α} {f : α → Except ε γ} {g : α → Except ε δ}
    (hstep : ∀ a, x = .ok a → Agree S (f a) (g a)) : Agree S (x >>= f) (x >>= g) := by
  cases x with
  | ok a => exact hstep a rfl
  | error e => exact .error e

/-- What holds of every value of the second is part of the relation. -/
theorem Agree.and {x : Except ε α} {y : Except ε β} {Q : β → Prop} (h : Agree R x y)
    (hQ : ∀ b, y = .ok b → Q b) : Agree (fun a b => R a b ∧ Q b) x y := by
  cases h with
  | ok hab => exact .ok ⟨hab, hQ _ rfl⟩
  | error e => exact .error e

end Agree

/-! ## Arithmetic that aborts instead of wrapping

Each operation is given by the exact natural-number result: it returns when that result is
representable and then returns it. -/

/-- `a + b`, aborting on overflow. -/
def add (e : ε) (a b : UInt64) : Except ε UInt64 :=
  if a.toNat + b.toNat < 2 ^ 64 then .ok (a + b) else .error e

/-- `a - b`, aborting on underflow. -/
def sub (e : ε) (a b : UInt64) : Except ε UInt64 :=
  if b.toNat ≤ a.toNat then .ok (a - b) else .error e

/-- `a * b`, aborting on overflow. -/
def mul (e : ε) (a b : UInt64) : Except ε UInt64 :=
  if a.toNat * b.toNat < 2 ^ 64 then .ok (a * b) else .error e

/-- `a / b`, rounded down, aborting on division by zero. -/
def div (e : ε) (a b : UInt64) : Except ε UInt64 :=
  if b.toNat ≠ 0 then .ok (a / b) else .error e

/-- A guarded operation aborts with its own error only. -/
theorem error_of_guard {p : Prop} [Decidable p] {e e' : ε} {a : α}
    (h : (if p then Except.ok a else .error e) = .error e') : e' = e := by
  split at h
  · cases h
  · exact (Except.error.inj h).symm

/-- Every natural number below `2 ^ 64` is the value of a `UInt64`. -/
theorem exists_toNat_eq {n : ℕ} : (∃ c : UInt64, c.toNat = n) ↔ n < 2 ^ 64 := by
  constructor
  · rintro ⟨c, rfl⟩
    exact c.toNat_lt
  · intro h
    exact ⟨UInt64.ofNat n, UInt64.toNat_ofNat_of_lt' h⟩

theorem add_eq_ok {e : ε} {a b c : UInt64} : add e a b = .ok c ↔ c.toNat = a.toNat + b.toNat := by
  unfold add
  have hc := c.toNat_lt
  split
  · next h =>
    have hab : (a + b).toNat = a.toNat + b.toNat := by
      rw [UInt64.toNat_add, Nat.mod_eq_of_lt h]
    rw [← hab, Except.ok.injEq, ← UInt64.toNat_inj]
    exact eq_comm
  · simp only [reduceCtorEq, false_iff]
    omega

theorem add_eq_error {e e' : ε} {a b : UInt64} :
    add e a b = .error e' ↔ 2 ^ 64 ≤ a.toNat + b.toNat ∧ e' = e := by
  unfold add
  split
  · simp only [reduceCtorEq, false_iff, not_and]
    omega
  · next h =>
    rw [Except.error.injEq, and_iff_right (Nat.not_lt.mp h)]
    exact eq_comm

theorem sub_eq_ok {e : ε} {a b c : UInt64} : sub e a b = .ok c ↔ c.toNat + b.toNat = a.toNat := by
  unfold sub
  split
  · next h =>
    have hab : (a - b).toNat = a.toNat - b.toNat :=
      UInt64.toNat_sub_of_le _ _ (UInt64.le_iff_toNat_le.mpr h)
    rw [Except.ok.injEq, ← UInt64.toNat_inj, hab]
    omega
  · simp only [reduceCtorEq, false_iff]
    omega

theorem mul_eq_ok {e : ε} {a b c : UInt64} : mul e a b = .ok c ↔ c.toNat = a.toNat * b.toNat := by
  unfold mul
  have hc := c.toNat_lt
  split
  · next h =>
    have hab : (a * b).toNat = a.toNat * b.toNat := by
      rw [UInt64.toNat_mul, Nat.mod_eq_of_lt h]
    rw [← hab, Except.ok.injEq, ← UInt64.toNat_inj]
    exact eq_comm
  · next h =>
    simp only [reduceCtorEq, false_iff]
    intro hc'
    exact h (hc' ▸ hc)

theorem div_eq_ok {e : ε} {a b c : UInt64} :
    div e a b = .ok c ↔ b.toNat ≠ 0 ∧ c.toNat = a.toNat / b.toNat := by
  unfold div
  split
  · next h =>
    rw [Except.ok.injEq, ← UInt64.toNat_inj, UInt64.toNat_div]
    exact ⟨fun hc => ⟨h, hc.symm⟩, fun hc => hc.2.symm⟩
  · next h => simp [not_not.mp h]

end Checked
