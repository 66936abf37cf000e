import Pictor.Lib.Table

/-!
# What a Move program runs on: addresses, aborts, vectors

`Result` is the effect of a Move function: a value, or an abort that undoes the whole transaction.
An abort is told apart by the module that raised it and its code, as the virtual machine reports
it; the machine's own failures (arithmetic, missing resource, index out of bounds) have no code.

The second half embeds the three `vector` functions the configuration module calls. `remove` is the
source's loop, which bubbles the element to the end by adjacent swaps and pops it; `remove_eq_ok`
says that this deletes exactly the indexed element and keeps the order of the rest.
-/

namespace Pictor

/-- A 32-byte account or object address. -/
abbrev Address := BitVec 256

/-- `Object<Metadata>`: a kind of fungible asset, named by its metadata object. -/
abbrev Token := Address

/-- The modules whose abort codes a call can surface. -/
inductive Module where
  | pictorNetwork
  | pictorConfig
  | packageManager
  | table
  | tableWithLength
  | smartTable
  | vector
  | fungibleAsset
  | dispatchableFungibleAsset
  | primaryFungibleStore
  | account
  | ed25519
  deriving DecidableEq, Repr

/-- How a transaction aborts. -/
inductive Abort where
  /-- `abort code` or a failed `assert!`, raised in `location`. -/
  | code (location : Module) (code : ℕ)
  /-- Overflow, underflow or division by zero. -/
  | arithmeticError
  /-- `borrow_global` on an address that holds no such resource, or a second `move_to`. -/
  | missingData
  /-- A native vector access out of bounds. -/
  | vectorError
  deriving DecidableEq, Repr

/-- The outcome of a Move function. -/
abbrev Result := Except Abort

/-! ## Canonical error codes (`std::error`) -/

namespace Error

/-- A category in the upper bits, the module's own reason in the lower 16. -/
def canonical (category reason : ℕ) : ℕ := category * 2 ^ 16 + reason

def invalidArgument (r : ℕ) : ℕ := canonical 0x1 r
def permissionDenied (r : ℕ) : ℕ := canonical 0x5 r
def notFound (r : ℕ) : ℕ := canonical 0x6 r
def aborted (r : ℕ) : ℕ := canonical 0x7 r
def alreadyExists (r : ℕ) : ℕ := canonical 0x8 r

end Error

/-! ## Native table aborts -/

/-- Raised by `table::add` on a key that is present: `(100 << 8) + 7`. -/
def tableAlreadyExists : Abort := .code .table (100 * 2 ^ 8 + 7)

/-- Raised by `table::borrow` and `table::borrow_mut` on an absent key: `(101 << 8) + 7`. -/
def tableNotFound : Abort := .code .table (101 * 2 ^ 8 + 7)

/-! ## Checked `u64` operators -/

namespace U64

def add : UInt64 → UInt64 → Result UInt64 := Checked.add .arithmeticError
def sub : UInt64 → UInt64 → Result UInt64 := Checked.sub .arithmeticError
def mul : UInt64 → UInt64 → Result UInt64 := Checked.mul .arithmeticError
def div : UInt64 → UInt64 → Result UInt64 := Checked.div .arithmeticError

@[simp] theorem add_eq_ok {a b c : UInt64} : add a b = .ok c ↔ c.toNat = a.toNat + b.toNat :=
  Checked.add_eq_ok

@[simp] theorem sub_eq_ok {a b c : UInt64} : sub a b = .ok c ↔ c.toNat + b.toNat = a.toNat :=
  Checked.sub_eq_ok

@[simp] theorem mul_eq_ok {a b c : UInt64} : mul a b = .ok c ↔ c.toNat = a.toNat * b.toNat :=
  Checked.mul_eq_ok

@[simp] theorem div_eq_ok {a b c : UInt64} :
    div a b = .ok c ↔ b.toNat ≠ 0 ∧ c.toNat = a.toNat / b.toNat :=
  Checked.div_eq_ok

theorem add_eq_error {a b : UInt64} {e : Abort} :
    add a b = .error e ↔ 2 ^ 64 ≤ a.toNat + b.toNat ∧ e = .arithmeticError :=
  Checked.add_eq_error

theorem exists_add {a b : UInt64} : (∃ c, add a b = .ok c) ↔ a.toNat + b.toNat < 2 ^ 64 := by
  simp only [add_eq_ok, Checked.exists_toNat_eq]

theorem exists_mul {a b : UInt64} : (∃ c, mul a b = .ok c) ↔ a.toNat * b.toNat < 2 ^ 64 := by
  simp only [mul_eq_ok, Checked.exists_toNat_eq]

theorem exists_sub {a b : UInt64} : (∃ c, sub a b = .ok c) ↔ b.toNat ≤ a.toNat := by
  simp only [sub_eq_ok]
  constructor
  · rintro ⟨c, hc⟩
    omega
  · intro h
    exact ⟨a - b, by rw [UInt64.toNat_sub_of_le _ _ (UInt64.le_iff_toNat_le.mpr h)]; omega⟩

theorem error_of_add {a b : UInt64} {e : Abort} (h : add a b = .error e) : e = .arithmeticError :=
  Checked.error_of_guard h

theorem error_of_mul {a b : UInt64} {e : Abort} (h : mul a b = .error e) : e = .arithmeticError :=
  Checked.error_of_guard h

theorem error_of_div {a b : UInt64} {e : Abort} (h : div a b = .error e) : e = .arithmeticError :=
  Checked.error_of_guard h

end U64

/-! ## `std::vector` -/

namespace MoveVector

variable {α : Type}

/-- `EINDEX_OUT_OF_BOUNDS`. -/
def EINDEX_OUT_OF_BOUNDS : Abort := .code .vector 0x20000

/-- Native `length`. The length of a vector is a `u64`: there is no longer vector. -/
def length (v : List α) : Result UInt64 :=
  if v.length < 2 ^ 64 then .ok (UInt64.ofNat v.length) else .error .vectorError

/-- Native `borrow`. -/
def borrow (v : List α) (i : ℕ) : Result α := Checked.getOrAbort v[i]? .vectorError

/-- `contains`: scan for an element equal to `e`. -/
def contains [DecidableEq α] : List α → α → Bool
  | [], _ => false
  | x :: v, e => if x = e then true else contains v e

/-- The scan of `index_of`, with the index of the head of what is left to scan. -/
def indexOfFrom [DecidableEq α] : List α → α → ℕ → Bool × ℕ
  | [], _, _ => (false, 0)
  | x :: v, e, i => if x = e then (true, i) else indexOfFrom v e (i + 1)

/-- `index_of`: `(true, i)` for the first occurrence, `(false, 0)` if there is none. -/
def indexOf [DecidableEq α] (v : List α) (e : α) : Bool × ℕ := indexOfFrom v e 0

/-- Native `swap`. -/
def swap (v : List α) (i j : ℕ) : Result (List α) := do
  let x ← borrow v i
  let y ← borrow v j
  return (v.set i y).set j x

/-- Native `pop_back`. -/
def popBack (v : List α) : Result (α × List α) := do
  let x ← Checked.getOrAbort v.getLast? .vectorError
  return (x, v.dropLast)

/-- The loop of `remove`: `n` more swaps, each moving the element one place to the right. -/
def removeLoop (v : List α) (i : ℕ) : ℕ → Result (List α)
  | 0 => .ok v
  | n + 1 => do
    let v ← swap v i (i + 1)
    removeLoop v (i + 1) n

/-- `remove`: take out the `i`th element, shifting the later ones. -/
def remove (v : List α) (i : ℕ) : Result (α × List α) := do
  let len := v.length
  Checked.require (¬ len ≤ i) EINDEX_OUT_OF_BOUNDS
  let len := len - 1
  let v ← removeLoop v i (len - i)
  popBack v

@[simp] theorem length_eq_ok {v : List α} {n : UInt64} : length v = .ok n ↔ n.toNat = v.length := by
  unfold length
  have hn := n.toNat_lt
  split
  · next h =>
    rw [Except.ok.injEq, ← UInt64.toNat_inj, UInt64.toNat_ofNat_of_lt' h]
    exact eq_comm
  · simp only [reduceCtorEq, false_iff]
    omega

@[simp] theorem borrow_eq_ok {v : List α} {i : ℕ} {x : α} :
    borrow v i = .ok x ↔ v[i]? = some x :=
  Checked.getOrAbort_eq_ok

@[simp] theorem contains_iff [DecidableEq α] {v : List α} {e : α} :
    contains v e = true ↔ e ∈ v := by
  induction v with
  | nil => simp [contains]
  | cons x v ih =>
    unfold contains
    split
    · next h => simp [h]
    · next h => simp [ih, Ne.symm h]

/-- One adjacent swap, on a list split at the element that moves. -/
theorem swap_adjacent (pre : List α) (x y : α) (suf : List α) :
    swap (pre ++ x :: y :: suf) pre.length (pre.length + 1) = .ok (pre ++ y :: x :: suf) := by
  simp [swap]

/-- The loop carries `x` past everything behind it. -/
theorem removeLoop_eq (pre : List α) (x : α) (suf : List α) :
    removeLoop (pre ++ x :: suf) pre.length suf.length = .ok (pre ++ suf ++ [x]) := by
  induction suf generalizing pre with
  | nil => simp [removeLoop]
  | cons y suf ih =>
    have h := ih (pre ++ [y])
    simp only [List.append_assoc, List.singleton_append, List.length_append, List.length_singleton]
      at h
    rw [List.length_cons, removeLoop, swap_adjacent, Checked.ok_bind, h]
    simp

/-- **`remove` deletes one position and keeps the order of the rest.** -/
theorem remove_eq_ok {v v' : List α} {i : ℕ} {x : α} :
    remove v i = .ok (x, v') ↔ v[i]? = some x ∧ v' = v.eraseIdx i := by
  by_cases hi : i < v.length
  · -- split the vector at the element to be taken out
    obtain ⟨pre, y, suf, rfl, rfl⟩ : ∃ pre y suf, v = pre ++ y :: suf ∧ i = pre.length :=
      ⟨v.take i, v[i], v.drop (i + 1), by simp, by simp; omega⟩
    have hn : (pre ++ y :: suf).length - 1 - pre.length = suf.length := by simp
    have hpop : popBack (pre ++ suf ++ [y]) = .ok (y, pre ++ suf) := by
      simp [popBack, Checked.getOrAbort]
    have herase : (pre ++ y :: suf).eraseIdx pre.length = pre ++ suf := by
      simp [List.eraseIdx_append_of_length_le]
    have hget : (pre ++ y :: suf)[pre.length]? = some y := by simp
    have hlen : ¬ (pre ++ y :: suf).length ≤ pre.length := by omega
    simp only [remove, hn, removeLoop_eq pre y suf, Checked.require, hlen, not_false_eq_true,
      if_true, Checked.ok_bind, hpop, herase, hget, Except.ok.injEq, Prod.mk.injEq,
      Option.some.injEq]
    rw [eq_comm (a := v')]
  · have hnone : v[i]? = none := by simp; omega
    simp [remove, hnone]
    omega

/-- `index_of` finds the position `List.idxOf` counts, when there is one. -/
theorem indexOfFrom_eq [DecidableEq α] (v : List α) (e : α) (i : ℕ) :
    indexOfFrom v e i = if e ∈ v then (true, i + v.idxOf e) else (false, 0) := by
  induction v generalizing i with
  | nil => simp [indexOfFrom]
  | cons x v ih =>
    unfold indexOfFrom
    by_cases hx : x = e
    · subst hx
      simp
    · rw [if_neg hx, ih, List.idxOf_cons_ne _ hx]
      simp only [List.mem_cons, Ne.symm hx, false_or]
      split
      · rw [Nat.succ_eq_add_one, Nat.add_assoc, Nat.add_comm 1]
      · rfl

theorem indexOf_eq [DecidableEq α] (v : List α) (e : α) :
    indexOf v e = if e ∈ v then (true, v.idxOf e) else (false, 0) := by
  simp [indexOf, indexOfFrom_eq]

end MoveVector

end Pictor
