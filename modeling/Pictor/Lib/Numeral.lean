import Mathlib.Data.Nat.Digits.Defs
import Mathlib.Data.List.Basic

/-!
# Positional numerals over an alphabet

`numeral b glyph n` writes `n` in base `b`, most significant digit first and without leading zeros,
one `glyph` a digit. Reading it back (`value_numeral`) recovers `n`, so a numeral determines its
number; and its letters come from the alphabet only, which is what lets a numeral be told apart
from a delimiter that follows it.
-/

namespace Numeral

variable {γ : Type}

/-- The digits of `n`, least significant first; zero has the one digit `0`. -/
def digits (b n : ℕ) : List ℕ := if n = 0 then [0] else Nat.digits b n

/-- `n` in base `b`, without leading zeros. -/
def numeral (b : ℕ) (glyph : ℕ → γ) (n : ℕ) : List γ := (digits b n).reverse.map glyph

/-- The number a numeral denotes, given the digit each letter stands for. -/
def value (b : ℕ) (unglyph : γ → ℕ) (s : List γ) : ℕ := Nat.ofDigits b (s.map unglyph).reverse

theorem digits_lt_base {b n d : ℕ} (hb : 1 < b) (hd : d ∈ digits b n) : d < b := by
  unfold digits at hd
  split at hd
  · rw [List.mem_singleton] at hd
    omega
  · exact Nat.digits_lt_base hb hd

theorem ofDigits_digits (b n : ℕ) : Nat.ofDigits b (digits b n) = n := by
  unfold digits
  split
  · next h => simp [h]
  · exact Nat.ofDigits_digits b n

/-- Every letter of a numeral is a digit's. -/
theorem exists_digit_of_mem {b n : ℕ} {glyph : ℕ → γ} (hb : 1 < b) {c : γ}
    (hc : c ∈ numeral b glyph n) : ∃ d < b, glyph d = c := by
  obtain ⟨d, hd, rfl⟩ := List.mem_map.mp hc
  exact ⟨d, digits_lt_base hb (List.mem_reverse.mp hd), rfl⟩

/-- **Reading back a numeral.** -/
theorem value_numeral {b : ℕ} {glyph : ℕ → γ} {unglyph : γ → ℕ} (hb : 1 < b)
    (hg : ∀ d < b, unglyph (glyph d) = d) (n : ℕ) : value b unglyph (numeral b glyph n) = n := by
  have hmap : ((digits b n).reverse.map glyph).map unglyph = (digits b n).reverse := by
    rw [List.map_map, List.map_congr_left (g := id), List.map_id]
    intro d hd
    exact hg d (digits_lt_base hb (List.mem_reverse.mp hd))
  rw [value, numeral, hmap, List.reverse_reverse, ofDigits_digits]

/-- A numeral determines its number. -/
theorem numeral_injective {b : ℕ} {glyph : ℕ → γ} {unglyph : γ → ℕ} (hb : 1 < b)
    (hg : ∀ d < b, unglyph (glyph d) = d) : Function.Injective (numeral b glyph) := by
  intro m n h
  rw [← value_numeral hb hg m, h, value_numeral hb hg n]

end Numeral
