import Mathlib.Data.Nat.Bitwise

/-!
# Linear hashing: where a hash belongs, and what one split moves

A linear hash table grows by one bucket at a time. With `2 ^ level ≤ buckets < 2 ^ (level + 1)`, a
hash belongs to the bucket of its last `level + 1` bits if there is one, and else to the one of its
last `level` bits. Growing adds the bucket `buckets`, and the one thing to know about it is
`index_grow`: the hashes that belong to the new bucket are those whose last `level + 1` bits name
it, they all come from the bucket `next`, and no other hash moves.
-/

namespace LinearHashing

/-- The size of a table, with the number of bits that are always looked at. -/
structure Shape where
  level : ℕ
  buckets : ℕ
  lower : 2 ^ level ≤ buckets
  upper : buckets < 2 ^ (level + 1)

namespace Shape

variable (s : Shape) (h : ℕ)

/-- The bucket a hash belongs to. -/
def index : ℕ :=
  if h % 2 ^ (s.level + 1) < s.buckets then h % 2 ^ (s.level + 1) else h % 2 ^ s.level

/-- The bucket that is split next. -/
def next : ℕ := s.buckets - 2 ^ s.level

/-- Two hashes with the same last `level` bits differ in the bit above, or not. -/
theorem mod_succ_cases (l : ℕ) :
    h % 2 ^ (l + 1) = h % 2 ^ l ∨ h % 2 ^ (l + 1) = h % 2 ^ l + 2 ^ l := by
  have hsplit : h % (2 ^ l * 2) = h % 2 ^ l + 2 ^ l * (h / 2 ^ l % 2) := Nat.mod_mul
  rw [← pow_succ] at hsplit
  rcases Nat.mod_two_eq_zero_or_one (h / 2 ^ l) with hbit | hbit
  · rw [hbit] at hsplit
    exact .inl hsplit
  · rw [hbit, Nat.mul_one] at hsplit
    exact .inr hsplit

theorem mod_lt (l : ℕ) : h % 2 ^ l < 2 ^ l := Nat.mod_lt h (Nat.two_pow_pos l)

theorem index_lt : s.index h < s.buckets := by
  have hl := s.lower
  have hr := mod_lt h s.level
  unfold index
  split <;> omega

theorem level_le {n : ℕ} (hs : s.buckets ≤ 2 ^ n) : s.level ≤ n :=
  (Nat.pow_le_pow_iff_right (le_refl 2)).mp (s.lower.trans hs)

theorem next_lt : s.next < 2 ^ s.level := by
  have hl := s.lower
  have hu := s.upper
  rw [pow_succ] at hu
  unfold next
  omega

theorem next_lt_buckets : s.next < s.buckets := Nat.lt_of_lt_of_le s.next_lt s.lower

theorem next_add : s.next + 2 ^ s.level = s.buckets := Nat.sub_add_cancel s.lower

/-- The next bucket to split is the number of buckets without its leading bit. -/
theorem xor_eq_next : s.buckets ^^^ 2 ^ s.level = s.next := by
  have hlt := s.next_lt
  have hor : 2 ^ s.level + s.next = 2 ^ s.level ||| s.next := by
    simpa using Nat.two_pow_add_eq_or_of_lt hlt 1
  rw [← s.next_add, Nat.add_comm, hor]
  apply Nat.eq_of_testBit_eq
  intro i
  rw [Nat.testBit_xor, Nat.testBit_or, Nat.testBit_two_pow]
  by_cases hi : s.level = i
  · have hbit : s.next.testBit i = false := Nat.testBit_lt_two_pow (hi ▸ hlt)
    simp [hi, hbit]
  · simp [hi]

/-- One bucket more; the level rises when the whole level has been split. -/
def grow : Shape where
  level := if s.next + 1 = 2 ^ s.level then s.level + 1 else s.level
  buckets := s.buckets + 1
  lower := by
    have hadd := s.next_add
    split
    · rw [pow_succ]
      omega
    · omega
  upper := by
    have hadd := s.next_add
    have hlt := s.next_lt
    have hu := s.upper
    split
    · rw [pow_succ, pow_succ]
      omega
    · rw [pow_succ] at hu ⊢
      omega

/-- The hashes that are to move are in the bucket that is split. -/
theorem index_of_mod_eq (hh : h % 2 ^ (s.level + 1) = s.buckets) : s.index h = s.next := by
  have hadd := s.next_add
  have hlt := s.next_lt
  have hr := mod_lt h s.level
  unfold index
  rw [if_neg (by omega)]
  rcases mod_succ_cases h s.level with hbit | hbit <;> omega

/-- **What growing moves.** -/
theorem index_grow : s.grow.index h =
    if h % 2 ^ (s.level + 1) = s.buckets then s.buckets else s.index h := by
  have hadd := s.next_add
  have hlt := s.next_lt
  have hr := mod_lt h s.level
  have hr' := mod_lt h (s.level + 1)
  by_cases hfull : s.next + 1 = 2 ^ s.level
  · -- the level is complete: all hashes are placed by one bit more
    have hlevel : s.grow.level = s.level + 1 := if_pos hfull
    have hbuckets : s.grow.buckets = 2 ^ (s.level + 1) := by
      show s.buckets + 1 = _
      rw [pow_succ]
      omega
    have hgrown : s.grow.index h = h % 2 ^ (s.level + 1) := by
      unfold index
      rw [hlevel, hbuckets]
      split
      · rcases mod_succ_cases h (s.level + 1) with hbit | hbit <;> omega
      · rfl
    rw [hgrown]
    unfold index
    rw [pow_succ] at hr' ⊢
    rcases mod_succ_cases h s.level with hbit | hbit
    all_goals
      rw [pow_succ] at hbit
      split
      · assumption
      · split <;> omega
  · have hlevel : s.grow.level = s.level := if_neg hfull
    have hbuckets : s.grow.buckets = s.buckets + 1 := rfl
    unfold index
    rw [hlevel, hbuckets]
    rcases mod_succ_cases h s.level with hbit | hbit
    all_goals
      split
      · split
        · assumption
        · split <;> omega
      · split
        · omega
        · split <;> omega

/-- No hash leaves a bucket that is not split. -/
theorem index_grow_of_ne (hne : s.index h ≠ s.next) : s.grow.index h = s.index h := by
  rw [index_grow, if_neg fun hh => hne (s.index_of_mod_eq h hh)]

/-- A hash of the bucket that is split stays or goes to the new one. -/
theorem index_grow_cases (heq : s.index h = s.next) :
    s.grow.index h = s.next ∨ s.grow.index h = s.buckets := by
  rw [index_grow, heq]
  split
  · exact .inr rfl
  · exact .inl rfl

/-- The new bucket gets hashes from the one that is split only. -/
theorem index_of_grow_eq (hh : s.grow.index h = s.buckets) : s.index h = s.next := by
  by_contra hne
  rw [s.index_grow_of_ne h hne] at hh
  exact absurd (s.index_lt h) (by omega)

/-- A bucket that is neither split nor new keeps its hashes. -/
theorem grow_index_eq_iff {i : ℕ} (hi : i < s.buckets) (hne : i ≠ s.next) :
    s.grow.index h = i ↔ s.index h = i := by
  by_cases hnext : s.index h = s.next
  · have hold : s.index h ≠ i := fun heq => hne (heq.symm.trans hnext)
    rw [iff_false_right hold]
    rcases s.index_grow_cases h hnext with hgrow | hgrow <;> omega
  · rw [s.index_grow_of_ne h hnext]

/-- The bucket that is split keeps those that do not go to the new one. -/
theorem grow_index_eq_next_iff :
    s.grow.index h = s.next ↔ s.index h = s.next ∧ s.grow.index h ≠ s.buckets := by
  have hlt := s.next_lt_buckets
  constructor
  · intro hgrow
    refine ⟨?_, by omega⟩
    by_contra hne
    exact hne (s.index_grow_of_ne h hne ▸ hgrow)
  · rintro ⟨hnext, hstay⟩
    exact (s.index_grow_cases h hnext).resolve_right hstay

/-- One bucket. -/
def one : Shape := ⟨0, 1, le_refl 1, by decide⟩

end Shape

/-! ## How full the buckets get -/

/-- **One split is enough.** A table that grows by a bucket whenever, after an insertion, it has at
least `load * buckets` entries (in units of `1 / unit`) always has fewer than
`max unit load * buckets`. -/
theorem load_after_insert {unit load size buckets : ℕ}
    (hbefore : size * unit < max unit load * buckets) :
    (size + 1) * unit <
      max unit load * (if (size + 1) * unit < load * buckets then buckets else buckets + 1) := by
  split
  · next hlight => exact hlight.trans_le (Nat.mul_le_mul_right buckets (le_max_right unit load))
  · have hmax : unit ≤ max unit load := le_max_left unit load
    rw [Nat.mul_add, Nat.mul_one, Nat.add_mul, Nat.one_mul]
    omega

end LinearHashing
