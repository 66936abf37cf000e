import Pictor.Refinement.SmartTable

/-!
# What a smart table does, over whole runs

The functions that change a table are the operations of a map, and two more that only tune when it
grows. Whatever is submitted to a new table, one reads off it the map those operations build that
it accepted; it refuses what the map refuses, and beyond that only to put more than 10001 entries
into one bucket. The buckets do not fill up on average: one split per insertion keeps the load
under the threshold.
-/

namespace Pictor

namespace SmartTable

open LinearHashing (Shape)

variable {K V : Type} [DecidableEq K]

inductive Op (K V : Type) where
  | add (key : K) (value : V)
  | remove (key : K)
  /-- `*borrow_mut(table, key) = value`. -/
  | write (key : K) (value : V)
  /-- `*borrow_mut_with_default(table, key, default) = value`. -/
  | writeWithDefault (key : K) (default value : V)
  | upsert (key : K) (value : V)
  | clear
  | updateSplitLoadThreshold (splitLoadThreshold : ℕ)
  | updateTargetBucketSize (targetBucketSize : ℕ)
  deriving DecidableEq

namespace Op

/-- Whether an operation only tunes when the table grows. -/
def tunes : Op K V → Bool
  | .updateSplitLoadThreshold _ => true
  | .updateTargetBucketSize _ => true
  | _ => false

end Op

def exec (natives : Natives K V) (t : SmartTable K V) : Op K V → Result (SmartTable K V)
  | .add key value => add natives t key value
  | .remove key => do
    let (_, t) ← remove natives t key
    return t
  | .write key value => do
    let (_, put) ← borrowMut natives t key
    return put value
  | .writeWithDefault key default value => do
    let (_, put) ← borrowMutWithDefault natives t key default
    return put value
  | .upsert key value => upsert natives t key value
  | .clear => clear t
  | .updateSplitLoadThreshold splitLoadThreshold => updateSplitLoadThreshold t splitLoadThreshold
  | .updateTargetBucketSize targetBucketSize => updateTargetBucketSize t targetBucketSize

/-- The same operations of a map. -/
def mapExec (m : Table K V) : Op K V → Result (Table K V)
  | .add key value => m.add EALREADY_EXIST key value
  | .remove key => do
    let _ ← m.borrow ENOT_FOUND key
    return m.erase key
  | .write key value => do
    let _ ← m.borrow ENOT_FOUND key
    return m.insert key value
  | .writeWithDefault key _ value => .ok (m.insert key value)
  | .upsert key value => .ok (m.insert key value)
  | .clear => .ok ∅
  | .updateSplitLoadThreshold splitLoadThreshold => do
    Checked.require (splitLoadThreshold ≤ 100 ∧ splitLoadThreshold > 0)
      EINVALID_LOAD_THRESHOLD_PERCENT
    return m
  | .updateTargetBucketSize targetBucketSize => do
    Checked.require (targetBucketSize > 0) EINVALID_TARGET_BUCKET_SIZE
    return m

abbrev run (natives : Natives K V) : SmartTable K V → List (Op K V) → SmartTable K V :=
  Transactions.run (exec natives)

abbrev history (natives : Natives K V) :
    SmartTable K V → List (Op K V) → List (Transactions.Event (SmartTable K V) (Op K V)) :=
  Transactions.history (exec natives)

/-- The map that the operations a table has accepted build. -/
def built (natives : Natives K V) (t : SmartTable K V) (ops : List (Op K V)) : Table K V :=
  Transactions.run mapExec ∅ ((history natives t ops).map Transactions.Event.act)

/-- An operation that would put one more entry into a bucket that takes no more. -/
def Blocked (natives : Natives K V) (s : Shape) (m : Table K V) : Op K V → Prop
  | .add key _ => Full natives s m key
  | .writeWithDefault key _ _ => m.lookup key = none ∧ Full natives s m key
  | .upsert key _ => m.lookup key = none ∧ Full natives s m key
  | _ => False

/-- The load, in percent, at which a bucket of the table is due to be split. -/
def limit (t : SmartTable K V) : ℕ := t.splitLoadThreshold * t.targetBucketSize

/-- The buckets hold less than the limit on average, or than one entry if that is more. -/
structure Light (t : SmartTable K V) : Prop where
  load : t.size * 100 < max 100 (limit t) * t.numBuckets
  target : t.targetBucketSize = 0 → t.size = 0

variable {natives : Natives K V} {t t' : SmartTable K V} {s : Shape} {m m' : Table K V}
  {op : Op K V}

omit [DecidableEq K] in
theorem Light.mono (h : Light t) (hsize : t'.size ≤ t.size)
    (hbuckets : t'.numBuckets = t.numBuckets) (hlimit : limit t ≤ limit t')
    (htarget : t'.targetBucketSize = 0 → t.targetBucketSize = 0) : Light t' where
  load := by
    rw [hbuckets]
    calc t'.size * 100 ≤ t.size * 100 := Nat.mul_le_mul_right 100 hsize
      _ < max 100 (limit t) * t.numBuckets := h.load
      _ ≤ max 100 (limit t') * t.numBuckets :=
        Nat.mul_le_mul_right _ (max_le_max (le_refl 100) hlimit)
  target hzero := by
    have := h.target (htarget hzero)
    omega

/-- What a successful operation leaves: it adds one bucket and one entry at most, and unless it
lowers the limit it keeps the load below it. -/
structure Grown (op : Op K V) (t : SmartTable K V) (s : Shape) (t' : SmartTable K V) (s' : Shape) :
    Prop where
  buckets : s'.buckets ≤ s.buckets + 1
  size : t'.size ≤ t.size + 1
  light : Light t → (op.tunes = true → limit t ≤ limit t') → Light t'

omit [DecidableEq K] in
/-- The number of buckets and the limits are as they were, and so is the size or it is less. -/
theorem Grown.of_le (hsize : t'.size ≤ t.size) (hbuckets : t'.numBuckets = t.numBuckets)
    (hthreshold : t'.splitLoadThreshold = t.splitLoadThreshold)
    (htarget : t'.targetBucketSize = t.targetBucketSize) : Grown op t s t' s where
  buckets := Nat.le_succ _
  size := hsize.trans (Nat.le_succ _)
  light hlight _ := hlight.mono hsize hbuckets (by rw [limit, limit, hthreshold, htarget])
    fun hzero => htarget ▸ hzero

theorem write_grown {key : K} {old : V} (h : Represents natives t s m) (hs : s.buckets ≤ 2 ^ 57)
    (value : V) (hm : m.lookup key = some old) :
    ∃ put, borrowMut natives t key = .ok (old, put) ∧
      Represents natives (put value) s (m.insert key value) ∧
      ∀ op : Op K V, Grown op t s (put value) s := by
  obtain ⟨put, hborrow, hput⟩ := borrowMut_of_some h hs hm
  obtain ⟨hrep, hthreshold, htarget⟩ := hput value
  have hcard : (put value).size = t.size := by
    rw [hrep.size, h.size, Table.keys_insert,
      Finset.insert_eq_of_mem (Table.mem_keys_iff.mpr ⟨old, hm⟩)]
  exact ⟨put, hborrow, hrep, fun _ =>
    Grown.of_le hcard.le (by rw [hrep.numBuckets, h.numBuckets]) hthreshold htarget⟩

section Exec

variable (h : Represents natives t s m) (hs : s.buckets < 2 ^ 57) (hsize : t.size < 2 ^ 57)
include h hs hsize

theorem add_grown {key : K} (value : V) (hfull : ¬ Full natives s m key)
    (hm : m.lookup key = none) :
    ∃ t' s', add natives t key value = .ok t' ∧ Represents natives t' s' (m.insert key value) ∧
      ∀ op : Op K V, Grown op t s t' s' := by
  obtain ⟨t', s', hadd, hrep, hthreshold, hpos, htarget, hbuckets⟩ :=
    add_of_none value h hs hsize hfull hm
  have hcard : t'.size = t.size + 1 := by
    rw [hrep.size, h.size, Table.keys_insert, Finset.card_insert_of_notMem]
    rw [Table.mem_keys_iff, hm]
    simp
  refine ⟨t', s', hadd, hrep, fun op => ⟨?_, hcard.le, fun hlight _ => ⟨?_, ?_⟩⟩⟩
  · rw [hbuckets]
    split <;> omega
  · have hbefore : t.size * 100 < max 100 (limit t') * s.buckets := by
      by_cases hzero : t.targetBucketSize = 0
      · have hnext := s.next_lt_buckets
        rw [hlight.target hzero, Nat.zero_mul]
        exact Nat.mul_pos (by omega) (by omega)
      · have hlimit : limit t' = limit t := by
          rw [limit, limit, hthreshold, htarget hzero]
        rw [hlimit, ← h.numBuckets]
        exact hlight.load
    have hafter := LinearHashing.load_after_insert hbefore
    rw [hcard, hrep.numBuckets, hbuckets]
    rwa [limit, hthreshold] at hafter ⊢
  · intro hzero
    exact absurd hzero hpos

/-- **Where the map accepts an operation, and no bucket is full, so does the table.** -/
theorem exec_of_ok (hblocked : ¬ Blocked natives s m op) (hm : mapExec m op = .ok m') :
    ∃ t' s', exec natives t op = .ok t' ∧ Represents natives t' s' m' ∧ Grown op t s t' s' := by
  cases op with
  | add key value =>
    obtain ⟨hlookup, rfl⟩ := Table.add_eq_ok.mp hm
    obtain ⟨t', s', hadd, hrep, hgrown⟩ := add_grown h hs hsize value hblocked hlookup
    exact ⟨t', s', hadd, hrep, hgrown _⟩
  | remove key =>
    simp only [mapExec, Checked.bind_eq_ok, Table.borrow_eq_ok, Checked.pure_eq_ok] at hm
    obtain ⟨value, hlookup, rfl⟩ := hm
    obtain ⟨t', hremove, hrep, hthreshold, htarget⟩ := remove_of_some h hs.le hlookup
    have hle : t'.size ≤ t.size := by
      rw [hrep.size, h.size, Finmap.keys_erase]
      exact Finset.card_erase_le
    refine ⟨t', s, ?_, hrep, Grown.of_le hle ?_ hthreshold htarget⟩
    · rw [exec, hremove]
      rfl
    · rw [hrep.numBuckets, h.numBuckets]
  | write key value =>
    simp only [mapExec, Checked.bind_eq_ok, Table.borrow_eq_ok, Checked.pure_eq_ok] at hm
    obtain ⟨old, hlookup, rfl⟩ := hm
    obtain ⟨put, hborrow, hrep, hgrown⟩ := write_grown h hs.le value hlookup
    refine ⟨put value, s, ?_, hrep, hgrown _⟩
    rw [exec, hborrow]
    rfl
  | writeWithDefault key default value =>
    cases hm
    simp only [exec, borrowMutWithDefault, h.contains_eq hs.le, Checked.ok_bind]
    cases hlookup : m.lookup key with
    | none =>
      have hfull : ¬ Full natives s m key := fun hfull => hblocked ⟨hlookup, hfull⟩
      have habsent : ¬ m.contains key = true := by simp [Table.contains, hlookup]
      obtain ⟨t', s', hadd, hrep, hgrown⟩ :=
        add_grown h hs hsize default hfull hlookup
      have hcount := (hgrown (.writeWithDefault key default value)).buckets
      have hset : (m.insert key default).lookup key = some default := Finmap.lookup_insert m
      obtain ⟨put, hborrow, hrep', hgrown'⟩ := write_grown hrep (by omega) value hset
      have hmap : (m.insert key default).insert key value = m.insert key value :=
        Finmap.insert_insert m
      rw [hmap] at hrep'
      have hwrite := hgrown' (.writeWithDefault key default value)
      have hcard : (put value).size = t'.size := by
        rw [hrep'.size, hrep.size, Table.keys_insert, Table.keys_insert]
      refine ⟨put value, s', ?_, hrep', hcount, hcard.le.trans (hgrown (.add key value)).size,
        fun hlight _ => hwrite.light ((hgrown (.add key value)).light hlight (by
          rintro ⟨⟩)) (by rintro ⟨⟩)⟩
      rw [if_pos habsent, hadd, Checked.ok_bind, hborrow]
      rfl
    | some old =>
      have hpresent : m.contains key = true := Table.contains_eq_true.mpr ⟨old, hlookup⟩
      obtain ⟨put, hborrow, hrep, hgrown⟩ := write_grown h hs.le value hlookup
      refine ⟨put value, s, ?_, hrep, hgrown _⟩
      rw [if_neg (not_not.mpr hpresent)]
      show (borrowMut natives t key >>= _) = _
      rw [hborrow]
      rfl
  | upsert key value =>
    cases hm
    simp only [exec, upsert, h.contains_eq hs.le, Checked.ok_bind]
    cases hlookup : m.lookup key with
    | none =>
      have hfull : ¬ Full natives s m key := fun hfull => hblocked ⟨hlookup, hfull⟩
      have habsent : ¬ m.contains key = true := by simp [Table.contains, hlookup]
      obtain ⟨t', s', hadd, hrep, hgrown⟩ :=
        add_grown h hs hsize value hfull hlookup
      exact ⟨t', s', (if_pos habsent).trans hadd, hrep, hgrown _⟩
    | some old =>
      have hpresent : m.contains key = true := Table.contains_eq_true.mpr ⟨old, hlookup⟩
      obtain ⟨put, hborrow, hrep, hgrown⟩ := write_grown h hs.le value hlookup
      refine ⟨put value, s, ?_, hrep, hgrown _⟩
      rw [if_neg (not_not.mpr hpresent), hborrow]
      rfl
  | clear =>
    cases hm
    obtain ⟨t', hclear, hrep, hbuckets, hthreshold, htarget⟩ := clear_eq h
    have hzero : t'.size = 0 := hrep.size
    refine ⟨t', Shape.one, hclear, hrep, ⟨by show 1 ≤ _; omega, by omega, fun _ _ => ⟨?_, ?_⟩⟩⟩
    · rw [hzero, hbuckets]
      omega
    · exact fun _ => hzero
  | updateSplitLoadThreshold threshold =>
    simp only [mapExec, Checked.bind_eq_ok, Checked.require_eq_ok, Checked.pure_eq_ok,
      exists_const] at hm
    obtain ⟨hvalid, rfl⟩ := hm
    refine ⟨{ t with splitLoadThreshold := threshold }, s, ?_,
      ⟨h.level, h.numBuckets, h.bucket, h.absent, h.counted, h.size⟩, Nat.le_succ _, Nat.le_succ _,
      fun hlight hlimit => hlight.mono (le_refl _) rfl (hlimit rfl) id⟩
    rw [exec, updateSplitLoadThreshold, Checked.require_of hvalid]
    rfl
  | updateTargetBucketSize target =>
    simp only [mapExec, Checked.bind_eq_ok, Checked.require_eq_ok, Checked.pure_eq_ok,
      exists_const] at hm
    obtain ⟨hvalid, rfl⟩ := hm
    refine ⟨{ t with targetBucketSize := target }, s, ?_,
      ⟨h.level, h.numBuckets, h.bucket, h.absent, h.counted, h.size⟩, Nat.le_succ _, Nat.le_succ _,
      fun hlight hlimit => hlight.mono (le_refl _) rfl (hlimit rfl) fun hzero => ?_⟩
    · rw [exec, updateTargetBucketSize, Checked.require_of hvalid]
      rfl
    · exact absurd (show target = 0 from hzero) hvalid.ne'

omit hsize in
/-- Where the map refuses an operation, and no bucket is full, so does the table. -/
theorem exec_of_error {e : Abort} (hblocked : ¬ Blocked natives s m op)
    (hm : mapExec m op = .error e) : exec natives t op = .error e := by
  cases op with
  | add key value =>
    obtain ⟨⟨old, hlookup⟩, rfl⟩ := Table.add_eq_error.mp hm
    exact add_of_some value h hs.le hblocked hlookup
  | remove key =>
    obtain ⟨hlookup, rfl⟩ := Table.borrow_eq_error.mp (Checked.error_of_bind_pure hm)
    rw [exec, remove_of_none h hs.le hlookup]
    rfl
  | write key value =>
    obtain ⟨hlookup, rfl⟩ := Table.borrow_eq_error.mp (Checked.error_of_bind_pure hm)
    rw [exec, borrowMut_of_none h hs.le hlookup]
    rfl
  | writeWithDefault => cases hm
  | upsert => cases hm
  | clear => cases hm
  | updateSplitLoadThreshold threshold =>
    obtain ⟨hinvalid, rfl⟩ := Checked.require_eq_error.mp (Checked.error_of_bind_pure hm)
    rw [exec, updateSplitLoadThreshold, Checked.require_of_not hinvalid]
    rfl
  | updateTargetBucketSize target =>
    obtain ⟨hinvalid, rfl⟩ := Checked.require_eq_error.mp (Checked.error_of_bind_pure hm)
    rw [exec, updateTargetBucketSize, Checked.require_of_not hinvalid]
    rfl

omit hsize in
/-- A full bucket is the only other reason to refuse one. -/
theorem exec_of_blocked (hblocked : Blocked natives s m op) :
    exec natives t op = .error EEXCEED_MAX_BUCKET_SIZE := by
  cases op with
  | add key value => exact add_of_full value h hs.le hblocked
  | writeWithDefault key default value =>
    obtain ⟨hlookup, hfull⟩ := hblocked
    have habsent : ¬ m.contains key = true := by simp [Table.contains, hlookup]
    simp only [exec, borrowMutWithDefault, h.contains_eq hs.le, Checked.ok_bind, if_pos habsent,
      add_of_full default h hs.le hfull]
    rfl
  | upsert key value =>
    obtain ⟨hlookup, hfull⟩ := hblocked
    have habsent : ¬ m.contains key = true := by simp [Table.contains, hlookup]
    simp only [exec, upsert, h.contains_eq hs.le, Checked.ok_bind]
    exact (if_pos habsent).trans (add_of_full value h hs.le hfull)
  | remove | write | clear | updateSplitLoadThreshold | updateTargetBucketSize => cases hblocked

end Exec

/-! ## Runs -/

/-- The table represents the map, and will do so for `n` more operations. -/
def RepresentsFor (natives : Natives K V) (n : ℕ) (t : SmartTable K V) (m : Table K V) : Prop :=
  ∃ s, Represents natives t s m ∧ s.buckets + n ≤ 2 ^ 57 ∧ t.size + n ≤ 2 ^ 57

theorem RepresentsFor.exec {n : ℕ} {t₁ : SmartTable K V}
    (h : RepresentsFor natives (n + 1) t m) (hexec : exec natives t op = .ok t₁) :
    ∃ m', mapExec m op = .ok m' ∧ RepresentsFor natives n t₁ m' ∧
      (Light t → (op.tunes = true → limit t ≤ limit t₁) → Light t₁) := by
  obtain ⟨s, hrep, hbuckets, hsize⟩ := h
  have hblocked : ¬ Blocked natives s m op := by
    intro hblocked
    rw [exec_of_blocked hrep (by omega) hblocked] at hexec
    cases hexec
  cases hm : mapExec m op with
  | error e =>
    rw [exec_of_error hrep (by omega) hblocked hm] at hexec
    cases hexec
  | ok m' =>
    obtain ⟨t', s', hexec', hrep', hgrown⟩ := exec_of_ok hrep (by omega) (by omega) hblocked hm
    cases hexec.symm.trans hexec'
    have hb := hgrown.buckets
    have hz := hgrown.size
    exact ⟨m', rfl, ⟨s', hrep', by omega, by omega⟩, hgrown.light⟩

theorem RepresentsFor.skip {n : ℕ} (h : RepresentsFor natives (n + 1) t m) :
    RepresentsFor natives n t m := by
  obtain ⟨s, hrep, hbuckets, hsize⟩ := h
  exact ⟨s, hrep, by omega, by omega⟩

/-- A new table, with room for the operations to come. -/
theorem new_representsFor (natives : Natives K V) {n threshold : ℕ} (target count : ℕ)
    (hthreshold : threshold ≤ 100) (hroom : max n 2 + count ≤ 2 ^ 57) :
    ∃ t, newWithConfig n threshold target = .ok t ∧ RepresentsFor natives count t ∅ ∧
      Light t := by
  obtain ⟨t, s, hnew, hrep, hbuckets, -⟩ :=
    newWithConfig_eq natives (n := n) target (by omega) hthreshold
  have hzero : t.size = 0 := hrep.size
  have hpos := s.next_lt_buckets
  refine ⟨t, hnew, ⟨s, hrep, ?_, by omega⟩, ?_, fun _ => hzero⟩
  · rw [hbuckets]
    split <;> omega
  · rw [hzero, Nat.zero_mul, hrep.numBuckets]
    exact Nat.mul_pos (by omega) (by omega)

/-- Everything one can ask a table is answered as the map answers it. -/
structure ReadsAs (natives : Natives K V) (t : SmartTable K V) (m : Table K V) : Prop where
  contains : ∀ key, contains natives t key = .ok (m.contains key)
  borrow : ∀ key, borrow natives t key = m.borrow ENOT_FOUND key
  borrowWithDefault : ∀ key default,
    borrowWithDefault natives t key default = .ok ((m.lookup key).getD default)
  length : length t = m.keys.card
  destroyEmpty : destroyEmpty t = Checked.require (m.keys = ∅) ENOT_EMPTY
  /-- An operation is refused because a bucket is full or, if none is, as the map refuses it. -/
  refuses : ∃ s : Shape, s.level = t.level ∧ s.buckets = t.numBuckets ∧ ∀ op e,
    exec natives t op = .error e ↔ Blocked natives s m op ∧ e = EEXCEED_MAX_BUCKET_SIZE ∨
      ¬ Blocked natives s m op ∧ mapExec m op = .error e

theorem RepresentsFor.readsAs (h : RepresentsFor natives 1 t m) : ReadsAs natives t m := by
  obtain ⟨s, hrep, hbuckets, hsize⟩ := h
  have hs : s.buckets < 2 ^ 57 := by omega
  refine ⟨hrep.contains_eq hs.le, hrep.borrow_eq hs.le, hrep.borrowWithDefault_eq hs.le,
    hrep.size, destroyEmpty_eq hrep,
    s, hrep.level.symm, hrep.numBuckets.symm, fun op e => ?_⟩
  by_cases hblocked : Blocked natives s m op
  · rw [exec_of_blocked hrep hs hblocked]
    simp [hblocked, eq_comm]
  · cases hm : mapExec m op with
    | error e' =>
      rw [exec_of_error hrep hs hblocked hm]
      simp [hblocked]
    | ok m' =>
      obtain ⟨t', s', hexec, -, -⟩ := exec_of_ok hrep hs (by omega) hblocked hm
      rw [hexec]
      simp [hblocked]

omit [DecidableEq K] in
theorem threshold_of_newWithConfig {n threshold target : ℕ} {t₀ : SmartTable K V}
    (hnew : newWithConfig n threshold target = .ok t₀) : threshold ≤ 100 := by
  simp only [newWithConfig, Checked.bind_eq_ok, Checked.require_eq_ok, exists_const] at hnew
  exact hnew.1

theorem run_representsFor (natives : Natives K V) {n threshold target : ℕ} {t₀ : SmartTable K V}
    {ops : List (Op K V)} (count : ℕ) (hnew : newWithConfig n threshold target = .ok t₀)
    (hroom : max n 2 + ops.length + count ≤ 2 ^ 57) :
    RepresentsFor natives count (run natives t₀ ops) (built natives t₀ ops) := by
  obtain ⟨t₀', hnew', hrep, -⟩ := new_representsFor natives (n := n) target
    (count + ops.length) (threshold_of_newWithConfig hnew) (by omega)
  cases hnew.symm.trans hnew'
  refine Transactions.run_simulates (R := fun k => RepresentsFor natives (count + k))
    (C := fun _ _ => True) (fun k t m op t' h _ hexec => ?_) (fun k t m h => h.skip) ops hrep
    (fun _ _ => trivial)
  obtain ⟨m', hm, hrep', -⟩ := h.exec hexec
  exact ⟨m', hm, hrep'⟩

/-- **A smart table is a finite map.** After any operations, fewer than `2 ^ 57` with the initial
buckets, the table reads as the map built by the operations it accepted. -/
theorem run_readsAs (natives : Natives K V) (n threshold target : ℕ) (ops : List (Op K V))
    (hthreshold : threshold ≤ 100) (hroom : max n 2 + ops.length < 2 ^ 57) :
    ∃ t₀, newWithConfig n threshold target = .ok t₀ ∧
      ReadsAs natives (run natives t₀ ops) (built natives t₀ ops) := by
  obtain ⟨t₀, hnew, -, -⟩ :=
    new_representsFor natives (n := n) target 0 hthreshold (by omega)
  exact ⟨t₀, hnew, (run_representsFor natives 1 hnew hroom).readsAs⟩

theorem run_readsAs_test : ∃ t₀, newWithConfig 0 0 0 = .ok t₀ ∧
    ReadsAs ⟨fun key => key * 37, fun _ => 24⟩
      (run ⟨fun key => key * 37, fun _ => 24⟩ t₀ [.add 1 2, .add 1 3, .remove 5, .upsert 4 4])
      (built ⟨fun key => key * 37, fun _ => 24⟩ t₀
        [.add (1 : ℕ) (2 : ℕ), .add 1 3, .remove 5, .upsert 4 4]) :=
  run_readsAs _ 0 0 0 _ (by decide) (by decide)

/-- **One split per insertion is enough.** As long as no one lowers the limit, the buckets hold
less than it on average, or than one entry if that is more. -/
theorem load_below_limit {n threshold target : ℕ} {t₀ : SmartTable K V} {ops : List (Op K V)}
    (hnew : newWithConfig n threshold target = .ok t₀) (hroom : max n 2 + ops.length < 2 ^ 57)
    (hlimit : ∀ e ∈ history natives t₀ ops, e.act.tunes = true → limit e.pre ≤ limit e.post) :
    (run natives t₀ ops).size * 100 <
      max 100 (limit (run natives t₀ ops)) * (run natives t₀ ops).numBuckets := by
  obtain ⟨t₀', hnew', hrep, hlight⟩ := new_representsFor natives (n := n) target
    ops.length (threshold_of_newWithConfig hnew) (by omega)
  cases hnew.symm.trans hnew'
  have hrun : RepresentsFor natives 0 (run natives t₀ ops) (built natives t₀ ops) ∧
      Light (run natives t₀ ops) := Transactions.run_simulates
    (R := fun k t m => RepresentsFor natives k t m ∧ Light t)
    (C := fun t op => ∀ t', exec natives t op = .ok t' → op.tunes = true → limit t ≤ limit t')
    (fun k t m op t' h hop hexec => by
      obtain ⟨m', hm, hrep', hlight'⟩ := h.1.exec hexec
      exact ⟨m', hm, hrep', hlight' h.2 (hop t' hexec)⟩)
    (fun k t m h => ⟨h.1.skip, h.2⟩) ops ⟨hrep, hlight⟩ (fun e he t' hexec htunes => by
      cases hexec.symm.trans (Transactions.step_of_mem_history he)
      exact hlimit e he htunes)
  exact hrun.2.load

theorem load_below_limit_test : ∃ t₀, newWithConfig 0 0 0 = .ok t₀ ∧
    (run ⟨id, fun _ => 24⟩ t₀ [.add (1 : ℕ) (2 : ℕ), .remove 1, .add 3 4]).size * 100 <
      max 100 (limit (run ⟨id, fun _ => 24⟩ t₀ [.add 1 2, .remove 1, .add 3 4])) *
        (run ⟨id, fun _ => 24⟩ t₀ [.add 1 2, .remove 1, .add 3 4]).numBuckets := by
  obtain ⟨t₀, hnew, -⟩ := new_representsFor (⟨id, fun _ => 24⟩ : Natives ℕ ℕ) (n := 0) 0 3
    (Nat.zero_le 100) (by decide)
  refine ⟨t₀, hnew, load_below_limit hnew (by decide) fun e he htunes => ?_⟩
  -- none of the three operations tunes the table
  obtain ⟨bs, cs, hops, -, -⟩ := Transactions.exists_prefix_of_mem_history he
  have hmem : e.act ∈ [Op.add (1 : ℕ) (2 : ℕ), .remove 1, .add 3 4] := by
    rw [hops]
    simp
  simp only [List.mem_cons, List.not_mem_nil, or_false] at hmem
  rcases hmem with hact | hact | hact
  all_goals
    rw [hact] at htunes
    cases htunes

end SmartTable

end Pictor
