import Pictor.Property.SmartTable

/-!
# Paging through a smart table

`keys_paginated` hands out the keys page by page, and with each page the place where the next one
starts. However the pages are cut, they add up to the same list, and that list has every key of the
map once.
-/

namespace Pictor

namespace SmartTable

open LinearHashing (Shape)

variable {K V : Type}

/-- The keys of the bucket `i`. -/
def bucketKeys (t : SmartTable K V) (i : ℕ) : List K :=
  ((t.buckets.inner.lookup i).getD []).map Entry.key

/-- The keys of `n` buckets, from the bucket `i` on. -/
def keysFrom (t : SmartTable K V) : ℕ → ℕ → List K
  | 0, _ => []
  | n + 1, i => bucketKeys t i ++ keysFrom t n (i + 1)

/-- What is behind a place: the bucket `i` from index `j` on, and all buckets after it. -/
def keysBehind (t : SmartTable K V) (i j : ℕ) : List K :=
  (keysFrom t (t.numBuckets - i) i).drop j

/-- A place where `keys_paginated` may be told to start. -/
structure Place (t : SmartTable K V) (i j : ℕ) : Prop where
  bucket : i < t.numBuckets
  vector : j < (bucketKeys t i).length ∨ j = 0

/-- Reading pages of the given sizes, each from where the one before it stopped; the flag tells
whether the end was reached. -/
def readPages (t : SmartTable K V) : List ℕ → ℕ → ℕ → Result (List K × Bool)
  | [], _, _ => .ok ([], false)
  | size :: sizes, i, j => do
    let page ← keysPaginated t i j size
    match page with
    | (keys, some i, some j) => do
      let (rest, ended) ← readPages t sizes i j
      return (keys ++ rest, ended)
    | (keys, _, _) => return (keys, true)

/-! ## One page -/

/-- The inner loop takes what it can from the bucket. -/
theorem bucketKeysLoop_eq (pre rest : List (Entry K V)) (size : ℕ) (hsize : 0 < size)
    (keys : List K) :
    bucketKeysLoop (pre ++ rest) rest.length pre.length size keys =
      if size ≤ rest.length then
        .ok (keys ++ (rest.take size).map Entry.key, 0, some (pre.length + size))
      else .ok (keys ++ rest.map Entry.key, size - rest.length, none) := by
  induction rest generalizing pre size keys with
  | nil =>
    rw [List.length_nil, if_neg (Nat.not_le.mpr hsize)]
    simp [bucketKeysLoop]
  | cons e rest ih =>
    have he : (pre ++ e :: rest)[pre.length]? = some e := by simp
    rw [List.length_cons, bucketKeysLoop, MoveVector.borrow_eq_ok.mpr he, Checked.ok_bind,
      Word.sub_of hsize]
    simp only [Checked.ok_bind]
    by_cases hone : size = 1
    · subst hone
      rw [if_pos rfl, if_pos (by omega)]
      rfl
    · have hih := ih (pre ++ [e]) (size - 1) (by omega) (keys ++ [e.key])
      rw [List.append_assoc, List.singleton_append, List.length_append, List.length_singleton]
        at hih
      rw [if_neg (by omega), hih]
      by_cases hfits : size ≤ rest.length + 1
      · rw [if_pos (by omega), if_pos hfits, List.append_assoc]
        obtain ⟨k, rfl⟩ : ∃ k, size = k + 1 := ⟨size - 1, by omega⟩
        simp [Nat.add_assoc, Nat.add_comm 1]
      · rw [if_neg (by omega), if_neg hfits, List.append_assoc]
        have hsub : size - 1 - rest.length = size - (rest.length + 1) := by omega
        rw [hsub]
        rfl

/-- Where a page stopped: nowhere, if the keys ran out, and else behind the keys it has. -/
structure Stops (t : SmartTable K V) (behind : List K) (size : ℕ) (next : Option (ℕ × ℕ)) :
    Prop where
  ended : next = none → behind.length ≤ size
  place : ∀ i j, next = some (i, j) → Place t i j
  rest : ∀ i j, next = some (i, j) → keysBehind t i j = behind.drop size
  full : next ≠ none → size ≤ behind.length

section Page

variable {t : SmartTable K V}
  (hpresent : ∀ i < t.numBuckets, ∃ bucket, t.buckets.inner.lookup i = some bucket)
include hpresent

/-- **The outer loop** takes what it can from the buckets that are left. -/
theorem keysLoop_eq (n i j size : ℕ) (keys : List K) (hi : i + n = t.numBuckets)
    (hj : j ≤ (bucketKeys t i).length) (hsize : 0 < size) :
    ∃ next : Option (ℕ × ℕ), keysLoop t n i j size keys =
        .ok (keys ++ ((keysFrom t n i).drop j).take size, next.map Prod.fst, next.map Prod.snd) ∧
      Stops t ((keysFrom t n i).drop j) size next := by
  induction n generalizing i j size keys with
  | zero =>
    refine ⟨none, by simp [keysLoop, keysFrom], ⟨fun _ => by simp [keysFrom], ?_, ?_, ?_⟩⟩
    all_goals simp
  | succ n ih =>
    obtain ⟨bucket, hlookup⟩ := hpresent i (by omega)
    have hkeys : bucketKeys t i = bucket.map Entry.key := by
      rw [bucketKeys, hlookup, Option.getD_some]
    rw [hkeys, List.length_map] at hj
    obtain ⟨pre, rest, rfl, rfl⟩ : ∃ pre rest, bucket = pre ++ rest ∧ j = pre.length :=
      ⟨bucket.take j, bucket.drop j, (List.take_append_drop j bucket).symm,
        (List.length_take_of_le hj).symm⟩
    have hbehind : (keysFrom t (n + 1) i).drop pre.length =
        rest.map Entry.key ++ keysFrom t n (i + 1) := by
      rw [keysFrom, hkeys, List.map_append, List.append_assoc,
        List.drop_left' (List.length_map Entry.key)]
    have hcount : (pre ++ rest).length - pre.length = rest.length := by simp
    rw [hbehind, keysLoop, TableWithLength.borrow_of hlookup, Checked.ok_bind, hcount,
      bucketKeysLoop_eq pre rest size hsize keys]
    by_cases hfits : size ≤ rest.length
    · -- the page ends in this bucket
      have htake : (rest.map Entry.key ++ keysFrom t n (i + 1)).take size =
          (rest.take size).map Entry.key := by
        rw [List.take_append_of_le_length (by simpa using hfits), List.map_take]
      have hlong : size ≤ (rest.map Entry.key ++ keysFrom t n (i + 1)).length := by
        rw [List.length_append, List.length_map]
        omega
      rw [if_pos hfits, htake, Checked.ok_bind]
      by_cases hend : pre.length + size = (pre ++ rest).length
      · have hall : size = (rest.map Entry.key).length := by
          rw [List.length_append] at hend
          rw [List.length_map]
          omega
        have hdrop : (rest.map Entry.key ++ keysFrom t n (i + 1)).drop size =
            keysFrom t n (i + 1) := by rw [hall, List.drop_left]
        by_cases hlast : i + 1 < t.numBuckets
        · refine ⟨some (i + 1, 0), ?_, ⟨by simp, ?_, ?_, fun _ => hlong⟩⟩
          · simp only [if_pos hend, if_pos hlast]
            rfl
          · rintro _ _ ⟨⟩
            exact ⟨hlast, .inr rfl⟩
          · rintro _ _ ⟨⟩
            rw [hdrop, keysBehind, List.drop_zero, show t.numBuckets - (i + 1) = n by omega]
        · obtain rfl : n = 0 := by omega
          refine ⟨none, ?_, ⟨fun _ => ?_, by simp, by simp, by simp⟩⟩
          · simp only [if_pos hend, if_neg hlast]
            rfl
          · rw [hall, keysFrom, List.append_nil]
      · have hinside : pre.length + size < (bucketKeys t i).length := by
          rw [hkeys, List.length_map, List.length_append]
          rw [List.length_append] at hend
          omega
        refine ⟨some (i, pre.length + size), ?_, ⟨by simp, ?_, ?_, fun _ => hlong⟩⟩
        · simp only [if_neg hend]
          rfl
        · rintro _ _ ⟨⟩
          exact ⟨by omega, .inl hinside⟩
        · rintro _ _ ⟨⟩
          rw [keysBehind, show t.numBuckets - i = n + 1 by omega, ← List.drop_drop, hbehind]
    · -- the bucket is used up, and the next one is read from its start
      have hlen : (rest.map Entry.key).length = rest.length := List.length_map _
      obtain ⟨next, hloop, hstops⟩ := ih (i + 1) 0 (size - rest.length)
        (keys ++ rest.map Entry.key) (by omega) (Nat.zero_le _) (by omega)
      rw [List.drop_zero] at hloop hstops
      refine ⟨next, ?_, ⟨fun hnext => ?_, hstops.place, fun i' j' hnext => ?_, fun hnext => ?_⟩⟩
      · rw [if_neg hfits, Checked.ok_bind]
        refine hloop.trans ?_
        have htake : (rest.map Entry.key).take size = rest.map Entry.key :=
          List.take_of_length_le (by omega)
        rw [List.take_append, hlen, htake, List.append_assoc]
      · have := hstops.ended hnext
        rw [List.length_append, hlen]
        omega
      · have hdrop : (rest.map Entry.key).drop size = [] := List.drop_of_length_le (by omega)
        rw [hstops.rest i' j' hnext, List.drop_append, hlen, hdrop, List.nil_append]
      · have := hstops.full hnext
        rw [List.length_append, hlen]
        omega

/-- **A page** has as many of the keys behind its place as were asked for, if there are so many,
and stops where the others are. -/
theorem keysPaginated_eq {i j : ℕ} (hplace : Place t i j) (size : ℕ) :
    ∃ next : Option (ℕ × ℕ), keysPaginated t i j size =
        .ok ((keysBehind t i j).take size, next.map Prod.fst, next.map Prod.snd) ∧
      Stops t (keysBehind t i j) size next := by
  obtain ⟨bucket, hlookup⟩ := hpresent i hplace.bucket
  have hkeys : bucketKeys t i = bucket.map Entry.key := by
    rw [bucketKeys, hlookup, Option.getD_some]
  have hvector := hplace.vector
  have hj : j < bucket.length ∨ j = 0 := by
    rwa [hkeys, List.length_map] at hvector
  simp only [keysPaginated, Checked.require_of hplace.bucket, TableWithLength.borrow_of hlookup,
    Checked.ok_bind, Checked.require_of hj]
  by_cases hsize : size = 0
  · refine ⟨some (i, j), ?_, ⟨by simp, ?_, ?_, by omega⟩⟩
    · rw [if_pos hsize, hsize, List.take_zero]
      rfl
    · rintro _ _ ⟨⟩
      exact hplace
    · rintro _ _ ⟨⟩
      rw [hsize, List.drop_zero]
  · have hbucket := hplace.bucket
    have hle : j ≤ (bucketKeys t i).length := by omega
    obtain ⟨next, hloop, hstops⟩ := keysLoop_eq hpresent (t.numBuckets - i) i j size []
      (by omega) hle (Nat.pos_of_ne_zero hsize)
    refine ⟨next, ?_, hstops⟩
    rw [if_neg hsize, hloop, List.nil_append]
    rfl

/-- **Pages of any sizes** add up to the keys behind the place they start from. -/
theorem readPages_eq (sizes : List ℕ) {i j : ℕ} (hplace : Place t i j) :
    ∃ ended, readPages t sizes i j = .ok ((keysBehind t i j).take sizes.sum, ended) ∧
      (ended = true → (keysBehind t i j).length ≤ sizes.sum) ∧
      (ended = false → sizes.sum ≤ (keysBehind t i j).length) := by
  induction sizes generalizing i j with
  | nil => exact ⟨false, by simp [readPages], by simp, by simp⟩
  | cons size sizes ih =>
    obtain ⟨next, hpage, hstops⟩ := keysPaginated_eq hpresent hplace size
    rw [readPages, hpage, List.sum_cons]
    cases hnext : next with
    | none =>
      have hended := hstops.ended hnext
      refine ⟨true, ?_, fun _ => by omega, by simp⟩
      rw [List.take_of_length_le hended, List.take_of_length_le (by omega)]
      rfl
    | some place =>
      obtain ⟨i', j'⟩ := place
      obtain ⟨ended, hrest, hyes, hno⟩ := ih (hstops.place i' j' hnext)
      have hfull := hstops.full (by simp [hnext])
      have hbehind := hstops.rest i' j' hnext
      rw [hbehind] at hrest hyes hno
      rw [List.length_drop] at hyes hno
      refine ⟨ended, ?_, fun h => ?_, fun h => ?_⟩
      · simp only [Option.map_some, Checked.ok_bind, hrest]
        rw [List.take_add]
        rfl
      · have := hyes h
        omega
      · have := hno h
        omega

end Page

/-! ## All the keys -/

section Represents

variable [DecidableEq K] {natives : Natives K V} {t : SmartTable K V} {s : Shape} {m : Table K V}
  (h : Represents natives t s m)
include h

theorem mem_bucketKeys {i : ℕ} (hi : i < s.buckets) {key : K} :
    key ∈ bucketKeys t i ↔ key ∈ m.keys ∧ s.index (natives.sipHashFromValue key) = i := by
  obtain ⟨bucket, hlookup, hholds⟩ := h.bucket i hi
  rw [bucketKeys, hlookup, Option.getD_some, List.mem_map, Table.mem_keys_iff]
  constructor
  · rintro ⟨e, he, rfl⟩
    obtain ⟨hhash, hindex, hvalue⟩ := (hholds.mem_iff e).mp he
    exact ⟨⟨e.value, hvalue⟩, hhash ▸ hindex⟩
  · rintro ⟨⟨value, hvalue⟩, hindex⟩
    exact ⟨_, (hholds.mem_iff ⟨_, key, value⟩).mpr ⟨rfl, hindex, hvalue⟩, rfl⟩

theorem nodup_bucketKeys {i : ℕ} (hi : i < s.buckets) : (bucketKeys t i).Nodup := by
  obtain ⟨bucket, hlookup, hholds⟩ := h.bucket i hi
  rw [bucketKeys, hlookup, Option.getD_some]
  exact hholds.nodup

/-- The buckets share no key, so `n` of them have each of theirs once. -/
theorem keysFrom_spec (n i : ℕ) (hi : i + n ≤ s.buckets) : (keysFrom t n i).Nodup ∧
    ∀ key, key ∈ keysFrom t n i ↔ key ∈ m.keys ∧
      i ≤ s.index (natives.sipHashFromValue key) ∧
      s.index (natives.sipHashFromValue key) < i + n := by
  induction n generalizing i with
  | zero => exact ⟨List.nodup_nil, fun key => by simp [keysFrom]⟩
  | succ n ih =>
    obtain ⟨hnodup, hmem⟩ := ih (i + 1) (by omega)
    have hfirst : ∀ key, key ∈ bucketKeys t i ↔ key ∈ m.keys ∧
        s.index (natives.sipHashFromValue key) = i := fun key => mem_bucketKeys h (by omega)
    refine ⟨List.nodup_append'.mpr ⟨nodup_bucketKeys h (by omega), hnodup, ?_⟩, fun key => ?_⟩
    · intro key hkey hkey'
      have hhere := ((hfirst key).mp hkey).2
      have hlater := ((hmem key).mp hkey').2.1
      omega
    · rw [keysFrom, List.mem_append, hfirst, hmem]
      grind

theorem keysBehind_zero : (keysBehind t 0 0).Nodup ∧ (keysBehind t 0 0).toFinset = m.keys := by
  obtain ⟨hnodup, hmem⟩ := keysFrom_spec h s.buckets 0 (by omega)
  have hall : keysBehind t 0 0 = keysFrom t s.buckets 0 := by
    rw [keysBehind, List.drop_zero, Nat.sub_zero, h.numBuckets]
  rw [hall]
  refine ⟨hnodup, ?_⟩
  ext key
  rw [List.mem_toFinset, hmem]
  have hlt := s.index_lt (natives.sipHashFromValue key)
  constructor
  · exact fun hkey => hkey.1
  · exact fun hkey => ⟨hkey, Nat.zero_le _, by omega⟩

end Represents

/-- **Paging gives every key once.** `keys` lists the keys of the map, each once; pages of any
sizes, read one from where the other stopped, are the parts of that list, and they end where it
does. -/
theorem pages_cover [DecidableEq K] (natives : Natives K V) {n threshold target : ℕ}
    {t₀ : SmartTable K V} (ops : List (Op K V))
    (hnew : newWithConfig n threshold target = .ok t₀) (hroom : max n 2 + ops.length ≤ 2 ^ 57) :
    ∃ ks, keys (run natives t₀ ops) = .ok ks ∧ ks.Nodup ∧
      ks.toFinset = (built natives t₀ ops).keys ∧
      ∀ sizes, ∃ ended, readPages (run natives t₀ ops) sizes 0 0 =
          .ok (ks.take sizes.sum, ended) ∧
        (ended = true → ks.length ≤ sizes.sum) ∧ (ended = false → sizes.sum ≤ ks.length) := by
  obtain ⟨s, hrep, -, -⟩ := run_representsFor natives 0 hnew hroom
  have hpresent : ∀ i < (run natives t₀ ops).numBuckets, ∃ bucket,
      (run natives t₀ ops).buckets.inner.lookup i = some bucket := by
    intro i hi
    rw [hrep.numBuckets] at hi
    obtain ⟨bucket, hlookup, -⟩ := hrep.bucket i hi
    exact ⟨bucket, hlookup⟩
  have hstart : Place (run natives t₀ ops) 0 0 := by
    refine ⟨?_, .inr rfl⟩
    rw [hrep.numBuckets]
    exact Nat.zero_lt_of_lt s.next_lt_buckets
  obtain ⟨hnodup, hkeys⟩ := keysBehind_zero hrep
  refine ⟨_, ?_, hnodup, hkeys, fun sizes => readPages_eq hpresent sizes hstart⟩
  have hlength : (keysBehind (run natives t₀ ops) 0 0).length = length (run natives t₀ ops) := by
    rw [← List.toFinset_card_of_nodup hnodup, hkeys, ← hrep.size]
    rfl
  obtain ⟨next, hpage, -⟩ :=
    keysPaginated_eq hpresent hstart (length (run natives t₀ ops))
  rw [keys, hpage, ← hlength, List.take_length]
  rfl

theorem pages_cover_test : ∃ t₀, newWithConfig 0 0 0 = .ok t₀ ∧
    ∃ ks, keys (run ⟨id, fun _ => 24⟩ t₀ [.add (1 : ℕ) (2 : ℕ), .add 2 2, .remove 1]) = .ok ks ∧
      ks.Nodup ∧ ks.toFinset =
        (built ⟨id, fun _ => 24⟩ t₀ [.add (1 : ℕ) (2 : ℕ), .add 2 2, .remove 1]).keys := by
  obtain ⟨t₀, hnew, -⟩ := new_representsFor (⟨id, fun _ => 24⟩ : Natives ℕ ℕ) (n := 0) 0 3
    (Nat.zero_le 100) (by decide)
  obtain ⟨ks, hkeys, hnodup, hall, -⟩ := pages_cover ⟨id, fun _ => 24⟩
    [.add 1 2, .add 2 2, .remove 1] hnew (by decide)
  exact ⟨t₀, hnew, ks, hkeys, hnodup, hall⟩

end SmartTable

end Pictor
