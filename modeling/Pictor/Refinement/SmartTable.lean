import Pictor.Framework.SmartTable
import Pictor.Lib.Transactions

/-!
# A smart table is a finite map

What a smart table is for is the map from keys to values one reads off it. `Represents` ties the
two together: the table has the shape of a linear hash table, and each bucket holds, once each, the
entries of the map whose hash belongs there. Every function is then given by what it does to the
map; where it aborts, so would the map, except that a bucket takes 10001 entries and no more.
-/

namespace Pictor

namespace SmartTable

open LinearHashing (Shape)

variable {K V : Type} [DecidableEq K] {natives : Natives K V}

/-- A bucket with the entries of `m` whose hash belongs to `i`. -/
structure Holds (natives : Natives K V) (s : Shape) (m : Table K V) (i : ℕ)
    (bucket : List (Entry K V)) : Prop where
  nodup : (bucket.map Entry.key).Nodup
  mem_iff : ∀ e, e ∈ bucket ↔ e.hash = natives.sipHashFromValue e.key ∧ s.index e.hash = i ∧
    m.lookup e.key = some e.value

/-- The table `t`, of shape `s`, represents the map `m`. -/
structure Represents (natives : Natives K V) (t : SmartTable K V) (s : Shape) (m : Table K V) :
    Prop where
  level : t.level = s.level
  numBuckets : t.numBuckets = s.buckets
  bucket : ∀ i < s.buckets, ∃ bucket, t.buckets.inner.lookup i = some bucket ∧
    Holds natives s m i bucket
  absent : ∀ i, s.buckets ≤ i → t.buckets.inner.lookup i = none
  counted : t.buckets.length = s.buckets
  size : t.size = m.keys.card

variable {t : SmartTable K V} {s : Shape} {m : Table K V} {i : ℕ} {bucket : List (Entry K V)}

/-- Few enough buckets for their indices to be computed without overflow. -/
theorem bucketIndex_eq (s : Shape) (hs : s.buckets ≤ 2 ^ 57) (hash : ℕ) :
    bucketIndex s.level s.buckets hash = .ok (s.index hash) := by
  have hlevel := s.level_le hs
  have hbits : s.level + 1 < 2 ^ 8 := by omega
  rw [bucketIndex, Word.fit_of hbits, Checked.ok_bind, Word.shiftOne_of (by omega),
    Checked.ok_bind]
  unfold Shape.index
  dsimp only
  split
  · rfl
  · rw [Word.shiftOne_of (by omega), Checked.ok_bind, pow_succ, Nat.mod_mul_right_mod]
    rfl

/-! ## What a bucket holds -/

namespace Holds

variable {key : K} {value : V}

/-- Only the part of the map that belongs in the bucket matters. -/
theorem congr {m' : Table K V} (h : Holds natives s m i bucket)
    (hm : ∀ key, s.index (natives.sipHashFromValue key) = i → m'.lookup key = m.lookup key) :
    Holds natives s m' i bucket where
  nodup := h.nodup
  mem_iff e := by
    rw [h.mem_iff]
    constructor
    · rintro ⟨hhash, hindex, hlookup⟩
      exact ⟨hhash, hindex, hm e.key (hhash ▸ hindex) ▸ hlookup⟩
    · rintro ⟨hhash, hindex, hlookup⟩
      exact ⟨hhash, hindex, hm e.key (hhash ▸ hindex) ▸ hlookup⟩

theorem perm {bucket' : List (Entry K V)} (h : Holds natives s m i bucket)
    (hperm : bucket'.Perm bucket) : Holds natives s m i bucket' where
  nodup := (hperm.map Entry.key).nodup_iff.mpr h.nodup
  mem_iff e := hperm.mem_iff.trans (h.mem_iff e)

/-- A key that belongs in the bucket is there iff the map has it. -/
theorem forall_ne_iff (h : Holds natives s m i bucket)
    (hi : s.index (natives.sipHashFromValue key) = i) :
    (∀ e ∈ bucket, e.key ≠ key) ↔ m.lookup key = none := by
  constructor
  · intro hne
    cases hm : m.lookup key with
    | none => rfl
    | some value =>
      have he := (h.mem_iff ⟨natives.sipHashFromValue key, key, value⟩).mpr ⟨rfl, hi, hm⟩
      exact absurd rfl (hne _ he)
  · rintro hm e he rfl
    rw [((h.mem_iff e).mp he).2.2] at hm
    cases hm

/-- The entry for a key is as the map has it. -/
theorem entry_eq (h : Holds natives s m i bucket) {e : Entry K V} (he : e ∈ bucket)
    (hkey : e.key = key) (hm : m.lookup key = some value) :
    e = ⟨natives.sipHashFromValue key, key, value⟩ := by
  obtain ⟨hhash, -, hlookup⟩ := (h.mem_iff e).mp he
  rw [hkey] at hhash hlookup
  exact Entry.ext hhash hkey (Option.some.inj (hlookup.symm.trans hm))

/-- One more entry. -/
theorem concat (h : Holds natives s m i bucket) (value : V)
    (hi : s.index (natives.sipHashFromValue key) = i) (hm : m.lookup key = none) :
    Holds natives s (m.insert key value) i
      (bucket ++ [⟨natives.sipHashFromValue key, key, value⟩]) where
  nodup := by
    have hne := (h.forall_ne_iff hi).mpr hm
    have hnotMem : key ∉ bucket.map Entry.key := by
      intro hmem
      obtain ⟨e, he, hkey⟩ := List.mem_map.mp hmem
      exact hne e he hkey
    rw [List.map_append, List.map_singleton, ← List.concat_eq_append]
    exact h.nodup.concat hnotMem
  mem_iff e := by
    rw [List.mem_append, List.mem_singleton, h.mem_iff, Table.lookup_insert_ite]
    split
    · next hkey =>
      constructor
      · rintro (⟨-, -, hlookup⟩ | rfl)
        · rw [hkey, hm] at hlookup
          cases hlookup
        · exact ⟨rfl, hi, rfl⟩
      · rintro ⟨hhash, -, hvalue⟩
        exact .inr (Entry.ext (hkey ▸ hhash) hkey (Option.some.inj hvalue).symm)
    · next hkey =>
      refine or_iff_left ?_
      rintro rfl
      exact hkey rfl

/-- One entry less. -/
theorem uncons {e : Entry K V} (h : Holds natives s m i (e :: bucket)) :
    Holds natives s (m.erase e.key) i bucket where
  nodup := (List.nodup_cons.mp h.nodup).2
  mem_iff e' := by
    have hnotMem : e.key ∉ bucket.map Entry.key := (List.nodup_cons.mp h.nodup).1
    have hmem := h.mem_iff e'
    by_cases hkey : e'.key = e.key
    · rw [hkey, Finmap.lookup_erase]
      simp only [reduceCtorEq, and_false, iff_false]
      intro he'
      exact hnotMem (hkey ▸ List.mem_map_of_mem he')
    · rw [Finmap.lookup_erase_ne hkey, ← hmem, List.mem_cons]
      refine (or_iff_right ?_).symm
      rintro rfl
      exact hkey rfl

/-- Another value for a key. -/
theorem set {j : ℕ} (h : Holds natives s m i bucket)
    (hi : s.index (natives.sipHashFromValue key) = i)
    (he : bucket[j]? = some ⟨natives.sipHashFromValue key, key, value⟩) (value' : V) :
    Holds natives s (m.insert key value') i
      (bucket.set j ⟨natives.sipHashFromValue key, key, value'⟩) := by
  -- taking the entry out and putting the new one in is the same, up to the order
  obtain ⟨hj, hget⟩ := List.getElem?_eq_some_iff.mp he
  have hfront := List.getElem_cons_eraseIdx_perm hj
  rw [hget] at hfront
  have hin := (h.perm hfront).uncons.concat value' hi (Finmap.lookup_erase key m)
  have hmap : (m.erase key).insert key value' = m.insert key value' := by
    apply Finmap.ext_lookup
    intro key'
    rw [Table.lookup_insert_ite, Table.lookup_insert_ite]
    split
    · rfl
    · next hne => exact Finmap.lookup_erase_ne hne
  rw [← hmap]
  exact hin.perm ((List.set_perm_cons_eraseIdx hj _).trans (List.perm_append_singleton _ _).symm)

/-- How many entries there are. -/
theorem length_eq (h : Holds natives s m i bucket) :
    bucket.length = (m.keys.filter fun key => s.index (natives.sipHashFromValue key) = i).card := by
  have hkeys : (bucket.map Entry.key).toFinset =
      m.keys.filter fun key => s.index (natives.sipHashFromValue key) = i := by
    ext key
    rw [List.mem_toFinset, List.mem_map, Finset.mem_filter, Table.mem_keys_iff]
    constructor
    · rintro ⟨e, he, rfl⟩
      obtain ⟨hhash, hindex, hlookup⟩ := (h.mem_iff e).mp he
      exact ⟨⟨e.value, hlookup⟩, hhash ▸ hindex⟩
    · rintro ⟨⟨value, hlookup⟩, hindex⟩
      exact ⟨_, (h.mem_iff ⟨_, key, value⟩).mpr ⟨rfl, hindex, hlookup⟩, rfl⟩
  rw [← hkeys, List.toFinset_card_of_nodup h.nodup, List.length_map]

end Holds

/-! ## Looking a key up -/

/-- The scan ends at the first entry for the key. -/
theorem scan_cases (key : K) (bucket : List (Entry K V)) (n : ℕ) :
    (∀ e ∈ bucket, e.key ≠ key) ∧ scan key bucket n = .error ENOT_FOUND ∨
    ∃ j e, bucket[j]? = some e ∧ e.key = key ∧ scan key bucket n = .ok (n + j, e) := by
  induction bucket generalizing n with
  | nil => exact .inl ⟨by simp, rfl⟩
  | cons e bucket ih =>
    unfold scan
    split
    · next hkey => exact .inr ⟨0, e, rfl, hkey, rfl⟩
    · next hkey =>
      rcases ih (n + 1) with ⟨hne, hscan⟩ | ⟨j, e', he', hkey', hscan⟩
      · exact .inl ⟨List.forall_mem_cons.mpr ⟨hkey, hne⟩, hscan⟩
      · refine .inr ⟨j + 1, e', by simpa using he', hkey', ?_⟩
        rw [hscan, Nat.add_right_comm, Nat.add_assoc]

namespace Represents

variable (h : Represents natives t s m) (hs : s.buckets ≤ 2 ^ 57)
include h

/-- The bucket a key belongs in. -/
theorem borrow_bucket (key : K) : ∃ bucket,
    t.buckets.borrow (s.index (natives.sipHashFromValue key)) = .ok bucket ∧
      Holds natives s m (s.index (natives.sipHashFromValue key)) bucket := by
  obtain ⟨bucket, hlookup, hholds⟩ := h.bucket _ (s.index_lt _)
  exact ⟨bucket, TableWithLength.borrow_of hlookup, hholds⟩

include hs

theorem bucketIndex_eq (key : K) :
    bucketIndex t.level t.numBuckets (natives.sipHashFromValue key) =
      .ok (s.index (natives.sipHashFromValue key)) := by
  rw [h.level, h.numBuckets]
  exact SmartTable.bucketIndex_eq s hs _

/-- `contains` is that of the map. -/
theorem contains_eq (key : K) : contains natives t key = .ok (m.contains key) := by
  obtain ⟨bucket, hborrow, hholds⟩ := h.borrow_bucket key
  simp only [contains, h.bucketIndex_eq hs, hborrow, Checked.ok_bind]
  refine congrArg Except.ok ?_
  rw [Bool.eq_iff_iff, MoveVector.any_eq_true, Table.contains_eq_true]
  constructor
  · rintro ⟨e, he, hfound⟩
    obtain ⟨-, rfl⟩ := of_decide_eq_true hfound
    exact ⟨e.value, ((hholds.mem_iff e).mp he).2.2⟩
  · rintro ⟨value, hlookup⟩
    exact ⟨⟨_, key, value⟩, (hholds.mem_iff _).mpr ⟨rfl, rfl, hlookup⟩, by simp⟩

/-- `borrow` is lookup. -/
theorem borrow_eq (key : K) : borrow natives t key = m.borrow ENOT_FOUND key := by
  obtain ⟨bucket, hborrow, hholds⟩ := h.borrow_bucket key
  simp only [borrow, h.bucketIndex_eq hs, hborrow, Checked.ok_bind]
  rcases scan_cases key bucket 0 with ⟨hne, hscan⟩ | ⟨j, e, he, rfl, hscan⟩
  · rw [hscan, Table.borrow, (hholds.forall_ne_iff rfl).mp hne]
    rfl
  · have hlookup := ((hholds.mem_iff e).mp (List.mem_of_getElem? he)).2.2
    rw [hscan, Table.borrow, hlookup]
    rfl

/-- `borrow_with_default` looks the key up and falls back. -/
theorem borrowWithDefault_eq (key : K) (default : V) :
    borrowWithDefault natives t key default = .ok ((m.lookup key).getD default) := by
  rw [borrowWithDefault, h.contains_eq hs, Checked.ok_bind, h.borrow_eq hs]
  cases hlookup : m.lookup key <;> simp [Table.contains, Table.borrow, hlookup, Checked.getOrAbort]

end Represents

/-! ## Writing -/

/-- The buckets a key does not belong in are not written. -/
theorem Represents.set (h : Represents natives t s m) {m' : Table K V} (hi : i < s.buckets)
    (hbucket : Holds natives s m' i bucket) (hother : ∀ key,
      s.index (natives.sipHashFromValue key) ≠ i → m'.lookup key = m.lookup key) (target : ℕ) :
    Represents natives { t with buckets := t.buckets.set i bucket, size := m'.keys.card,
                                targetBucketSize := target } s m' where
  level := h.level
  numBuckets := h.numBuckets
  bucket j hj := by
    show ∃ bucket', Finmap.lookup j (Finmap.insert i bucket t.buckets.inner) = some bucket' ∧ _
    rw [Table.lookup_insert_ite]
    split
    · next heq => exact ⟨bucket, rfl, heq ▸ hbucket⟩
    · next hne =>
      obtain ⟨bucket', hlookup, hholds⟩ := h.bucket j hj
      exact ⟨bucket', hlookup, hholds.congr fun key hindex => hother key (hindex ▸ hne)⟩
  absent j hj := by
    show Finmap.lookup j (Finmap.insert i bucket t.buckets.inner) = none
    rw [Table.lookup_insert_ite, if_neg (by omega)]
    exact h.absent j hj
  counted := h.counted
  size := rfl

section Write

variable {key : K} {value : V} (h : Represents natives t s m) (hs : s.buckets ≤ 2 ^ 57)
include h hs

theorem borrowMut_of_none (hm : m.lookup key = none) :
    borrowMut natives t key = .error ENOT_FOUND := by
  obtain ⟨bucket, hborrow, hholds⟩ := h.borrow_bucket key
  simp only [borrowMut, h.bucketIndex_eq hs, hborrow, Checked.ok_bind]
  rcases scan_cases key bucket 0 with ⟨-, hscan⟩ | ⟨j, e, he, hkey, -⟩
  · rw [hscan]
    rfl
  · exact absurd hkey ((hholds.forall_ne_iff rfl).mpr hm e (List.mem_of_getElem? he))

/-- **`borrow_mut`** points at the value of the key, and what is written there is what the key
then has. -/
theorem borrowMut_of_some (hm : m.lookup key = some value) :
    ∃ put, borrowMut natives t key = .ok (value, put) ∧
      ∀ value', Represents natives (put value') s (m.insert key value') ∧
        (put value').splitLoadThreshold = t.splitLoadThreshold ∧
        (put value').targetBucketSize = t.targetBucketSize := by
  obtain ⟨bucket, hborrow, hholds⟩ := h.borrow_bucket key
  simp only [borrowMut, h.bucketIndex_eq hs, hborrow, Checked.ok_bind]
  rcases scan_cases key bucket 0 with ⟨hne, -⟩ | ⟨j, e, he, hkey, hscan⟩
  · rw [(hholds.forall_ne_iff rfl).mp hne] at hm
    cases hm
  · obtain rfl := hholds.entry_eq (List.mem_of_getElem? he) hkey hm
    rw [hscan, Nat.zero_add]
    refine ⟨_, rfl, fun value' => ⟨?_, rfl, rfl⟩⟩
    have hbucket := hholds.set rfl he value'
    have hset := h.set (s.index_lt _) hbucket (fun key' hindex => by
      rw [Table.lookup_insert_ite, if_neg (by rintro rfl; exact hindex rfl)]) t.targetBucketSize
    have hsize : (Finmap.insert key value' m).keys.card = t.size := by
      rw [h.size, Table.keys_insert, Finset.insert_eq_of_mem (Table.mem_keys_iff.mpr ⟨_, hm⟩)]
    rwa [hsize] at hset

theorem remove_of_none (hm : m.lookup key = none) :
    remove natives t key = .error ENOT_FOUND := by
  obtain ⟨bucket, hborrow, hholds⟩ := h.borrow_bucket key
  simp only [remove, h.bucketIndex_eq hs, hborrow, Checked.ok_bind]
  rcases scan_cases key bucket 0 with ⟨-, hscan⟩ | ⟨j, e, he, hkey, -⟩
  · rw [hscan]
    rfl
  · exact absurd hkey ((hholds.forall_ne_iff rfl).mpr hm e (List.mem_of_getElem? he))

/-- **`remove`** returns the value of the key and takes the key out of the map. -/
theorem remove_of_some (hm : m.lookup key = some value) :
    ∃ t', remove natives t key = .ok (value, t') ∧ Represents natives t' s (m.erase key) ∧
      t'.splitLoadThreshold = t.splitLoadThreshold ∧
      t'.targetBucketSize = t.targetBucketSize := by
  obtain ⟨bucket, hborrow, hholds⟩ := h.borrow_bucket key
  simp only [remove, h.bucketIndex_eq hs, hborrow, Checked.ok_bind]
  rcases scan_cases key bucket 0 with ⟨hne, -⟩ | ⟨j, e, he, hkey, hscan⟩
  · rw [(hholds.forall_ne_iff rfl).mp hne] at hm
    cases hm
  · obtain rfl := hholds.entry_eq (List.mem_of_getElem? he) hkey hm
    obtain ⟨rest, hremove, hperm⟩ := MoveVector.swapRemove_eq he
    have hmem : key ∈ m.keys := Table.mem_keys_iff.mpr ⟨value, hm⟩
    have hpos : 1 ≤ t.size := by
      rw [h.size]
      exact Finset.card_pos.mpr ⟨key, hmem⟩
    simp only [hscan, Checked.ok_bind, Nat.zero_add, hremove, Word.sub_of hpos]
    refine ⟨_, rfl, ?_, rfl, rfl⟩
    have hset := h.set (s.index_lt _) (hholds.perm hperm.symm).uncons (fun key' hindex =>
      Finmap.lookup_erase_ne (by rintro rfl; exact hindex rfl)) t.targetBucketSize
    have hsize : (Finmap.erase key m).keys.card = t.size - 1 := by
      rw [h.size, Finmap.keys_erase, Finset.card_erase_of_mem hmem]
    rwa [hsize] at hset

end Write

/-! ## Growing -/

/-- The bucket that is split keeps the entries that do not move … -/
theorem Holds.stay {old yes : List (Entry K V)} (h : Holds natives s m s.next old)
    (hnodup : (yes.map Entry.key).Nodup)
    (hyes : ∀ e, e ∈ yes ↔ e ∈ old ∧ s.grow.index e.hash ≠ s.buckets) :
    Holds natives s.grow m s.next yes where
  nodup := hnodup
  mem_iff e := by
    rw [hyes, h.mem_iff, s.grow_index_eq_next_iff]
    tauto

/-- … and the new one gets those that do. -/
theorem Holds.move {old : List (Entry K V)} (h : Holds natives s m s.next old)
    (no : List (Entry K V)) (hnodup : (no.map Entry.key).Nodup)
    (hno : ∀ e, e ∈ no ↔ e ∈ old ∧ s.grow.index e.hash = s.buckets) :
    Holds natives s.grow m s.buckets no where
  nodup := hnodup
  mem_iff e := by
    rw [hno, h.mem_iff]
    have hfrom := s.index_of_grow_eq e.hash
    tauto

/-- The other buckets are as they were. -/
theorem Holds.grow_of_ne (h : Holds natives s m i bucket) (hi : i < s.buckets) (hne : i ≠ s.next) :
    Holds natives s.grow m i bucket where
  nodup := h.nodup
  mem_iff e := by rw [h.mem_iff, s.grow_index_eq_iff e.hash hi hne]

/-- **A split** adds a bucket and leaves the map alone. -/
theorem Represents.splitOneBucket_eq (h : Represents natives t s m) (hs : s.buckets < 2 ^ 57) :
    ∃ buckets, splitOneBucket t = .ok { t with buckets, numBuckets := s.buckets + 1,
                                               level := s.grow.level } ∧
      Represents natives { t with buckets, numBuckets := s.buckets + 1, level := s.grow.level }
        s.grow m := by
  have hnext := s.next_lt_buckets
  obtain ⟨old, hlookup, hold⟩ := h.bucket s.next hnext
  have hlevel := s.level_le hs.le
  have hgrow : s.grow.buckets ≤ 2 ^ 57 := hs
  have hpred : ∀ e : Entry K V, (do
      let index ← bucketIndex s.grow.level (s.buckets + 1) e.hash
      return decide (index ≠ s.buckets) : Result Bool) =
        .ok (decide (s.grow.index e.hash ≠ s.buckets)) := by
    intro e
    have hindex := SmartTable.bucketIndex_eq s.grow hgrow e.hash
    rw [show s.grow.buckets = s.buckets + 1 from rfl] at hindex
    rw [hindex]
    rfl
  obtain ⟨yes, no, hpartition, hyes, hno, hperm⟩ := MoveVector.partition_eq hpred old
  have hfresh : (t.buckets.inner.insert s.next yes).lookup s.buckets = none := by
    rw [Table.lookup_insert_ite, if_neg (by omega)]
    exact h.absent _ (le_refl _)
  have hadd : (t.buckets.set s.next yes).add s.buckets no.reverse =
      .ok ⟨(t.buckets.inner.insert s.next yes).insert s.buckets no.reverse, s.buckets + 1⟩ := by
    have hinner := (Table.add_eq_ok (e := tableAlreadyExists) (v := no.reverse)).mpr ⟨hfresh, rfl⟩
    rw [TableWithLength.add, TableWithLength.set_inner, hinner, Checked.ok_bind,
      TableWithLength.set_length, h.counted, Word.fit_of (by omega)]
    rfl
  refine ⟨⟨(t.buckets.inner.insert s.next yes).insert s.buckets no.reverse, s.buckets + 1⟩, ?_, ?_⟩
  · have hbase : Word.shiftOne s.level = .ok (2 ^ s.level) := Word.shiftOne_of (by omega)
    have hcount : Word.fit 64 (s.buckets + 1) = .ok (s.buckets + 1) := Word.fit_of (by omega)
    have hfollow : Word.fit 64 (s.next + 1) = .ok (s.next + 1) := Word.fit_of (by omega)
    have hrise : Word.fit 8 (s.level + 1) = .ok (s.level + 1) := Word.fit_of (by omega)
    simp only [splitOneBucket, h.level, h.numBuckets, hbase, hcount, hfollow, Checked.ok_bind,
      s.xor_eq_next, TableWithLength.borrow_of hlookup]
    by_cases hfull : s.next + 1 = 2 ^ s.level
    · have hlevel' : s.grow.level = s.level + 1 := if_pos hfull
      rw [hlevel'] at hpartition ⊢
      simp only [if_pos hfull, hrise, Checked.ok_bind, hpartition, MoveVector.trimReverse_eq, hadd]
      rfl
    · have hlevel' : s.grow.level = s.level := if_neg hfull
      rw [hlevel'] at hpartition ⊢
      simp only [if_neg hfull, pure_bind, hpartition, Checked.ok_bind, MoveVector.trimReverse_eq,
        hadd]
      rfl
  · have hnodup := ((hperm.map Entry.key).nodup_iff.mpr hold.nodup)
    rw [List.map_append, List.nodup_append] at hnodup
    have hmem : ∀ e, e ∈ old ↔ e ∈ yes ∨ e ∈ no := fun e => by
      rw [← hperm.mem_iff, List.mem_append]
    have hstay := hold.stay hnodup.1 (fun e => by grind)
    have hmove := hold.move no.reverse
      (by rw [List.map_reverse, List.nodup_reverse]; exact hnodup.2.1) (fun e => by grind)
    exact
      { level := rfl
        numBuckets := rfl
        counted := rfl
        size := h.size
        bucket := fun j hj => by
          show ∃ bucket, ((t.buckets.inner.insert s.next yes).insert s.buckets no.reverse).lookup j =
            some bucket ∧ _
          rw [Table.lookup_insert_ite, Table.lookup_insert_ite]
          have hj : j < s.buckets + 1 := hj
          split
          · next heq => exact ⟨_, rfl, heq ▸ hmove⟩
          · next hne =>
            split
            · next heq => exact ⟨_, rfl, heq ▸ hstay⟩
            · next hne' =>
              obtain ⟨bucket, hlookup', hholds⟩ := h.bucket j (by omega)
              exact ⟨bucket, hlookup', hholds.grow_of_ne (by omega) hne'⟩
        absent := fun j hj => by
          have hj : s.buckets + 1 ≤ j := hj
          show ((t.buckets.inner.insert s.next yes).insert s.buckets no.reverse).lookup j = none
          rw [Table.lookup_insert_ite, Table.lookup_insert_ite, if_neg (by omega),
            if_neg (by omega)]
          exact h.absent j (by omega) }

/-- The bucket of the key has all the entries it takes. -/
def Full (natives : Natives K V) (s : Shape) (m : Table K V) (key : K) : Prop :=
  10000 < (m.keys.filter fun key' => s.index (natives.sipHashFromValue key') =
    s.index (natives.sipHashFromValue key)).card

omit [DecidableEq K] in
/-- A map with no more entries than one bucket takes is never refused for want of room. -/
theorem not_full_of_card_le {key : K} (hm : m.keys.card ≤ 10000) : ¬ Full natives s m key :=
  Nat.not_lt.mpr ((Finset.card_filter_le _ _).trans hm)

omit [DecidableEq K] in
/-- The load factor, compared without rounding. -/
theorem loadFactor_eq (hpercent : t.size * 100 < 2 ^ 64) (hbuckets : t.numBuckets ≠ 0)
    (htarget : t.targetBucketSize ≠ 0) : ∃ load, loadFactor t = .ok load ∧
      ∀ threshold, threshold ≤ load ↔
        ¬ t.size * 100 < threshold * t.targetBucketSize * t.numBuckets := by
  refine ⟨t.size * 100 / t.numBuckets / t.targetBucketSize, ?_, fun threshold => ?_⟩
  · rw [loadFactor, Word.fit_of hpercent, Checked.ok_bind, Word.div_of hbuckets, Checked.ok_bind,
      Word.div_of htarget]
  · have hpos : 0 < t.numBuckets * t.targetBucketSize :=
      Nat.mul_pos (Nat.pos_of_ne_zero hbuckets) (Nat.pos_of_ne_zero htarget)
    rw [Nat.div_div_eq_div_mul, Nat.le_div_iff_mul_le hpos, Nat.not_lt, Nat.mul_assoc,
      Nat.mul_comm t.targetBucketSize]

section Add

variable {key : K} (value : V) (h : Represents natives t s m)
include h

theorem add_of_full (hs : s.buckets ≤ 2 ^ 57) (hfull : Full natives s m key) :
    add natives t key value = .error EEXCEED_MAX_BUCKET_SIZE := by
  obtain ⟨bucket, hborrow, hholds⟩ := h.borrow_bucket key
  have hlong : ¬ bucket.length ≤ 10000 := by
    rw [hholds.length_eq]
    exact Nat.not_le.mpr hfull
  simp only [add, h.bucketIndex_eq hs, hborrow, Checked.ok_bind, Checked.require_of_not hlong]
  rfl

theorem add_of_some (hs : s.buckets ≤ 2 ^ 57) (hfull : ¬ Full natives s m key) {old : V}
    (hm : m.lookup key = some old) : add natives t key value = .error EALREADY_EXIST := by
  obtain ⟨bucket, hborrow, hholds⟩ := h.borrow_bucket key
  have hshort : bucket.length ≤ 10000 := by
    rw [hholds.length_eq]
    exact Nat.not_lt.mp hfull
  have hfound : ¬ MoveVector.all (fun e => decide (e.key ≠ key)) bucket = true := by
    rw [MoveVector.all_eq_true]
    intro hall
    have hnone := (hholds.forall_ne_iff rfl).mp fun e he => of_decide_eq_true (hall e he)
    rw [hm] at hnone
    cases hnone
  simp only [add, h.bucketIndex_eq hs, hborrow, Checked.ok_bind, Checked.require_of hshort,
    Checked.require_of_not hfound]
  rfl

/-- **`add`** of a new key, where there is room: the key is in the map, and there is one bucket
more when the load has reached the threshold. -/
theorem add_of_none (hs : s.buckets < 2 ^ 57) (hsize : t.size < 2 ^ 57)
    (hfull : ¬ Full natives s m key) (hm : m.lookup key = none) :
    ∃ t' s', add natives t key value = .ok t' ∧ Represents natives t' s' (m.insert key value) ∧
      t'.splitLoadThreshold = t.splitLoadThreshold ∧ t'.targetBucketSize ≠ 0 ∧
      (t.targetBucketSize ≠ 0 → t'.targetBucketSize = t.targetBucketSize) ∧
      s'.buckets = if (t.size + 1) * 100 <
          t.splitLoadThreshold * t'.targetBucketSize * s.buckets then s.buckets
        else s.buckets + 1 := by
  obtain ⟨bucket, hborrow, hholds⟩ := h.borrow_bucket key
  have hshort : bucket.length ≤ 10000 := by
    rw [hholds.length_eq]
    exact Nat.not_lt.mp hfull
  have hnew : MoveVector.all (fun e => decide (e.key ≠ key)) bucket = true :=
    MoveVector.all_eq_true.mpr fun e he =>
      decide_eq_true ((hholds.forall_ne_iff rfl).mpr hm e he)
  have hcount : Word.fit 64 (t.size + 1) = .ok (t.size + 1) := Word.fit_of (by omega)
  simp only [add, h.bucketIndex_eq hs.le, hborrow, Checked.ok_bind, Checked.require_of hshort,
    Checked.require_of hnew, hcount]
  generalize htarget : (if t.targetBucketSize = 0 then
    max (1024 / max (natives.sizeOfVal ⟨natives.sipHashFromValue key, key, value⟩) 1) 1
    else t.targetBucketSize) = target
  have hpos : target ≠ 0 := by
    rw [← htarget]
    split
    · omega
    · assumption
  have hkept : t.targetBucketSize ≠ 0 → target = t.targetBucketSize := fun hne => by
    rw [← htarget, if_neg hne]
  have hset := h.set (s.index_lt _) (hholds.concat value rfl hm) (fun key' hindex => by
    rw [Table.lookup_insert_ite, if_neg (by rintro rfl; exact hindex rfl)]) target
  have hcard : (Finmap.insert key value m).keys.card = t.size + 1 := by
    rw [h.size, Table.keys_insert, Finset.card_insert_of_notMem]
    intro hmem
    obtain ⟨old, hold⟩ := Table.mem_keys_iff.mp hmem
    rw [hm] at hold
    cases hold
  rw [hcard] at hset
  obtain ⟨load, hload, hreached⟩ := loadFactor_eq (t := { t with
      buckets := t.buckets.set _ (bucket ++ [⟨natives.sipHashFromValue key, key, value⟩]),
      size := t.size + 1, targetBucketSize := target })
    (by show (t.size + 1) * 100 < 2 ^ 64; omega)
    (by have := s.next_lt_buckets; show t.numBuckets ≠ 0; rw [h.numBuckets]; omega) hpos
  have hreached := hreached t.splitLoadThreshold
  simp only [h.numBuckets] at hreached
  rw [hload, Checked.ok_bind]
  by_cases hgrow : t.splitLoadThreshold ≤ load
  · obtain ⟨buckets, hsplit, hgrown⟩ := hset.splitOneBucket_eq hs
    refine ⟨_, s.grow, (if_pos hgrow).trans hsplit, hgrown, rfl, hpos, hkept, ?_⟩
    exact (if_neg (hreached.mp hgrow)).symm
  · refine ⟨_, s, if_neg hgrow, hset, rfl, hpos, hkept, ?_⟩
    exact (if_pos (not_not.mp fun hlight => hgrow (hreached.mpr hlight))).symm

end Add

/-! ## New and emptied tables -/

theorem splitLoop_eq (h : Represents natives t s m) (n : ℕ) (hs : s.buckets + n ≤ 2 ^ 57) :
    ∃ t' s', splitLoop n t = .ok t' ∧ Represents natives t' s' m ∧ s'.buckets = s.buckets + n ∧
      t'.splitLoadThreshold = t.splitLoadThreshold ∧
      t'.targetBucketSize = t.targetBucketSize := by
  induction n generalizing t s with
  | zero => exact ⟨t, s, rfl, h, rfl, rfl, rfl⟩
  | succ n ih =>
    obtain ⟨buckets, hsplit, hgrown⟩ := h.splitOneBucket_eq (by omega)
    have hcount : s.grow.buckets = s.buckets + 1 := rfl
    obtain ⟨t', s', hloop, hrep, hbuckets, hthreshold, htarget⟩ := ih hgrown (by omega)
    refine ⟨t', s', ?_, hrep, by omega, hthreshold, htarget⟩
    rw [splitLoop, hsplit, Checked.ok_bind, hloop]

theorem holds_nil (s : Shape) (i : ℕ) : Holds natives s ∅ i [] where
  nodup := List.nodup_nil
  mem_iff e := by simp

theorem Holds.eq_nil (h : Holds natives s m i bucket) (hm : m.keys = ∅) : bucket = [] := by
  apply List.eq_nil_iff_forall_not_mem.mpr
  intro e he
  have hkey : e.key ∈ m.keys := Table.mem_keys_iff.mpr ⟨e.value, ((h.mem_iff e).mp he).2.2⟩
  rw [hm] at hkey
  exact Finset.notMem_empty _ hkey

/-- One empty bucket represents the empty map. -/
theorem represents_empty (natives : Natives K V)
    (buckets : TableWithLength ℕ (List (Entry K V)))
    (hbuckets : ∀ j, buckets.inner.lookup j = if j = 0 then some [] else none)
    (hlength : buckets.length = 1) (threshold target : ℕ) :
    Represents natives ⟨buckets, 1, 0, 0, threshold, target⟩ Shape.one ∅ where
  level := rfl
  numBuckets := rfl
  bucket j hj := ⟨[], by rw [hbuckets, if_pos (Nat.lt_one_iff.mp hj)], holds_nil _ _⟩
  absent j hj := by
    have hj : 1 ≤ j := hj
    rw [hbuckets, if_neg (by omega)]
  counted := hlength
  size := rfl

/-- **`new_with_config`** makes an empty map. -/
theorem newWithConfig_eq (natives : Natives K V) {n threshold : ℕ} (target : ℕ)
    (hn : n ≤ 2 ^ 57) (hthreshold : threshold ≤ 100) :
    ∃ t s, newWithConfig n threshold target = .ok t ∧ Represents natives t s ∅ ∧
      s.buckets = (if n = 0 then 2 else n) ∧
      t.splitLoadThreshold = (if threshold = 0 then 75 else threshold) ∧
      t.targetBucketSize = target := by
  have hadd : TableWithLength.new.add 0 [] =
      .ok (⟨Finmap.insert 0 [] ∅, 1⟩ : TableWithLength ℕ (List (Entry K V))) := rfl
  have hempty := represents_empty natives ⟨Finmap.insert 0 [] ∅, 1⟩
    (fun j => by rw [Table.lookup_insert_ite, Finmap.lookup_empty]) rfl
    (if threshold = 0 then 75 else threshold) target
  have hone : Shape.one.buckets = 1 := rfl
  simp only [newWithConfig, Checked.require_of hthreshold, Checked.ok_bind, hadd]
  obtain ⟨t, s, hloop, hrep, hbuckets, hconfig⟩ :=
    splitLoop_eq hempty ((if n = 0 then 2 else n) - 1) (by split <;> omega)
  refine ⟨t, s, hloop, hrep, ?_, hconfig⟩
  rw [hbuckets, hone]
  split <;> omega

omit [DecidableEq K] in
/-- The loop of `clear` removes the buckets it passes. -/
theorem clearLoop_eq (n i : ℕ) (buckets : TableWithLength ℕ (List (Entry K V)))
    (hbuckets : ∀ j, i ≤ j → j < i + n → ∃ bucket, buckets.inner.lookup j = some bucket)
    (hlength : n ≤ buckets.length) : ∃ buckets', clearLoop n i buckets = .ok buckets' ∧
      (∀ j, buckets'.inner.lookup j =
        if i ≤ j ∧ j < i + n then none else buckets.inner.lookup j) ∧
      buckets'.length + n = buckets.length := by
  induction n generalizing i buckets with
  | zero => exact ⟨buckets, rfl, fun j => by rw [if_neg (by omega)], rfl⟩
  | succ n ih =>
    obtain ⟨bucket, hlookup⟩ := hbuckets i (le_refl i) (by omega)
    have hremove := TableWithLength.remove_eq_ok.mpr ⟨hlookup, by omega, rfl⟩
    obtain ⟨buckets', hloop, hrest, hcount⟩ := ih (i + 1)
      ⟨buckets.inner.erase i, buckets.length - 1⟩ (fun j hj hj' => by
        rw [Finmap.lookup_erase_ne (by omega)]
        exact hbuckets j (by omega) (by omega)) (by show n ≤ buckets.length - 1; omega)
    have hcount : buckets'.length + n = buckets.length - 1 := hcount
    refine ⟨buckets', ?_, fun j => ?_, by omega⟩
    · rw [clearLoop, hremove]
      exact hloop
    · rw [hrest]
      by_cases hji : j = i
      · subst hji
        rw [if_neg (by omega), if_pos (by omega)]
        exact Finmap.lookup_erase j _
      · rw [Finmap.lookup_erase_ne hji]
        have hiff : i + 1 ≤ j ∧ j < i + 1 + n ↔ i ≤ j ∧ j < i + (n + 1) := by omega
        simp only [hiff]

/-- **`clear`** leaves an empty map. -/
theorem clear_eq (h : Represents natives t s m) :
    ∃ t', clear t = .ok t' ∧ Represents natives t' Shape.one ∅ ∧ t'.numBuckets = 1 ∧
      t'.splitLoadThreshold = t.splitLoadThreshold ∧
      t'.targetBucketSize = t.targetBucketSize := by
  have hpos : 0 < s.buckets := Nat.zero_lt_of_lt s.next_lt_buckets
  obtain ⟨bucket, hlookup, -⟩ := h.bucket 0 hpos
  obtain ⟨buckets, hloop, hrest, hcount⟩ := clearLoop_eq (s.buckets - 1) 1
    (t.buckets.set 0 []) (fun j hj hj' => by
      obtain ⟨bucket, hj, -⟩ := h.bucket j (by omega)
      exact ⟨bucket, by rw [TableWithLength.set_inner, Table.lookup_insert_ite,
        if_neg (by omega), hj]⟩)
    (by rw [TableWithLength.set_length, h.counted]; omega)
  rw [TableWithLength.set_length, h.counted] at hcount
  simp only [clear, TableWithLength.borrow_of hlookup, Checked.ok_bind, h.numBuckets, hloop]
  refine ⟨_, rfl, represents_empty natives _ (fun j => ?_) (by omega) _ _, rfl, rfl, rfl⟩
  rw [hrest, TableWithLength.set_inner, Table.lookup_insert_ite]
  by_cases hzero : j = 0
  · rw [if_neg (by omega), if_pos hzero, if_pos hzero]
  · rw [if_neg hzero, if_neg hzero]
    split
    · rfl
    · exact h.absent j (by omega)

omit [DecidableEq K] in
/-- The loop of `destroy_empty` passes empty buckets as that of `clear` does. -/
theorem destroyLoop_eq_clearLoop (n i : ℕ) {buckets : TableWithLength ℕ (List (Entry K V))}
    (hempty : ∀ j bucket, buckets.inner.lookup j = some bucket → bucket = []) :
    destroyLoop n i buckets = clearLoop n i buckets := by
  induction n generalizing i buckets with
  | zero => rfl
  | succ n ih =>
    rw [destroyLoop, clearLoop]
    cases hremove : buckets.remove i with
    | error e => rfl
    | ok removed =>
      obtain ⟨bucket, rest⟩ := removed
      obtain ⟨hlookup, -, rfl⟩ := TableWithLength.remove_eq_ok.mp hremove
      obtain rfl := hempty i bucket hlookup
      refine ih (i + 1) fun j bucket hj => ?_
      by_cases hji : j = i
      · rw [hji, Finmap.lookup_erase] at hj
        cases hj
      · rw [Finmap.lookup_erase_ne hji] at hj
        exact hempty j bucket hj

/-- **`destroy_empty`** does what its name says, and leaves nothing behind. -/
theorem destroyEmpty_eq (h : Represents natives t s m) :
    destroyEmpty t = Checked.require (m.keys = ∅) ENOT_EMPTY := by
  have hzero : t.size = 0 ↔ m.keys = ∅ := by rw [h.size, Finset.card_eq_zero]
  by_cases hkeys : m.keys = ∅
  · obtain ⟨buckets, hloop, -, hcount⟩ := clearLoop_eq s.buckets 0 t.buckets
      (fun j _ hj => by
        obtain ⟨bucket, hlookup, -⟩ := h.bucket j (by omega)
        exact ⟨bucket, hlookup⟩) h.counted.ge
    have hempty : ∀ j bucket, t.buckets.inner.lookup j = some bucket → bucket = [] := by
      intro j bucket hlookup
      by_cases hj : j < s.buckets
      · obtain ⟨bucket', hlookup', hholds⟩ := h.bucket j hj
        cases hlookup.symm.trans hlookup'
        exact hholds.eq_nil hkeys
      · rw [h.absent j (Nat.not_lt.mp hj)] at hlookup
        cases hlookup
    have hnone : buckets.length = 0 := by
      rw [h.counted] at hcount
      omega
    rw [destroyEmpty, Checked.require_of (hzero.mpr hkeys), Checked.ok_bind, h.numBuckets,
      destroyLoop_eq_clearLoop _ _ hempty, hloop, Checked.ok_bind, Checked.require_of hkeys]
    exact Checked.require_of hnone
  · rw [destroyEmpty, Checked.require_of_not (mt hzero.mp hkeys), Checked.require_of_not hkeys]
    rfl

end SmartTable

end Pictor
