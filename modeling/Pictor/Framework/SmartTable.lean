import Pictor.Lib.LinearHashing
import Pictor.Framework.Vector

/-!
# `aptos_std::smart_table`

The hash table in which the package manager keeps the addresses the contract has registered. Its
buckets are vectors in a `table_with_length`; it grows one bucket at a time, and which bucket is
split depends on their number alone.

Numbers are natural numbers here, and what has to fit a machine word is checked where the source
computes it. A `&mut` into the table is the value it points at together with what the table
becomes when another one is written there.
-/

namespace Pictor

namespace Word

/-- A value of `bits` bits, or an overflow. -/
def fit (bits n : ℕ) : Result ℕ := do
  Checked.require (n < 2 ^ bits) .arithmeticError
  return n

/-- `1 << k` in 64 bits. -/
def shiftOne (k : ℕ) : Result ℕ := do
  Checked.require (k < 64) .arithmeticError
  return 2 ^ k

/-- `a - b`, aborting on underflow. -/
def sub (a b : ℕ) : Result ℕ := do
  Checked.require (b ≤ a) .arithmeticError
  return a - b

/-- `a / b`, aborting on division by zero. -/
def div (a b : ℕ) : Result ℕ := do
  Checked.require (b ≠ 0) .arithmeticError
  return a / b

theorem fit_of {bits n : ℕ} (h : n < 2 ^ bits) : fit bits n = .ok n := by
  simp [fit, Checked.require_of h, pure, Except.pure]

theorem shiftOne_of {k : ℕ} (h : k < 64) : shiftOne k = .ok (2 ^ k) := by
  simp [shiftOne, Checked.require_of h, pure, Except.pure]

theorem sub_of {a b : ℕ} (h : b ≤ a) : sub a b = .ok (a - b) := by
  simp [sub, Checked.require_of h, pure, Except.pure]

theorem div_of {a b : ℕ} (h : b ≠ 0) : div a b = .ok (a / b) := by
  simp [div, h, Checked.require, pure, Except.pure]

end Word

/-! ## `aptos_std::table_with_length` -/

structure TableWithLength (K V : Type) where
  inner : Table K V
  length : ℕ

namespace TableWithLength

variable {K V : Type} [DecidableEq K]

/-- `error::invalid_state(ENOT_EMPTY)`, raised by the table of the buckets. -/
def ENOT_EMPTY : Abort := .code .tableWithLength (Error.canonical 0x3 102)

def new : TableWithLength K V := ⟨∅, 0⟩

def destroyEmpty (t : TableWithLength K V) : Result Unit :=
  Checked.require (t.length = 0) ENOT_EMPTY

def add (t : TableWithLength K V) (key : K) (val : V) : Result (TableWithLength K V) := do
  let inner ← t.inner.add tableAlreadyExists key val
  let length ← Word.fit 64 (t.length + 1)
  return { inner, length }

def borrow (t : TableWithLength K V) (key : K) : Result V := t.inner.borrow tableNotFound key

/-- What is written through the reference of `borrow_mut`. -/
def set (t : TableWithLength K V) (key : K) (val : V) : TableWithLength K V :=
  { t with inner := t.inner.insert key val }

def remove (t : TableWithLength K V) (key : K) : Result (V × TableWithLength K V) := do
  let val ← t.inner.borrow tableNotFound key
  let length ← Word.sub t.length 1
  return (val, { inner := t.inner.erase key, length })

theorem borrow_of {t : TableWithLength K V} {key : K} {val : V}
    (h : t.inner.lookup key = some val) : t.borrow key = .ok val :=
  Table.borrow_eq_ok.mpr h

@[simp] theorem set_inner (t : TableWithLength K V) (key : K) (val : V) :
    (t.set key val).inner = t.inner.insert key val := rfl

@[simp] theorem set_length (t : TableWithLength K V) (key : K) (val : V) :
    (t.set key val).length = t.length := rfl

theorem remove_eq_ok {t t' : TableWithLength K V} {key : K} {val : V} :
    t.remove key = .ok (val, t') ↔ t.inner.lookup key = some val ∧ 1 ≤ t.length ∧
      t' = ⟨t.inner.erase key, t.length - 1⟩ := by
  unfold remove
  simp only [Checked.bind_eq_ok, Table.borrow_eq_ok, Word.sub, Checked.require_eq_ok,
    Checked.pure_eq_ok, Prod.mk.injEq, exists_const]
  grind

end TableWithLength

namespace SmartTable

@[ext]
structure Entry (K V : Type) where
  hash : ℕ
  key : K
  value : V
  deriving DecidableEq, Repr

/-- The two functions of a key and of an entry that depend on how they are serialised. -/
structure Natives (K V : Type) where
  sipHashFromValue : K → ℕ
  sizeOfVal : Entry K V → ℕ

end SmartTable

structure SmartTable (K V : Type) where
  buckets : TableWithLength ℕ (List (SmartTable.Entry K V))
  numBuckets : ℕ
  /-- The number of bits of `numBuckets`, but for the first. -/
  level : ℕ
  size : ℕ
  splitLoadThreshold : ℕ
  targetBucketSize : ℕ

namespace SmartTable

def ENOT_FOUND : Abort := .code .smartTable (Error.invalidArgument 1)
def ENOT_EMPTY : Abort := .code .smartTable (Error.invalidArgument 3)
def EALREADY_EXIST : Abort := .code .smartTable (Error.invalidArgument 4)
def EINVALID_LOAD_THRESHOLD_PERCENT : Abort := .code .smartTable (Error.invalidArgument 5)
def EINVALID_TARGET_BUCKET_SIZE : Abort := .code .smartTable (Error.invalidArgument 6)
def EEXCEED_MAX_BUCKET_SIZE : Abort := .code .smartTable (Error.permissionDenied 7)
def EINVALID_BUCKET_INDEX : Abort := .code .smartTable 8
def EINVALID_VECTOR_INDEX : Abort := .code .smartTable 9

section

variable {K V : Type}

/-- `bucket_index`: the last `level + 1` bits of the hash, or the last `level` if there is no such
bucket yet. -/
def bucketIndex (level numBuckets hash : ℕ) : Result ℕ := do
  let next ← Word.fit 8 (level + 1)
  let base ← Word.shiftOne next
  let index := hash % base
  if index < numBuckets then
    return index
  else
    let base ← Word.shiftOne level
    return index % base

/-- `split_one_bucket`: the bucket to split is `num_buckets` without its most significant bit. -/
def splitOneBucket (t : SmartTable K V) : Result (SmartTable K V) := do
  let newBucketIndex := t.numBuckets
  let base ← Word.shiftOne t.level
  let toSplit := newBucketIndex ^^^ base
  let numBuckets ← Word.fit 64 (newBucketIndex + 1)
  let following ← Word.fit 64 (toSplit + 1)
  let level ← if following = base then Word.fit 8 (t.level + 1) else pure t.level
  let oldBucket ← t.buckets.borrow toSplit
  let (p, oldBucket) ← MoveVector.partition (fun e => do
    let index ← bucketIndex level numBuckets e.hash
    return decide (index ≠ newBucketIndex)) oldBucket
  let (oldBucket, newBucket) ← MoveVector.trimReverse oldBucket p
  let buckets ← (t.buckets.set toSplit oldBucket).add newBucketIndex newBucket
  return { t with buckets, numBuckets, level }

/-- The loop of `new_with_config`. -/
def splitLoop : ℕ → SmartTable K V → Result (SmartTable K V)
  | 0, t => .ok t
  | n + 1, t => do
    let t ← splitOneBucket t
    splitLoop n t

def newWithConfig (numInitialBuckets splitLoadThreshold targetBucketSize : ℕ) :
    Result (SmartTable K V) := do
  Checked.require (splitLoadThreshold ≤ 100) EINVALID_LOAD_THRESHOLD_PERCENT
  let buckets ← TableWithLength.new.add 0 []
  let table : SmartTable K V :=
    { buckets, numBuckets := 1, level := 0, size := 0,
      splitLoadThreshold := if splitLoadThreshold = 0 then 75 else splitLoadThreshold,
      targetBucketSize }
  let numInitialBuckets := if numInitialBuckets = 0 then 2 else numInitialBuckets
  splitLoop (numInitialBuckets - 1) table

def new : Result (SmartTable K V) := newWithConfig 0 0 0

def length (t : SmartTable K V) : ℕ := t.size

def loadFactor (t : SmartTable K V) : Result ℕ := do
  let percent ← Word.fit 64 (t.size * 100)
  let average ← Word.div percent t.numBuckets
  Word.div average t.targetBucketSize

/-- The loop of `clear`: `n` buckets are left to remove, from index `i` on. -/
def clearLoop : ℕ → ℕ → TableWithLength ℕ (List (Entry K V)) →
    Result (TableWithLength ℕ (List (Entry K V)))
  | 0, _, buckets => .ok buckets
  | n + 1, i, buckets => do
    let (_, buckets) ← buckets.remove i
    clearLoop n (i + 1) buckets

def clear (t : SmartTable K V) : Result (SmartTable K V) := do
  let _ ← t.buckets.borrow 0
  let buckets ← clearLoop (t.numBuckets - 1) 1 (t.buckets.set 0 [])
  return { t with buckets, numBuckets := 1, level := 0, size := 0 }

/-- The loop of `destroy_empty`; the native vector can be destroyed only when it is empty. -/
def destroyLoop : ℕ → ℕ → TableWithLength ℕ (List (Entry K V)) →
    Result (TableWithLength ℕ (List (Entry K V)))
  | 0, _, buckets => .ok buckets
  | n + 1, i, buckets => do
    let (bucket, buckets) ← buckets.remove i
    Checked.require (bucket.length = 0) .vectorError
    destroyLoop n (i + 1) buckets

def destroyEmpty (t : SmartTable K V) : Result Unit := do
  Checked.require (t.size = 0) ENOT_EMPTY
  let buckets ← destroyLoop t.numBuckets 0 t.buckets
  buckets.destroyEmpty

def updateSplitLoadThreshold (t : SmartTable K V) (splitLoadThreshold : ℕ) :
    Result (SmartTable K V) := do
  Checked.require (splitLoadThreshold ≤ 100 ∧ splitLoadThreshold > 0)
    EINVALID_LOAD_THRESHOLD_PERCENT
  return { t with splitLoadThreshold }

def updateTargetBucketSize (t : SmartTable K V) (targetBucketSize : ℕ) :
    Result (SmartTable K V) := do
  Checked.require (targetBucketSize > 0) EINVALID_TARGET_BUCKET_SIZE
  return { t with targetBucketSize }

/-- The inner loop of `keys_paginated`: `n` entries of the bucket are left, from index `i` on, and
`numKeysToGet` keys are wanted. It stops at the index behind the last key wanted, if it gets
there. -/
def bucketKeysLoop (bucket : List (Entry K V)) : ℕ → ℕ → ℕ → List K →
    Result (List K × ℕ × Option ℕ)
  | 0, _, numKeysToGet, keys => .ok (keys, numKeysToGet, none)
  | n + 1, i, numKeysToGet, keys => do
    let e ← MoveVector.borrow bucket i
    let keys := keys ++ [e.key]
    let numKeysToGet ← Word.sub numKeysToGet 1
    if numKeysToGet = 0 then
      return (keys, numKeysToGet, some (i + 1))
    else
      bucketKeysLoop bucket n (i + 1) numKeysToGet keys

/-- The outer loop: `n` buckets are left, from `bucketIndex` on. -/
def keysLoop (t : SmartTable K V) : ℕ → ℕ → ℕ → ℕ → List K →
    Result (List K × Option ℕ × Option ℕ)
  | 0, _, _, _, keys => .ok (keys, none, none)
  | n + 1, bucketIndex, startingVectorIndex, numKeysToGet, keys => do
    let bucket ← t.buckets.borrow bucketIndex
    let (keys, numKeysToGet, stop) ← bucketKeysLoop bucket (bucket.length - startingVectorIndex)
      startingVectorIndex numKeysToGet keys
    match stop with
    | some vectorIndex =>
      if vectorIndex = bucket.length then
        if bucketIndex + 1 < t.numBuckets then
          return (keys, some (bucketIndex + 1), some 0)
        else
          return (keys, none, none)
      else
        return (keys, some bucketIndex, some vectorIndex)
    | none => keysLoop t n (bucketIndex + 1) 0 numKeysToGet keys

def keysPaginated (t : SmartTable K V)
    (startingBucketIndex startingVectorIndex numKeysToGet : ℕ) :
    Result (List K × Option ℕ × Option ℕ) := do
  Checked.require (startingBucketIndex < t.numBuckets) EINVALID_BUCKET_INDEX
  let bucket ← t.buckets.borrow startingBucketIndex
  Checked.require (startingVectorIndex < bucket.length ∨ startingVectorIndex = 0)
    EINVALID_VECTOR_INDEX
  if numKeysToGet = 0 then
    return ([], some startingBucketIndex, some startingVectorIndex)
  else
    keysLoop t (t.numBuckets - startingBucketIndex) startingBucketIndex startingVectorIndex
      numKeysToGet []

def keys (t : SmartTable K V) : Result (List K) := do
  let (keys, _, _) ← keysPaginated t 0 0 (length t)
  return keys

variable [DecidableEq K]

/-- The loop of `borrow`, `borrow_mut` and `remove`: the first entry of a bucket for the key, with
the index of the head of what is left to scan. -/
def scan (key : K) : List (Entry K V) → ℕ → Result (ℕ × Entry K V)
  | [], _ => .error ENOT_FOUND
  | e :: bucket, i => if e.key = key then .ok (i, e) else scan key bucket (i + 1)

variable (natives : Natives K V)

def add (t : SmartTable K V) (key : K) (value : V) : Result (SmartTable K V) := do
  let hash := natives.sipHashFromValue key
  let index ← bucketIndex t.level t.numBuckets hash
  let bucket ← t.buckets.borrow index
  Checked.require (bucket.length ≤ 10000) EEXCEED_MAX_BUCKET_SIZE
  Checked.require (MoveVector.all (fun e => decide (e.key ≠ key)) bucket = true) EALREADY_EXIST
  let e : Entry K V := { hash, key, value }
  let targetBucketSize :=
    if t.targetBucketSize = 0 then max (1024 / max (natives.sizeOfVal e) 1) 1
    else t.targetBucketSize
  let size ← Word.fit 64 (t.size + 1)
  let t := { t with buckets := t.buckets.set index (bucket ++ [e]), size, targetBucketSize }
  let load ← loadFactor t
  if load ≥ t.splitLoadThreshold then splitOneBucket t else return t

def borrow (t : SmartTable K V) (key : K) : Result V := do
  let index ← bucketIndex t.level t.numBuckets (natives.sipHashFromValue key)
  let bucket ← t.buckets.borrow index
  let (_, e) ← scan key bucket 0
  return e.value

/-- `borrow_mut`: the value of the key, and the table with another value in its place. -/
def borrowMut (t : SmartTable K V) (key : K) : Result (V × (V → SmartTable K V)) := do
  let index ← bucketIndex t.level t.numBuckets (natives.sipHashFromValue key)
  let bucket ← t.buckets.borrow index
  let (i, e) ← scan key bucket 0
  return (e.value, fun value =>
    { t with buckets := t.buckets.set index (bucket.set i { e with value }) })

def contains (t : SmartTable K V) (key : K) : Result Bool := do
  let hash := natives.sipHashFromValue key
  let index ← bucketIndex t.level t.numBuckets hash
  let bucket ← t.buckets.borrow index
  return MoveVector.any (fun e => decide (e.hash = hash ∧ e.key = key)) bucket

def borrowWithDefault (t : SmartTable K V) (key : K) (default : V) : Result V := do
  if ¬ (← contains natives t key) = true then return default else borrow natives t key

def borrowMutWithDefault (t : SmartTable K V) (key : K) (default : V) :
    Result (V × (V → SmartTable K V)) := do
  let present ← contains natives t key
  let t ← if ¬ present = true then add natives t key default else pure t
  borrowMut natives t key

def remove (t : SmartTable K V) (key : K) : Result (V × SmartTable K V) := do
  let index ← bucketIndex t.level t.numBuckets (natives.sipHashFromValue key)
  let bucket ← t.buckets.borrow index
  let (i, _) ← scan key bucket 0
  let (e, bucket) ← MoveVector.swapRemove bucket i
  let size ← Word.sub t.size 1
  return (e.value, { t with buckets := t.buckets.set index bucket, size })

def upsert (t : SmartTable K V) (key : K) (value : V) : Result (SmartTable K V) := do
  if ¬ (← contains natives t key) = true then
    add natives t key value
  else
    let (_, put) ← borrowMut natives t key
    return put value

end

end SmartTable

end Pictor
