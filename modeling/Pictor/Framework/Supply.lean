import Pictor.Framework.FungibleAsset

/-!
# Minting, burning, and moving by reference

The issuer of a token holds references to its metadata: one to mint, one to burn, and one that moves
tokens out of and into any store, with no owner asked and the store's own frozen flag ignored. A
reference is the metadata it is for. Next to them are the transfers every holder has, which go
through the functions the token has registered.

The tokens in existence are counted in one of two resources under the metadata, an older one with an
optional maximum and an aggregator with a maximum always. Both are a `u128`.
-/

namespace Pictor

/-- `Supply` and `ConcurrentSupply`. -/
inductive Supply where
  | plain (current : ℕ) (maximum : Option ℕ)
  | concurrent (current maximum : ℕ)
  deriving DecidableEq, Repr

/-- The supply under each metadata. -/
abbrev Supplies := Table Token Supply

namespace Error

def outOfRange (r : ℕ) : ℕ := canonical 0x2 r
def invalidState (r : ℕ) : ℕ := canonical 0x3 r

end Error

namespace Supply

def current : Supply → ℕ
  | plain current _ => current
  | concurrent current _ => current

end Supply

namespace FungibleAsset

def ETRANSFER_REF_AND_FUNGIBLE_ASSET_MISMATCH : Abort :=
  .code .fungibleAsset (Error.invalidArgument 2)
def EMAX_SUPPLY_EXCEEDED : Abort := .code .fungibleAsset (Error.outOfRange 5)
def ETRANSFER_REF_AND_STORE_MISMATCH : Abort := .code .fungibleAsset (Error.invalidArgument 9)
def EBURN_REF_AND_FUNGIBLE_ASSET_MISMATCH : Abort :=
  .code .fungibleAsset (Error.invalidArgument 13)
def ESUPPLY_NOT_FOUND : Abort := .code .fungibleAsset (Error.notFound 21)

/-- `ESUPPLY_UNDERFLOW`, in a category of its own for each of the two resources. -/
def ESUPPLY_UNDERFLOW (category : ℕ → ℕ) : Abort := .code .fungibleAsset (category 20)

def MAX_U128 : ℕ := 2 ^ 128 - 1

/-- `supply`: the count, for a token that has one. -/
def supply (supplies : Supplies) (metadata : Token) : Option ℕ :=
  (supplies.lookup metadata).map Supply.current

def increaseSupply (supplies : Supplies) (metadata : Token) (amount : UInt64) : Result Supplies :=
  if amount = 0 then
    .ok supplies
  else
    match supplies.lookup metadata with
    | some (.concurrent current maximum) => do
      Checked.require (current + amount.toNat ≤ maximum) EMAX_SUPPLY_EXCEEDED
      return supplies.insert metadata (.concurrent (current + amount.toNat) maximum)
    | some (.plain current (some max)) => do
      Checked.require (current ≤ max) .arithmeticError
      Checked.require (amount.toNat ≤ max - current) EMAX_SUPPLY_EXCEEDED
      Checked.require (current + amount.toNat ≤ MAX_U128) .arithmeticError
      return supplies.insert metadata (.plain (current + amount.toNat) (some max))
    | some (.plain current none) => do
      Checked.require (current + amount.toNat ≤ MAX_U128) .arithmeticError
      return supplies.insert metadata (.plain (current + amount.toNat) none)
    | none => .error ESUPPLY_NOT_FOUND

def decreaseSupply (supplies : Supplies) (metadata : Token) (amount : UInt64) : Result Supplies :=
  if amount = 0 then
    .ok supplies
  else
    match supplies.lookup metadata with
    | some (.concurrent current maximum) => do
      Checked.require (amount.toNat ≤ current) (ESUPPLY_UNDERFLOW Error.outOfRange)
      return supplies.insert metadata (.concurrent (current - amount.toNat) maximum)
    | some (.plain current maximum) => do
      Checked.require (amount.toNat ≤ current) (ESUPPLY_UNDERFLOW Error.invalidState)
      return supplies.insert metadata (.plain (current - amount.toNat) maximum)
    | none => .error ESUPPLY_NOT_FOUND

def mint (supplies : Supplies) (ref : Token) (amount : UInt64) :
    Result (FungibleAsset × Supplies) := do
  let supplies ← increaseSupply supplies ref amount
  return (⟨ref, amount⟩, supplies)

def burn (supplies : Supplies) (ref : Token) (fa : FungibleAsset) : Result Supplies := do
  Checked.require (ref = fa.metadata) EBURN_REF_AND_FUNGIBLE_ASSET_MISMATCH
  decreaseSupply supplies fa.metadata fa.amount

def withdrawWithRef (l : Stores) (ref : Token) (s : Store) (amount : UInt64) :
    Result (FungibleAsset × Stores) := do
  -- the store's metadata is read from the resource
  let _ ← l.borrow EFUNGIBLE_STORE_EXISTENCE s
  Checked.require (ref = s.metadata) ETRANSFER_REF_AND_STORE_MISMATCH
  withdrawInternal l s amount

def depositWithRef (l : Stores) (ref : Token) (s : Store) (fa : FungibleAsset) :
    Result Stores := do
  Checked.require (ref = fa.metadata) ETRANSFER_REF_AND_FUNGIBLE_ASSET_MISMATCH
  depositInternal l s fa

def transferWithRef (l : Stores) (ref : Token) (source target : Store) (amount : UInt64) :
    Result Stores := do
  let (fa, l) ← withdrawWithRef l ref source amount
  depositWithRef l ref target fa

end FungibleAsset

def DispatchableFungibleAsset.transfer (env : Env) (l : Stores) (sender : Address)
    (source target : Store) (amount : UInt64) : Result Stores := do
  let (fa, l) ← withdraw env l sender source amount
  deposit env l target fa

def PrimaryFungibleStore.transfer (env : Env) (l : Stores) (sender : Address) (metadata : Token)
    (recipient : Address) (amount : UInt64) : Result Stores := do
  let l ← ensurePrimaryStoreExists env l sender metadata
  let l ← ensurePrimaryStoreExists env l recipient metadata
  DispatchableFungibleAsset.transfer env l sender (primaryStore sender metadata)
    (primaryStore recipient metadata) amount

/-! ## When they return -/

namespace FungibleAsset

/-- The tokens in existence: zero if nobody counts them. -/
def supplyUnits (supplies : Supplies) (metadata : Token) : ℕ := (supply supplies metadata).getD 0

theorem supplyUnits_insert (supplies : Supplies) (metadata t : Token) (v : Supply) :
    supplyUnits (Finmap.insert metadata v supplies) t =
      if t = metadata then v.current else supplyUnits supplies t := by
  unfold supplyUnits supply
  rw [Table.lookup_insert_ite]
  split <;> rfl

theorem supplyUnits_of_lookup {supplies : Supplies} {metadata : Token} {v : Supply}
    (h : supplies.lookup metadata = some v) : supplyUnits supplies metadata = v.current := by
  simp [supplyUnits, supply, h]

section Write

variable {supplies : Supplies} {metadata : Token} {v v' : Supply} {n : ℕ}

theorem supplyUnits_of_grown (hv : supplies.lookup metadata = some v)
    (hstep : v'.current = v.current + n) (t : Token) :
    supplyUnits (Finmap.insert metadata v' supplies) t =
      supplyUnits supplies t + (if t = metadata then n else 0) := by
  rw [supplyUnits_insert]
  split
  · next ht => rw [ht, supplyUnits_of_lookup hv, hstep]
  · rfl

theorem supplyUnits_of_shrunk (hv : supplies.lookup metadata = some v)
    (hstep : v'.current + n = v.current) (t : Token) :
    supplyUnits (Finmap.insert metadata v' supplies) t + (if t = metadata then n else 0) =
      supplyUnits supplies t := by
  rw [supplyUnits_insert]
  split
  · next ht => rw [ht, supplyUnits_of_lookup hv, hstep]
  · rfl

end Write

theorem increaseSupply_units {supplies supplies' : Supplies} {metadata : Token} {amount : UInt64}
    (h : increaseSupply supplies metadata amount = .ok supplies') (t : Token) :
    supplyUnits supplies' t =
      supplyUnits supplies t + (if t = metadata then amount.toNat else 0) := by
  unfold increaseSupply at h
  split at h
  · next h0 =>
    cases h
    simp [h0]
  · split at h
    · next hv =>
      simp only [Checked.bind_eq_ok, Checked.pure_eq_ok] at h
      obtain ⟨-, -, rfl⟩ := h
      exact supplyUnits_of_grown hv rfl t
    · next hv =>
      simp only [Checked.bind_eq_ok, Checked.pure_eq_ok] at h
      obtain ⟨-, -, -, -, -, -, rfl⟩ := h
      exact supplyUnits_of_grown hv rfl t
    · next hv =>
      simp only [Checked.bind_eq_ok, Checked.pure_eq_ok] at h
      obtain ⟨-, -, rfl⟩ := h
      exact supplyUnits_of_grown hv rfl t
    · cases h

theorem decreaseSupply_units {supplies supplies' : Supplies} {metadata : Token} {amount : UInt64}
    (h : decreaseSupply supplies metadata amount = .ok supplies') (t : Token) :
    supplyUnits supplies' t + (if t = metadata then amount.toNat else 0) =
      supplyUnits supplies t := by
  unfold decreaseSupply at h
  split at h
  · next h0 =>
    cases h
    simp [h0]
  · split at h
    · next hv =>
      simp only [Checked.bind_eq_ok, Checked.require_eq_ok, Checked.pure_eq_ok] at h
      obtain ⟨-, hle, rfl⟩ := h
      exact supplyUnits_of_shrunk hv (Nat.sub_add_cancel hle) t
    · next hv =>
      simp only [Checked.bind_eq_ok, Checked.require_eq_ok, Checked.pure_eq_ok] at h
      obtain ⟨-, hle, rfl⟩ := h
      exact supplyUnits_of_shrunk hv (Nat.sub_add_cancel hle) t
    · cases h

/-- The count only falls short if it is smaller than the amount. -/
theorem exists_decreaseSupply {supplies : Supplies} {metadata : Token} {amount : UInt64}
    (h : amount.toNat ≤ supplyUnits supplies metadata) :
    ∃ supplies', decreaseSupply supplies metadata amount = .ok supplies' := by
  unfold decreaseSupply
  split
  · exact ⟨_, rfl⟩
  · next h0 =>
    have hpos : 0 < amount.toNat := Nat.pos_of_ne_zero fun h => h0 (UInt64.toNat_inj.mp h)
    split
    · next current maximum hv =>
      rw [supplyUnits_of_lookup hv] at h
      have hle : amount.toNat ≤ current := h
      rw [Checked.require_of hle]
      exact ⟨_, rfl⟩
    · next current maximum hv =>
      rw [supplyUnits_of_lookup hv] at h
      have hle : amount.toNat ≤ current := h
      rw [Checked.require_of hle]
      exact ⟨_, rfl⟩
    · next hv =>
      have hnone : supplyUnits supplies metadata = 0 := by simp [supplyUnits, supply, hv]
      omega

/-- **Minting** makes an asset, and counts it. -/
theorem mint_eq_ok {supplies supplies' : Supplies} {ref : Token} {amount : UInt64}
    {fa : FungibleAsset} : mint supplies ref amount = .ok (fa, supplies') ↔
      increaseSupply supplies ref amount = .ok supplies' ∧ fa = ⟨ref, amount⟩ := by
  simp only [mint, Checked.bind_eq_ok, Checked.pure_eq_ok, Prod.mk.injEq]
  constructor
  · rintro ⟨_, h, rfl, rfl⟩
    exact ⟨h, rfl⟩
  · rintro ⟨h, rfl⟩
    exact ⟨_, h, rfl, rfl⟩

theorem burn_eq_ok {supplies supplies' : Supplies} {ref : Token} {fa : FungibleAsset} :
    burn supplies ref fa = .ok supplies' ↔
      ref = fa.metadata ∧ decreaseSupply supplies fa.metadata fa.amount = .ok supplies' := by
  simp [burn]

theorem withdrawWithRef_eq_ok {l l' : Stores} {ref : Token} {s : Store} {amount : UInt64}
    {fa : FungibleAsset} : withdrawWithRef l ref s amount = .ok (fa, l') ↔
      ref = s.metadata ∧ withdrawInternal l s amount = .ok (fa, l') := by
  simp only [withdrawWithRef, Checked.bind_eq_ok, Table.borrow_eq_ok, Checked.require_eq_ok,
    exists_const]
  constructor
  · rintro ⟨-, -, href, h⟩
    exact ⟨href, h⟩
  · rintro ⟨href, h⟩
    have hborrow := h
    simp only [withdrawInternal, Checked.bind_eq_ok, Table.borrow_eq_ok] at hborrow
    obtain ⟨v, hv, -⟩ := hborrow
    exact ⟨v, hv, href, h⟩

theorem depositWithRef_eq_ok {l l' : Stores} {ref : Token} {s : Store} {fa : FungibleAsset} :
    depositWithRef l ref s fa = .ok l' ↔ ref = fa.metadata ∧ depositInternal l s fa = .ok l' := by
  simp [depositWithRef]

end FungibleAsset

end Pictor
