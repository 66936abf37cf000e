import Pictor.Framework.Object
import Pictor.Lib.Transactions

/-!
# Balances in two resources

What a store holds is counted in its `FungibleStore` or in a `ConcurrentFungibleBalance` next to it,
which a store has from its creation if the chain's flags say so and otherwise gets when its owner
asks for it. Which of the two is meant is decided by whether the first is zero. Everywhere else in
this development a store has one balance.
-/

namespace Pictor

/-- The two resources under the addresses of stores. -/
structure StoreResources where
  stores : Table Store FungibleStore
  concurrent : Table Store UInt64
  deriving DecidableEq

namespace StoreResources

open FungibleAsset

def EBALANCE_IS_NOT_ZERO : Abort := .code .fungibleAsset (Error.permissionDenied 14)
def ECONCURRENT_BALANCE_NOT_ENABLED : Abort := .code .fungibleAsset (Error.invalidArgument 32)

/-- `ESTORE_IS_FROZEN` in the category an upgrade raises it with. -/
def ESTORE_IS_FROZEN_TO_UPGRADE : Abort := .code .fungibleAsset (Error.invalidArgument 3)

/-- `concurrent_fungible_balance_exists_inline`, where the other balance is zero. -/
def Concurrent (r : StoreResources) (s : Store) (store : FungibleStore) : Prop :=
  store.balance = 0 ∧ r.concurrent.contains s = true

instance (r : StoreResources) (s : Store) (store : FungibleStore) :
    Decidable (r.Concurrent s store) :=
  inferInstanceAs (Decidable (_ ∧ _))

def balance (r : StoreResources) (s : Store) : UInt64 :=
  match r.stores.lookup s with
  | some store =>
    if r.Concurrent s store then (r.concurrent.lookup s).getD 0 else store.balance
  | none => 0

def isFrozen (r : StoreResources) (s : Store) : Bool :=
  (r.stores.lookup s).elim false FungibleStore.frozen

def createStore (r : StoreResources) (s : Store) (defaultToConcurrentFungibleBalance : Bool) :
    Result StoreResources := do
  let stores ← r.stores.add .missingData s { balance := 0, frozen := false }
  if defaultToConcurrentFungibleBalance then
    let concurrent ← r.concurrent.add .missingData s 0
    return { stores, concurrent }
  else
    return { r with stores }

def withdrawInternal (r : StoreResources) (s : Store) (amount : UInt64) :
    Result (FungibleAsset × StoreResources) := do
  let store ← r.stores.borrow EFUNGIBLE_STORE_EXISTENCE s
  if amount = 0 then
    return (⟨s.metadata, amount⟩, r)
  else if r.Concurrent s store then
    -- `aggregator_v2::try_sub`
    let balance ← r.concurrent.borrow .missingData s
    Checked.require (amount ≤ balance) EINSUFFICIENT_BALANCE
    return (⟨s.metadata, amount⟩,
      { r with concurrent := r.concurrent.insert s (balance - amount) })
  else
    Checked.require (amount ≤ store.balance) EINSUFFICIENT_BALANCE
    let balance ← U64.sub store.balance amount
    return (⟨s.metadata, amount⟩, { r with stores := r.stores.insert s { store with balance } })

/-- `overflow` is how an aggregator aborts when it overflows. -/
def depositInternal (overflow : Abort) (r : StoreResources) (s : Store) (fa : FungibleAsset) :
    Result StoreResources := do
  if fa.amount = 0 then
    return r
  else
    let store ← r.stores.borrow EFUNGIBLE_STORE_EXISTENCE s
    Checked.require (fa.metadata = s.metadata) EFUNGIBLE_ASSET_AND_STORE_MISMATCH
    if r.Concurrent s store then
      let balance ← r.concurrent.borrow .missingData s
      let balance ← Checked.add overflow balance fa.amount
      return { r with concurrent := r.concurrent.insert s balance }
    else
      let balance ← U64.add store.balance fa.amount
      return { r with stores := r.stores.insert s { store with balance } }

def setFrozenFlag (r : StoreResources) (ref : Token) (s : Store) (frozen : Bool) :
    Result StoreResources := do
  let store ← r.stores.borrow EFUNGIBLE_STORE_EXISTENCE s
  Checked.require (ref = s.metadata) ETRANSFER_REF_AND_STORE_MISMATCH
  return { r with stores := r.stores.insert s { store with frozen } }

def ensureStoreUpgradedToConcurrentInternal (r : StoreResources) (s : Store) :
    Result StoreResources :=
  if r.concurrent.contains s then
    .ok r
  else do
    let store ← r.stores.borrow .missingData s
    return {
      stores := r.stores.insert s { store with balance := 0 }
      concurrent := r.concurrent.insert s store.balance }

/-- `owns` is what `object::owns` answers for the store and the signer. -/
def upgradeStoreToConcurrent (r : StoreResources) (owns : Bool) (s : Store)
    (allowUpgradeToConcurrentFungibleBalance : Bool) : Result StoreResources := do
  Checked.require (owns = true) ENOT_STORE_OWNER
  Checked.require (r.isFrozen s = false) ESTORE_IS_FROZEN_TO_UPGRADE
  Checked.require (allowUpgradeToConcurrentFungibleBalance = true) ECONCURRENT_BALANCE_NOT_ENABLED
  ensureStoreUpgradedToConcurrentInternal r s

/-- `isObject` is whether there still is an object at the store's address. -/
def removeStore (host : Object.Host) (r : StoreResources) (s : Store) (isObject : Bool) :
    Result StoreResources := do
  -- `object_from_delete_ref`
  Checked.require (isObject = true) (Object.EOBJECT_DOES_NOT_EXIST host)
  let store ← r.stores.borrow (Object.ERESOURCE_DOES_NOT_EXIST host) s
  Checked.require (store.balance = 0) EBALANCE_IS_NOT_ZERO
  let stores := r.stores.erase s
  if r.concurrent.contains s then
    let balance ← r.concurrent.borrow .missingData s
    Checked.require (balance = 0) EBALANCE_IS_NOT_ZERO
    return { stores, concurrent := r.concurrent.erase s }
  else
    return { r with stores }

/-! ## The same with one balance -/

def setFrozenFlagMerged (l : Stores) (ref : Token) (s : Store) (frozen : Bool) :
    Result Stores := do
  let store ← l.borrow EFUNGIBLE_STORE_EXISTENCE s
  Checked.require (ref = s.metadata) ETRANSFER_REF_AND_STORE_MISMATCH
  return l.insert s { store with frozen }

def isFrozenMerged (l : Stores) (s : Store) : Bool :=
  (l.lookup s).elim false FungibleStore.frozen

/-- An upgrade leaves the balance as it is. -/
def upgradeMerged (l : Stores) (owns : Bool) (s : Store) (allowed : Bool) : Result Stores := do
  Checked.require (owns = true) ENOT_STORE_OWNER
  Checked.require (isFrozenMerged l s = false) ESTORE_IS_FROZEN_TO_UPGRADE
  Checked.require (allowed = true) ECONCURRENT_BALANCE_NOT_ENABLED
  let _ ← l.borrow .missingData s
  return l

def removeStoreMerged (host : Object.Host) (l : Stores) (s : Store) (isObject : Bool) :
    Result Stores := do
  Checked.require (isObject = true) (Object.EOBJECT_DOES_NOT_EXIST host)
  let store ← l.borrow (Object.ERESOURCE_DOES_NOT_EXIST host) s
  Checked.require (store.balance = 0) EBALANCE_IS_NOT_ZERO
  return l.erase s

/-! ## Whatever is done to stores -/

inductive Act where
  | create (s : Store) (defaultToConcurrentFungibleBalance : Bool)
  | withdraw (s : Store) (amount : UInt64)
  | deposit (s : Store) (fa : FungibleAsset)
  | setFrozenFlag (ref : Token) (s : Store) (frozen : Bool)
  | upgrade (owns : Bool) (s : Store) (allowUpgradeToConcurrentFungibleBalance : Bool)
  | remove (s : Store) (isObject : Bool)
  deriving DecidableEq

def exec (host : Object.Host) (overflow : Abort) (r : StoreResources) :
    Act → Result StoreResources
  | .create s concurrent => createStore r s concurrent
  | .withdraw s amount => do
    let (_, r) ← withdrawInternal r s amount
    return r
  | .deposit s fa => depositInternal overflow r s fa
  | .setFrozenFlag ref s frozen => setFrozenFlag r ref s frozen
  | .upgrade owns s allowed => upgradeStoreToConcurrent r owns s allowed
  | .remove s isObject => removeStore host r s isObject

def execMerged (host : Object.Host) (l : Stores) : Act → Result Stores
  | .create s _ => FungibleAsset.createStore l s
  | .withdraw s amount => do
    let (_, l) ← FungibleAsset.withdrawInternal l s amount
    return l
  | .deposit s fa => FungibleAsset.depositInternal l s fa
  | .setFrozenFlag ref s frozen => setFrozenFlagMerged l ref s frozen
  | .upgrade owns s allowed => upgradeMerged l owns s allowed
  | .remove s isObject => removeStoreMerged host l s isObject

end StoreResources

end Pictor
