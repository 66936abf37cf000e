import Pictor.Contract.System
import Pictor.Framework.Supply

/-!
# The module `usdt`

The payment token the network is set up with in its tests: a stablecoin whose admin mints, burns,
freezes, and takes back what is in a frozen store. The token registers two functions of its own, so
every withdrawal and every deposit of it, by whomever, asks whether the store is frozen. Frozen
means listed in one of two tables, by the address of the *store*.

The references to the metadata never leave the module. The metadata's texts and decimals and the
reference that extends the object are left out.
-/

namespace Pictor

namespace Usdt

/-- What the chain provides to the token. -/
structure Host where
  /-- The rest of the chain; what it says of this token is not read. -/
  env : Env
  /-- `usdt_address`: the object derived from the deployer and the symbol. -/
  usdtAddress : Token
  /-- `object::object_address` of a store. -/
  storeAddress : Store → Address
  /-- `default_to_concurrent_fungible_supply`. -/
  concurrentFungibleSupply : Bool
  /-- An abort with one of this module's codes. -/
  abort : ℕ → Abort
  /-- Raised by `create_named_object` for a name that is taken. -/
  objectExists : Abort

structure Management where
  mintRef : Token
  burnRef : Token
  transferRef : Token
  admin : Address
  pendingAdmin : Address
  freezeSending : Table Address Bool
  freezeReceiving : Table Address Bool
  deriving DecidableEq

/-- The event structs. -/
inductive Event where
  | mint (recipient : Address) (amount : UInt64)
  | burn (owner : Address) (store : Store) (amount : UInt64)
  | freeze (account : Address) (freezeSending freezeReceiving : Bool)
  | unfreeze (account : Address) (unfreezeSending unfreezeReceiving : Bool)
  | transferAdmin (admin pendingAdmin : Address)
  | acceptAdmin (oldAdmin newAdmin : Address)
  deriving DecidableEq, Repr

/-- The part of the chain the module works on, and what it has emitted. -/
structure State where
  management : Option Management
  supplies : Supplies
  stores : Stores
  events : List Event
  deriving DecidableEq

section

variable (host : Host)

def EUNAUTHORIZED : Abort := host.abort 1
def EFROZEN_SENDING : Abort := host.abort 3
def EFROZEN_RECEIVING : Abort := host.abort 4
def ENOT_FROZEN : Abort := host.abort 5
def EARGUMENT_VECTORS_LENGTH_MISMATCH : Abort := host.abort 6
def ESAME_ADMIN : Abort := host.abort 7
def EINVALID_ASSET : Abort := host.abort 8

/-- `borrow_global<Management>(usdt_address())`. -/
def borrowManagement (management : Option Management) : Result Management :=
  Checked.getOrAbort management .missingData

def isFrozen (management : Option Management) (account : Address) : Result (Bool × Bool) := do
  let management ← borrowManagement management
  let freezeSending := management.freezeSending.borrowWithDefault account false
  let freezeReceiving := management.freezeReceiving.borrowWithDefault account false
  return (freezeSending, freezeReceiving)

def admin (management : Option Management) : Result Address := do
  let management ← borrowManagement management
  return management.admin

def assertIsFrozen (management : Option Management) (store : Store) : Result Unit := do
  let (storeFrozenSending, storeFrozenReceiving) ← isFrozen management (host.storeAddress store)
  Checked.require ((storeFrozenSending || storeFrozenReceiving) = true) (ENOT_FROZEN host)

def assertNotFrozen (management : Option Management) (account : Address)
    (checkSending checkReceiving : Bool) : Result Unit := do
  let management ← borrowManagement management
  let frozenSending := management.freezeSending.borrowWithDefault account false
  Checked.require ((!checkSending || !frozenSending) = true) (EFROZEN_SENDING host)
  let frozenReceiving := management.freezeReceiving.borrowWithDefault account false
  Checked.require ((!checkReceiving || !frozenReceiving) = true) (EFROZEN_RECEIVING host)

def assertIsAdmin (management : Option Management) (account : Address) : Result Unit := do
  let management ← borrowManagement management
  Checked.require (account = management.admin) (EUNAUTHORIZED host)

/-! ## The functions the token registers -/

def deposit (management : Option Management) (l : Stores) (store : Store) (fa : FungibleAsset)
    (transferRef : Token) : Result Stores := do
  Checked.require (transferRef = host.usdtAddress) (EINVALID_ASSET host)
  assertNotFrozen host management (host.storeAddress store) false true
  FungibleAsset.depositWithRef l transferRef store fa

def withdraw (management : Option Management) (l : Stores) (store : Store) (amount : UInt64)
    (transferRef : Token) : Result (FungibleAsset × Stores) := do
  Checked.require (transferRef = host.usdtAddress) (EINVALID_ASSET host)
  assertNotFrozen host management (host.storeAddress store) true false
  FungibleAsset.withdrawWithRef l transferRef store amount

/-- Both, from `init_module` on. The framework hands them its own reference to the metadata of the
store. -/
def dispatchFunctions (management : Option Management) : DispatchFunctions :=
  match management with
  | some _ =>
    { withdraw := some fun l store amount =>
        withdraw host management l store amount store.metadata
      deposit := some fun l store fa => deposit host management l store fa store.metadata }
  | none => ⟨none, none⟩

/-- The chain as it is with the token in a given state. -/
def State.env (σ : State) : Env :=
  { host.env with
    dispatch := fun token =>
      if token = host.usdtAddress then dispatchFunctions host σ.management
      else host.env.dispatch token
    primaryStoreEnabled := fun token =>
      if token = host.usdtAddress then σ.management.isSome
      else host.env.primaryStoreEnabled token }

/-- The account's primary store, which is created where there is none. -/
def ensurePrimaryStore (σ : State) (owner : Address) : Result (Store × State) := do
  let stores ← PrimaryFungibleStore.ensurePrimaryStoreExists (σ.env host) σ.stores owner
    host.usdtAddress
  return (PrimaryFungibleStore.primaryStore owner host.usdtAddress, { σ with stores })

/-! ## The entry functions -/

def initModule (σ : State) : Result State := do
  Checked.require (σ.management = none) host.objectExists
  let supply : Supply :=
    if host.concurrentFungibleSupply then .concurrent 0 FungibleAsset.MAX_U128
    else .plain 0 none
  let supplies ← σ.supplies.add .missingData host.usdtAddress supply
  let management : Management :=
    { mintRef := host.usdtAddress, burnRef := host.usdtAddress, transferRef := host.usdtAddress,
      admin := host.env.deployer, pendingAdmin := 0x0, freezeSending := ∅,
      freezeReceiving := ∅ }
  return { σ with management := some management, supplies }

def mint (σ : State) (admin recipient : Address) (amount : UInt64) : Result State := do
  assertIsAdmin host σ.management admin
  let (store, σ) ← ensurePrimaryStore host σ recipient
  assertNotFrozen host σ.management (host.storeAddress store) false true
  let management ← borrowManagement σ.management
  let (tokens, supplies) ← FungibleAsset.mint σ.supplies management.mintRef amount
  let stores ← FungibleAsset.depositWithRef σ.stores management.transferRef store tokens
  return { σ with supplies, stores, events := σ.events ++ [.mint recipient amount] }

def burnInternal (σ : State) (management : Management) (store : Store) (amount : UInt64) :
    Result State := do
  let (tokens, stores) ←
    FungibleAsset.withdrawWithRef σ.stores management.transferRef store amount
  let supplies ← FungibleAsset.burn σ.supplies management.burnRef tokens
  return { σ with supplies, stores, events := σ.events ++ [.burn store.owner store amount] }

/-- Burn what is in the admin's own store. -/
def revoke (σ : State) (admin : Address) (amount : UInt64) : Result State := do
  assertIsAdmin host σ.management admin
  let management ← borrowManagement σ.management
  let (store, σ) ← ensurePrimaryStore host σ admin
  burnInternal σ management store amount

def transferStore (σ : State) (admin : Address) (source : Store) (recipient : Address)
    (amount : UInt64) : Result State := do
  assertIsAdmin host σ.management admin
  assertIsFrozen host σ.management source
  let management ← borrowManagement σ.management
  let (target, σ) ← ensurePrimaryStore host σ recipient
  let stores ←
    FungibleAsset.transferWithRef σ.stores management.transferRef source target amount
  return { σ with stores }

def transfer (σ : State) (admin source recipient : Address) (amount : UInt64) : Result State := do
  let (store, σ) ← ensurePrimaryStore host σ source
  transferStore host σ admin store recipient amount

def burnFrom (σ : State) (admin : Address) (store : Store) (amount : UInt64) : Result State := do
  assertIsAdmin host σ.management admin
  assertIsFrozen host σ.management store
  let management ← borrowManagement σ.management
  burnInternal σ management store amount

def burn (σ : State) (admin account : Address) (amount : UInt64) : Result State := do
  let (store, σ) ← ensurePrimaryStore host σ account
  burnFrom host σ admin store amount

/-! ## Freezing

`freeze_accounts` and `unfreeze_accounts` walk the same three vectors and differ in what they do to
an account on the way. -/

/-- `borrow_mut_with_default`, and a write of `true` through the reference. -/
def freezeFlag (flags : Table Address Bool) (account : Address) (flag : Bool) :
    Result (Table Address Bool) :=
  if flag then do
    let flags ← if flags.contains account then .ok flags
      else flags.add tableAlreadyExists account flag
    let _ ← flags.borrow tableNotFound account
    return flags.insert account true
  else
    .ok flags

def unfreezeFlag (flags : Table Address Bool) (account : Address) (flag : Bool) :
    Result (Table Address Bool) :=
  if flag && flags.contains account then flags.remove tableNotFound account else .ok flags

/-- What happens to one account, and the event for it. -/
structure Visit where
  flag : Table Address Bool → Address → Bool → Result (Table Address Bool)
  event : Address → Bool → Bool → Event

def freezeVisit : Visit := ⟨freezeFlag, .freeze⟩
def unfreezeVisit : Visit := ⟨unfreezeFlag, .unfreeze⟩

/-- The loop, with `n` accounts to go from the `i`th. -/
def accountLoop (visit : Visit) (accounts : List Address) (sendingFlags receivingFlags : List Bool)
    (management : Management) (events : List Event) (i : ℕ) :
    ℕ → Result (Management × List Event)
  | 0 => .ok (management, events)
  | n + 1 => do
    let account ← MoveVector.borrow accounts i
    let sending ← MoveVector.borrow sendingFlags i
    let freezeSending ← visit.flag management.freezeSending account sending
    let receiving ← MoveVector.borrow receivingFlags i
    let freezeReceiving ← visit.flag management.freezeReceiving account receiving
    accountLoop visit accounts sendingFlags receivingFlags
      { management with freezeSending, freezeReceiving }
      (events ++ [visit.event account sending receiving]) (i + 1) n

def visitAccounts (visit : Visit) (σ : State) (admin : Address) (accounts : List Address)
    (sendingFlags receivingFlags : List Bool) : Result State := do
  Checked.require (accounts.length = sendingFlags.length)
    (EARGUMENT_VECTORS_LENGTH_MISMATCH host)
  Checked.require (accounts.length = receivingFlags.length)
    (EARGUMENT_VECTORS_LENGTH_MISMATCH host)
  assertIsAdmin host σ.management admin
  let management ← borrowManagement σ.management
  let (management, events) ← accountLoop visit accounts sendingFlags receivingFlags management
    σ.events 0 accounts.length
  return { σ with management := some management, events }

def freezeAccounts : State → Address → List Address → List Bool → List Bool → Result State :=
  visitAccounts host freezeVisit

def unfreezeAccounts : State → Address → List Address → List Bool → List Bool → Result State :=
  visitAccounts host unfreezeVisit

/-! ## The admin -/

def transferAdmin (σ : State) (admin newAdmin : Address) : Result State := do
  assertIsAdmin host σ.management admin
  Checked.require (admin ≠ newAdmin) (ESAME_ADMIN host)
  let management ← borrowManagement σ.management
  return { σ with
    management := some { management with pendingAdmin := newAdmin }
    events := σ.events ++ [.transferAdmin management.admin newAdmin] }

def acceptAdmin (σ : State) (pendingAdmin : Address) : Result State := do
  let management ← borrowManagement σ.management
  Checked.require (pendingAdmin = management.pendingAdmin) (EUNAUTHORIZED host)
  let oldAdmin := management.admin
  let management :=
    { management with admin := management.pendingAdmin, pendingAdmin := 0x0 }
  return { σ with
    management := some management
    events := σ.events ++ [.acceptAdmin oldAdmin management.admin] }

end

end Usdt

end Pictor
