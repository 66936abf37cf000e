import Mathlib.Data.Finset.Insert
import Pictor.Framework.Supply
import Pictor.Lib.Walk

/-!
# Objects

What `object` keeps under an address: who owns the object, whether its owner may pass it on, and two
marks, one for an object that can not be moved and one for an object that was thrown away. The owner
may itself be an object. A fungible store is an object, so the framework asks this module before
it lets anyone withdraw.

What one may do with an object is held as references, values that can not be made up. A
`ConstructorRef` comes with the creation and every other kind of reference is made from it; neither
it nor a `LinearTransferRef` can be stored.

Of the resources that share an object's address only these are here: whether it is a token's
metadata, with the marks of `fungible_asset` and `primary_fungible_store` on it, and which token's
store it is.
-/

namespace Pictor

namespace Object

/-- What the address of an object is derived from. Each of the four schemes puts a byte of its own
under the hash. -/
inductive Source where
  | seed (creator : Address) (seed : List UInt8)
  | derived (creator derivedFrom : Address)
  | guid (creator : Address) (creationNum : UInt64)
  /-- The `n`th unique address in the life of the chain. -/
  | auid (n : ℕ)
  deriving DecidableEq

/-- What the chain provides: hashes, and the codes of modules whose aborts the contract never
surfaces. -/
structure Host where
  address : Source → Address
  /-- An abort of `object` with this code. -/
  abort : ℕ → Abort
  exceededMaxGuidCreationNum : Abort

/-- The GUIDs of an account are numbered from 0 … -/
def MAX_GUID_CREATION_NUM : UInt64 := 0x4000000000000

/-- … and those of an object from here. -/
def INIT_GUID_CREATION_NUM : UInt64 := 0x4000000000000

def MAXIMUM_OBJECT_NESTING : ℕ := 8

def BURN_ADDRESS : Address := BitVec.allOnes 256

structure ObjectCore where
  guidCreationNum : UInt64
  owner : Address
  allowUngatedTransfer : Bool
  deriving DecidableEq, Repr

structure ConstructorRef where
  self : Address
  canDelete : Bool
  deriving DecidableEq, Repr

structure LinearTransferRef where
  self : Address
  owner : Address
  deriving DecidableEq, Repr

/-- The event: an object, whom it is taken from and whom it goes to. -/
structure Transfer where
  object : Address
  source : Address
  recipient : Address
  deriving DecidableEq, Repr

end Object

/-- The resources, each kind under the addresses that hold one. -/
structure Objects where
  cores : Table Address Object.ObjectCore
  /-- `TombStone`, with the owner it was burnt by. -/
  tombStones : Table Address Address
  untransferable : Table Address Unit
  /-- `guid_creation_num` of the accounts. -/
  accounts : Table Address UInt64
  /-- How many unique addresses have been made. -/
  auids : ℕ
  /-- `Metadata`, `Untransferable` and `DeriveRefPod` of tokens. -/
  metadata : Table Address Unit
  untransferableTokens : Table Address Unit
  deriveRefPods : Table Address Unit
  /-- `FungibleStore`, with the token it is a store of. -/
  stores : Table Address Token
  events : List Object.Transfer
  deriving DecidableEq

namespace Object

variable (host : Host)

def EOBJECT_EXISTS : Abort := host.abort (Error.alreadyExists 1)
def EOBJECT_DOES_NOT_EXIST : Abort := host.abort (Error.notFound 2)
def ENO_UNGATED_TRANSFERS : Abort := host.abort (Error.permissionDenied 3)
def ENOT_OBJECT_OWNER : Abort := host.abort (Error.permissionDenied 4)
def ECANNOT_DELETE : Abort := host.abort (Error.permissionDenied 5)
def EMAXIMUM_NESTING : Abort := host.abort (Error.outOfRange 6)
def EOBJECT_NOT_BURNT : Abort := host.abort (Error.invalidArgument 8)
def EOBJECT_NOT_TRANSFERRABLE : Abort := host.abort (Error.permissionDenied 9)
def ERESOURCE_DOES_NOT_EXIST : Abort := host.abort (Error.notFound 7)

def createObjectAddress (creator : Address) (seed : List UInt8) : Address :=
  host.address (.seed creator seed)

def createUserDerivedObjectAddress (creator derivedFrom : Address) : Address :=
  host.address (.derived creator derivedFrom)

def createGuidObjectAddress (creator : Address) (creationNum : UInt64) : Address :=
  host.address (.guid creator creationNum)

/-! ## Creation -/

/-- `account::create_guid`. -/
def accountGuid (o : Objects) (addr : Address) : Result (UInt64 × Objects) := do
  let creationNum ← o.accounts.borrow .missingData addr
  let next ← U64.add creationNum 1
  Checked.require (next < MAX_GUID_CREATION_NUM) host.exceededMaxGuidCreationNum
  return (creationNum, { o with accounts := o.accounts.insert addr next })

def createGuid (o : Objects) (object : Address) : Result (UInt64 × Objects) := do
  let objectData ← o.cores.borrow .missingData object
  let next ← U64.add objectData.guidCreationNum 1
  return (objectData.guidCreationNum,
    { o with cores := o.cores.insert object { objectData with guidCreationNum := next } })

/-- The event handle of the new object takes its first GUID. -/
def createObjectInternal (o : Objects) (creator object : Address) (canDelete : Bool) :
    Result (ConstructorRef × Objects) := do
  Checked.require (o.cores.contains object = false) (EOBJECT_EXISTS host)
  let guidCreationNum ← U64.add INIT_GUID_CREATION_NUM 1
  let core : ObjectCore := { guidCreationNum, owner := creator, allowUngatedTransfer := true }
  return (⟨object, canDelete⟩, { o with cores := o.cores.insert object core })

def createNamedObject (o : Objects) (creator : Address) (seed : List UInt8) :
    Result (ConstructorRef × Objects) :=
  createObjectInternal host o creator (createObjectAddress host creator seed) false

def createUserDerivedObject (o : Objects) (creator deriveRef : Address) :
    Result (ConstructorRef × Objects) :=
  createObjectInternal host o creator (createUserDerivedObjectAddress host creator deriveRef) false

def generateAuidAddress (o : Objects) : Address × Objects :=
  (host.address (.auid o.auids), { o with auids := o.auids + 1 })

def createObject (o : Objects) (owner : Address) : Result (ConstructorRef × Objects) :=
  let (uniqueAddress, o) := generateAuidAddress host o
  createObjectInternal host o owner uniqueAddress true

def createStickyObject (o : Objects) (owner : Address) : Result (ConstructorRef × Objects) :=
  let (uniqueAddress, o) := generateAuidAddress host o
  createObjectInternal host o owner uniqueAddress false

def createObjectFromAccount (o : Objects) (creator : Address) :
    Result (ConstructorRef × Objects) := do
  let (guid, o) ← accountGuid host o creator
  createObjectInternal host o creator (createGuidObjectAddress host creator guid) true

def createObjectFromObject (o : Objects) (creator : Address) :
    Result (ConstructorRef × Objects) := do
  let (guid, o) ← createGuid o creator
  createObjectInternal host o creator (createGuidObjectAddress host creator guid) true

/-! ## References -/

/-- A `DeleteRef`, `ExtendRef` or `TransferRef` is the address of the object it is for. -/
def generateDeleteRef (ref : ConstructorRef) : Result Address := do
  Checked.require (ref.canDelete = true) (ECANNOT_DELETE host)
  return ref.self

def generateExtendRef (ref : ConstructorRef) : Address := ref.self

def generateTransferRef (o : Objects) (ref : ConstructorRef) : Result Address := do
  Checked.require (o.untransferable.contains ref.self = false) (EOBJECT_NOT_TRANSFERRABLE host)
  return ref.self

/-- The marks fall with the object, but a tombstone stays. -/
def delete (o : Objects) (deleteRef : Address) : Result Objects := do
  let cores ← o.cores.remove .missingData deleteRef
  return { o with cores, untransferable := o.untransferable.erase deleteRef }

/-! ## Gates -/

def disableUngatedTransfer (o : Objects) (transferRef : Address) : Result Objects := do
  let object ← o.cores.borrow .missingData transferRef
  return { o with
    cores := o.cores.insert transferRef { object with allowUngatedTransfer := false } }

def enableUngatedTransfer (o : Objects) (transferRef : Address) : Result Objects := do
  Checked.require (o.untransferable.contains transferRef = false) (EOBJECT_NOT_TRANSFERRABLE host)
  let object ← o.cores.borrow .missingData transferRef
  return { o with
    cores := o.cores.insert transferRef { object with allowUngatedTransfer := true } }

def setUntransferable (o : Objects) (ref : ConstructorRef) : Result Objects := do
  let object ← o.cores.borrow .missingData ref.self
  let untransferable ← o.untransferable.add .missingData ref.self ()
  return { o with
    cores := o.cores.insert ref.self { object with allowUngatedTransfer := false }
    untransferable }

/-! ## Ownership -/

def owner (o : Objects) (object : Address) : Result Address := do
  Checked.require (o.cores.contains object = true) (EOBJECT_DOES_NOT_EXIST host)
  let core ← o.cores.borrow .missingData object
  return core.owner

def isOwner (o : Objects) (object person : Address) : Result Bool := do
  let owner ← owner host o object
  return owner = person

/-- The loop, with so many objects still to be looked at. -/
def ownsLoop (o : Objects) (person current : Address) : ℕ → Result Bool
  | 0 => if person = current then .ok true else .error (EMAXIMUM_NESTING host)
  | n + 1 =>
    if person = current then
      .ok true
    else if o.cores.contains current = false then
      .ok false
    else do
      let object ← o.cores.borrow .missingData current
      ownsLoop o person object.owner n

def owns (o : Objects) (object person : Address) : Result Bool :=
  if object = person then
    .ok true
  else do
    Checked.require (o.cores.contains object = true) (EOBJECT_DOES_NOT_EXIST host)
    let core ← o.cores.borrow .missingData object
    ownsLoop host o person core.owner (MAXIMUM_OBJECT_NESTING - 1)

/-- The loop of `verify_ungated_and_descendant`, likewise. -/
def verifyLoop (o : Objects) (person current : Address) : ℕ → Result Unit
  | 0 => if person = current then .ok () else .error (EMAXIMUM_NESTING host)
  | n + 1 =>
    if person = current then
      .ok ()
    else do
      Checked.require (o.cores.contains current = true) (ENOT_OBJECT_OWNER host)
      let object ← o.cores.borrow .missingData current
      Checked.require (object.allowUngatedTransfer = true) (ENO_UNGATED_TRANSFERS host)
      verifyLoop o person object.owner n

def verifyUngatedAndDescendant (o : Objects) (person destination : Address) : Result Unit := do
  Checked.require (o.cores.contains destination = true) (EOBJECT_DOES_NOT_EXIST host)
  let object ← o.cores.borrow .missingData destination
  Checked.require (object.allowUngatedTransfer = true) (ENO_UNGATED_TRANSFERS host)
  verifyLoop host o person object.owner (MAXIMUM_OBJECT_NESTING - 1)

/-! ## Transfers -/

def transferRawInner (o : Objects) (object recipient : Address) : Result Objects := do
  let core ← o.cores.borrow .missingData object
  if core.owner = recipient then
    return o
  else
    return { o with
      cores := o.cores.insert object { core with owner := recipient }
      events := o.events ++ [⟨object, core.owner, recipient⟩] }

/-- `transfer`, `transfer_call` and `transfer_to_object` all come to this. -/
def transferRaw (o : Objects) (person object recipient : Address) : Result Objects := do
  verifyUngatedAndDescendant host o person object
  transferRawInner o object recipient

def generateLinearTransferRef (o : Objects) (transferRef : Address) :
    Result LinearTransferRef := do
  Checked.require (o.untransferable.contains transferRef = false) (EOBJECT_NOT_TRANSFERRABLE host)
  let owner ← owner host o transferRef
  return ⟨transferRef, owner⟩

def transferWithRef (o : Objects) (ref : LinearTransferRef) (recipient : Address) :
    Result Objects := do
  Checked.require (o.untransferable.contains ref.self = false) (EOBJECT_NOT_TRANSFERRABLE host)
  let tombStones := o.tombStones.erase ref.self
  let object ← o.cores.borrow .missingData ref.self
  Checked.require (object.owner = ref.owner) (ENOT_OBJECT_OWNER host)
  return { o with
    tombStones
    cores := o.cores.insert ref.self { object with owner := recipient }
    events := o.events ++ [⟨ref.self, object.owner, recipient⟩] }

def isBurnt (o : Objects) (object : Address) : Bool := o.tombStones.contains object

/-- A closed gate does not stop this, and neither does the mark of an untransferable object. -/
def burn (o : Objects) (originalOwner object : Address) : Result Objects := do
  let owned ← isOwner host o object originalOwner
  Checked.require (owned = true) (ENOT_OBJECT_OWNER host)
  let tombStones ← o.tombStones.add .missingData object originalOwner
  transferRawInner { o with tombStones } object BURN_ADDRESS

def unburn (o : Objects) (originalOwner object : Address) : Result Objects := do
  let originalOwnerAddr ← o.tombStones.borrow (EOBJECT_NOT_BURNT host) object
  Checked.require (originalOwnerAddr = originalOwner) (ENOT_OBJECT_OWNER host)
  transferRawInner { o with tombStones := o.tombStones.erase object } object originalOwnerAddr

/-! ## The tokens and their stores -/

/-- `address_to_object<Metadata>`. -/
def metadataObject (o : Objects) (token : Address) : Result Unit := do
  Checked.require (o.cores.contains token = true) (EOBJECT_DOES_NOT_EXIST host)
  Checked.require (o.metadata.contains token = true) (ERESOURCE_DOES_NOT_EXIST host)

def EOBJECT_IS_DELETABLE : Abort := .code .fungibleAsset (Error.invalidArgument 18)
def EFUNGIBLE_METADATA_EXISTENCE : Abort := .code .fungibleAsset (Error.notFound 30)

def addFungibility (o : Objects) (ref : ConstructorRef) : Result Objects := do
  Checked.require (ref.canDelete = false) EOBJECT_IS_DELETABLE
  let metadata ← o.metadata.add .missingData ref.self ()
  return { o with metadata }

def createPrimaryStoreEnabledFungibleAsset (o : Objects) (ref : ConstructorRef) :
    Result Objects := do
  let o ← addFungibility o ref
  let deriveRefPods ← o.deriveRefPods.add .missingData ref.self ()
  return { o with deriveRefPods }

/-- `fungible_asset::set_untransferable`: stores of this token are made untransferable. -/
def setTokenUntransferable (o : Objects) (ref : ConstructorRef) : Result Objects := do
  Checked.require (o.metadata.contains ref.self = true) EFUNGIBLE_METADATA_EXISTENCE
  let untransferableTokens ← o.untransferableTokens.add .missingData ref.self ()
  return { o with untransferableTokens }

def createStore (o : Objects) (ref : ConstructorRef) (token : Address) : Result Objects := do
  metadataObject host o token
  let stores ← o.stores.add .missingData ref.self token
  let o := { o with stores }
  let o ← (if o.untransferableTokens.contains token then setUntransferable o ref else .ok o)
  Checked.require (o.cores.contains ref.self = true) (EOBJECT_DOES_NOT_EXIST host)
  return o

/-- `fungible_asset::remove_store`, for a store that is empty. -/
def removeStore (o : Objects) (deleteRef : Address) : Result Objects := do
  Checked.require (o.cores.contains deleteRef = true) (EOBJECT_DOES_NOT_EXIST host)
  Checked.require (o.stores.contains deleteRef = true) (ERESOURCE_DOES_NOT_EXIST host)
  let stores ← o.stores.remove .missingData deleteRef
  return { o with stores }

def createPrimaryStore (o : Objects) (owner token : Address) : Result Objects := do
  metadataObject host o token
  let _ ← o.deriveRefPods.borrow .missingData token
  let (constructorRef, o) ← createUserDerivedObject host o owner token
  let transferRef ← generateTransferRef host o constructorRef
  let o ← disableUngatedTransfer o transferRef
  createStore host o constructorRef token

def primaryStoreAddress (owner token : Address) : Address :=
  createUserDerivedObjectAddress host owner token

/-- The store, and the objects with it. -/
def ensurePrimaryStoreExists (o : Objects) (owner token : Address) :
    Result (Address × Objects) := do
  let store := primaryStoreAddress host owner token
  if o.stores.contains store then
    Checked.require (o.cores.contains store = true) (EOBJECT_DOES_NOT_EXIST host)
    return (store, o)
  else
    let o ← createPrimaryStore host o owner token
    return (store, o)

def mayBeUnburn (o : Objects) (owner store : Address) : Result Objects :=
  if isBurnt o store then unburn host o owner store else .ok o

/-- `fungible_asset::withdraw_sanity_check`, with what the stores hold. -/
def withdrawSanityCheck (o : Objects) (l : Table Address FungibleStore) (person store : Address) :
    Result Unit := do
  let owned ← owns host o store person
  Checked.require (owned = true) FungibleAsset.ENOT_STORE_OWNER
  let faStore ← l.borrow FungibleAsset.EFUNGIBLE_STORE_EXISTENCE store
  Checked.require (faStore.frozen = false) FungibleAsset.ESTORE_IS_FROZEN

end Object

end Pictor
