import Pictor.Framework.Object
import Pictor.Lib.Transactions

/-!
# Everyone's objects

The objects of a chain as all of its transactions work on them, one call after the other. References
are what a call needs besides its signer. Nobody asks here whose hands they are in: whoever wants to
may use any reference that has been made. A `ConstructorRef` and a `LinearTransferRef` last until
the end of the transaction that made them.

An object signs only through one of its own references, and nobody signs for the address to which
things are thrown away.
-/

namespace Pictor

/-- The references that have been made, by the objects they are for. -/
structure References where
  constructorRefs : Finset Object.ConstructorRef
  deleteRefs : Finset Address
  extendRefs : Finset Address
  transferRefs : Finset Address
  linearTransferRefs : Finset Object.LinearTransferRef
  deriving DecidableEq

structure ObjectChain where
  objects : Objects
  refs : References
  deriving DecidableEq

namespace Object

inductive Call where
  | createNamedObject (seed : List UInt8)
  | createObject (owner : Address)
  | createStickyObject (owner : Address)
  | createObjectFromAccount
  | createObjectFromObject
  /-- `account::create_account`, whose own two event handles take the first two GUIDs. -/
  | createAccount (account : Address)
  /-- Any other use of an account's or an object's GUIDs. -/
  | accountGuid
  | createGuid
  | generateDeleteRef (ref : ConstructorRef)
  | generateExtendRef (ref : ConstructorRef)
  | generateTransferRef (ref : ConstructorRef)
  | setUntransferable (ref : ConstructorRef)
  | addFungibility (ref : ConstructorRef)
  | createPrimaryStoreEnabledFungibleAsset (ref : ConstructorRef)
  | setTokenUntransferable (ref : ConstructorRef)
  | createStore (ref : ConstructorRef) (token : Address)
  | removeStore (deleteRef : Address)
  | delete (deleteRef : Address)
  | disableUngatedTransfer (transferRef : Address)
  | enableUngatedTransfer (transferRef : Address)
  | generateLinearTransferRef (transferRef : Address)
  | transferWithRef (ref : LinearTransferRef) (recipient : Address)
  | transfer (object recipient : Address)
  | burn (object : Address)
  | unburn (object : Address)
  | ensurePrimaryStoreExists (owner token : Address)
  deriving DecidableEq

end Object

namespace ObjectChain

open Object

inductive Act where
  | call (signer : Address) (call : Object.Call)
  | endTransaction
  deriving DecidableEq

/-- The reference that comes with a new object. -/
def obtain (c : ObjectChain) (created : ConstructorRef × Objects) : ObjectChain :=
  ⟨created.2, { c.refs with constructorRefs := insert created.1 c.refs.constructorRefs }⟩

/-- Whether there can be a signer for the address. -/
def CanSign (c : ObjectChain) (signer : Address) : Prop :=
  signer ≠ BURN_ADDRESS ∧ (c.objects.cores.contains signer = true →
    signer ∈ c.refs.extendRefs ∨ ∃ ref ∈ c.refs.constructorRefs, ref.self = signer)

instance (c : ObjectChain) (signer : Address) : Decidable (c.CanSign signer) :=
  inferInstanceAs (Decidable (_ ∧ (_ → _ ∨ ∃ ref ∈ c.refs.constructorRefs, _)))

variable (host : Object.Host)

/-- A reference has to be there. -/
def held (p : Prop) [Decidable p] : Result Unit := Checked.require p .missingData

def execCall (c : ObjectChain) (signer : Address) : Object.Call → Result ObjectChain
  | .createNamedObject seed => do
    let created ← createNamedObject host c.objects signer seed
    return c.obtain created
  | .createObject owner => do
    let created ← createObject host c.objects owner
    return c.obtain created
  | .createStickyObject owner => do
    let created ← createStickyObject host c.objects owner
    return c.obtain created
  | .createObjectFromAccount => do
    let created ← createObjectFromAccount host c.objects signer
    return c.obtain created
  | .createObjectFromObject => do
    let created ← createObjectFromObject host c.objects signer
    return c.obtain created
  | .createAccount account => do
    let accounts ← c.objects.accounts.add .missingData account 2
    return { c with objects := { c.objects with accounts } }
  | .accountGuid => do
    let (_, objects) ← accountGuid host c.objects signer
    return { c with objects }
  | .createGuid => do
    let (_, objects) ← createGuid c.objects signer
    return { c with objects }
  | .generateDeleteRef ref => do
    held (ref ∈ c.refs.constructorRefs)
    let deleteRef ← generateDeleteRef host ref
    return { c with refs := { c.refs with deleteRefs := insert deleteRef c.refs.deleteRefs } }
  | .generateExtendRef ref => do
    held (ref ∈ c.refs.constructorRefs)
    return { c with
      refs := { c.refs with extendRefs := insert (generateExtendRef ref) c.refs.extendRefs } }
  | .generateTransferRef ref => do
    held (ref ∈ c.refs.constructorRefs)
    let transferRef ← generateTransferRef host c.objects ref
    return { c with
      refs := { c.refs with transferRefs := insert transferRef c.refs.transferRefs } }
  | .setUntransferable ref => do
    held (ref ∈ c.refs.constructorRefs)
    let objects ← setUntransferable c.objects ref
    return { c with objects }
  | .addFungibility ref => do
    held (ref ∈ c.refs.constructorRefs)
    let objects ← addFungibility c.objects ref
    return { c with objects }
  | .createPrimaryStoreEnabledFungibleAsset ref => do
    held (ref ∈ c.refs.constructorRefs)
    let objects ← createPrimaryStoreEnabledFungibleAsset c.objects ref
    return { c with objects }
  | .setTokenUntransferable ref => do
    held (ref ∈ c.refs.constructorRefs)
    let objects ← setTokenUntransferable c.objects ref
    return { c with objects }
  | .createStore ref token => do
    held (ref ∈ c.refs.constructorRefs)
    let objects ← createStore host c.objects ref token
    return { c with objects }
  | .removeStore deleteRef => do
    held (deleteRef ∈ c.refs.deleteRefs)
    let objects ← removeStore host c.objects deleteRef
    return { c with objects }
  | .delete deleteRef => do
    held (deleteRef ∈ c.refs.deleteRefs)
    let objects ← delete c.objects deleteRef
    return { c with objects }
  | .disableUngatedTransfer transferRef => do
    held (transferRef ∈ c.refs.transferRefs)
    let objects ← disableUngatedTransfer c.objects transferRef
    return { c with objects }
  | .enableUngatedTransfer transferRef => do
    held (transferRef ∈ c.refs.transferRefs)
    let objects ← enableUngatedTransfer host c.objects transferRef
    return { c with objects }
  | .generateLinearTransferRef transferRef => do
    held (transferRef ∈ c.refs.transferRefs)
    let ref ← generateLinearTransferRef host c.objects transferRef
    return { c with
      refs := { c.refs with linearTransferRefs := insert ref c.refs.linearTransferRefs } }
  | .transferWithRef ref recipient => do
    held (ref ∈ c.refs.linearTransferRefs)
    let objects ← transferWithRef host c.objects ref recipient
    return { c with objects }
  | .transfer object recipient => do
    let objects ← transferRaw host c.objects signer object recipient
    return { c with objects }
  | .burn object => do
    let objects ← burn host c.objects signer object
    return { c with objects }
  | .unburn object => do
    let objects ← unburn host c.objects signer object
    return { c with objects }
  | .ensurePrimaryStoreExists owner token => do
    let (_, objects) ← ensurePrimaryStoreExists host c.objects owner token
    return { c with objects }

def exec (c : ObjectChain) : Act → Result ObjectChain
  | .call signer call => do
    Checked.require (c.CanSign signer) .missingData
    execCall host c signer call
  | .endTransaction =>
    return { c with refs := { c.refs with constructorRefs := ∅, linearTransferRefs := ∅ } }

abbrev run : ObjectChain → List Act → ObjectChain := Transactions.run (exec host)
abbrev history : ObjectChain → List Act → List (Transactions.Event ObjectChain Act) :=
  Transactions.history (exec host)

/-! ## Addresses

What a call derives an address from, in the state it is made in. The functions that derive addresses
are hashes; all one can ask of them is that nobody finds a collision. -/

def callSource (c : ObjectChain) (signer : Address) : Object.Call → Option Source
  | .createNamedObject seed => some (.seed signer seed)
  | .createObject _ | .createStickyObject _ => some (.auid c.objects.auids)
  | .createObjectFromAccount => (c.objects.accounts.lookup signer).map (.guid signer)
  | .createObjectFromObject =>
    (c.objects.cores.lookup signer).map fun core => .guid signer core.guidCreationNum
  | .ensurePrimaryStoreExists owner token => some (.derived owner token)
  | _ => none

def source (c : ObjectChain) : Act → Option Source
  | .call signer call => c.callSource signer call
  | .endTransaction => none

/-- Whatever a run has derived an address from. -/
def sources (h : List (Transactions.Event ObjectChain Act)) : List Source :=
  h.filterMap fun e => e.pre.source e.act

/-- No two of them have the same address, and none has the one things are thrown away to. -/
def NoCollision (h : List (Transactions.Event ObjectChain Act)) : Prop :=
  (∀ src ∈ sources h, ∀ src' ∈ sources h, host.address src = host.address src' → src = src') ∧
    ∀ src ∈ sources h, host.address src ≠ BURN_ADDRESS

instance (h : List (Transactions.Event ObjectChain Act)) : Decidable (NoCollision host h) :=
  inferInstanceAs (Decidable ((∀ src ∈ sources h, ∀ src' ∈ sources h, _) ∧ ∀ src ∈ sources h, _))

/-- No account and no object yet. -/
def empty : ObjectChain := ⟨⟨∅, ∅, ∅, ∅, 0, ∅, ∅, ∅, ∅, []⟩, ⟨∅, ∅, ∅, ∅, ∅⟩⟩

/-! ## A chain to try it on

Instead of a hash, an address shows what it was derived from, before the byte of the scheme. -/

def testHost : Object.Host where
  address := fun
    | .seed creator seed => (creator + BitVec.ofNat 256 seed.length) <<< 8 ||| 0xfe
    | .derived creator derivedFrom => (creator ^^^ derivedFrom <<< 64) <<< 8 ||| 0xfc
    | .guid creator creationNum =>
      (creator ^^^ BitVec.ofNat 256 creationNum.toNat <<< 64) <<< 8 ||| 0xfd
    | .auid n => BitVec.ofNat 256 n <<< 8 ||| 0xfb
  abort := fun _ => .missingData
  exceededMaxGuidCreationNum := .missingData

/-- A token whose stores are untransferable … -/
def tokenActs : List Act :=
  [.call 0xcafe (.createNamedObject []),
    .call 0xcafe (.createPrimaryStoreEnabledFungibleAsset ⟨0xcafefe, false⟩),
    .call 0xcafe (.setTokenUntransferable ⟨0xcafefe, false⟩), .endTransaction]

/-- … and a store of it. -/
def storeActs : List Act :=
  [.call 0xb0b (.createObject 0xb0b), .call 0xb0b (.createStore ⟨0xfb, true⟩ 0xcafefe),
    .endTransaction]

end ObjectChain

end Pictor
