import Mathlib.Data.Set.Insert
import Mathlib.Logic.Function.Basic
import Pictor.Property.Ledger

/-!
# What the contract is for: a ledger of a compute market

The contract's accounts without the tables they are kept in. Operators and users are sets, credit
and balance are functions into the natural numbers, and a job is what was ordered and whether it has
been settled; what it costs is a sum, not a field. That a sum fits into 64 bits is a reason to
refuse a call (`fits`), and a settlement pays for one task after the other because of it. The tokens
stay what the framework makes of them, since the contract has no say in that: stores, and the calls
that move between them, are the contract's, and so are the tasks and what a claim is signed over.

`Ledger.step` says for each call whom it is for, what it asks for and what it changes, and with
which code it is refused. `Pictor.Refinement.Simulation` proves that the two modules are this
ledger.
-/

namespace Pictor

/-- A job as its user knows it. -/
structure Order where
  tasks : List Task
  settled : Bool

/-- What the tasks cost together. -/
def Order.price (o : Order) : ℕ := (o.tasks.map fun t => t.cost.toNat).sum

@[ext]
structure Ledger where
  operators : Set Address
  adminPubkey : List UInt8
  treasury : Address
  percentage : ℕ
  vault : Token → Option Store
  users : Set Address
  credit : Address → ℕ
  balance : Address → ℕ
  order : Address → String → Option Order
  workerOwner : String → Option Address
  request : UInt64 → Option CreditRequest
  stores : Stores

namespace Ledger

/-- Nobody has an account, and one token is accepted. -/
def initial (env : Env) (P : Token) (treasury : Address) (adminPubkey : List UInt8)
    (stores : Stores) : Ledger where
  operators := ∅
  adminPubkey := adminPubkey
  treasury := treasury
  percentage := 6000
  vault token := if token = P then some (PictorConfig.vaultStore env P) else none
  users := ∅
  credit _ := 0
  balance _ := 0
  order _ _ := none
  workerOwner _ := none
  request _ := none
  stores := stores

/-! ## Changes -/

/-- Open an account. Whoever had none has no credit, no balance and no orders, so there is nothing
else to say. -/
def enrol (L : Ledger) (u : Address) : Ledger := { L with users := insert u L.users }

def withCredit (L : Ledger) (u : Address) (n : ℕ) : Ledger :=
  { L with credit := Function.update L.credit u n }

def withBalance (L : Ledger) (u : Address) (n : ℕ) : Ledger :=
  { L with balance := Function.update L.balance u n }

def withOrder (L : Ledger) (u : Address) (j : String) (o : Order) : Ledger :=
  { L with order := fun x k => if x = u ∧ k = j then some o else L.order x k }

/-- Give a worker id to `u`, unless somebody has it. -/
def withWorker (L : Ledger) (id : String) (u : Address) : Ledger :=
  { L with workerOwner := fun k => (L.workerOwner k).or (if k = id then some u else none) }

def withRequest (L : Ledger) (r : UInt64) (c : CreditRequest) : Ledger :=
  { L with request := Function.update L.request r (some c) }

/-! ## Refusals -/

/-- Refuse what does not fit into 64 bits. -/
def fits (n : ℕ) : Result Unit := Checked.require (n < 2 ^ 64) .arithmeticError

open Classical in
/-- Refuse everybody but the operators. -/
noncomputable def forOperator (L : Ledger) (a : Address) (e : Abort) : Result Unit :=
  Checked.require (a ∈ L.operators) e

open Classical in
/-- The order `j` of a user. -/
noncomputable def findOrder (L : Ledger) (u : Address) (j : String) : Result Order := do
  Checked.require (u ∈ L.users) tableNotFound
  Checked.getOrAbort (L.order u j) PictorNetwork.EJOB_NOT_FOUND

/-- The vault of a token. -/
def findVault (L : Ledger) (token : Token) : Result Store :=
  Checked.getOrAbort (L.vault token) PictorConfig.ENOT_SUPPORTED_TOKEN

/-! ## Settling an order -/

/-- Pay for one task after the other: each share is rounded down by itself. -/
def payAll (L : Ledger) : List Task → (Address → ℕ) → Result (Address → ℕ)
  | [], balance => .ok balance
  | t :: ts, balance => do
    let o ← Checked.getOrAbort (L.workerOwner t.workerId) tableNotFound
    fits (t.cost.toNat * L.percentage)
    fits (balance o + t.cost.toNat * L.percentage / 10000)
    payAll L ts (Function.update balance o (balance o + t.cost.toNat * L.percentage / 10000))

/-! ## The calls -/

section Calls

variable (env : Env) (L : Ledger) (a : Address)

open Classical in
/-- What each call does for signer `a`. -/
noncomputable def call : Call → Result Ledger
  | .initializeConfig _ _ _ => do
    Checked.require (a = env.deployer) PictorConfig.ENOT_AUTHORIZED
    .error PictorConfig.EINITIALIZED
  | .initializeNetwork => do
    Checked.require (a = env.deployer) PictorNetwork.ENOT_AUTHORIZED
    .error PictorNetwork.EINITIALIZED
  | .setAdminPubkey pk => do
    Checked.require (a = env.deployer) PictorConfig.ENOT_AUTHORIZED
    return { L with adminPubkey := pk }
  | .addOperator x => do
    Checked.require (a = env.deployer) PictorConfig.ENOT_AUTHORIZED
    return { L with operators := insert x L.operators }
  | .removeOperator x => do
    Checked.require (a = env.deployer) PictorConfig.ENOT_AUTHORIZED
    return { L with operators := L.operators \ {x} }
  | .withdrawToTreasury amount token => do
    L.forOperator a PictorConfig.ENOT_AUTHORIZED
    let s ← L.findVault token
    let (fa, l) ← DispatchableFungibleAsset.withdraw env L.stores env.configAddress s amount
    let l ← PrimaryFungibleStore.deposit env l L.treasury fa
    return { L with stores := l }
  | .registerUser => .ok (L.enrol a)
  | .registerWorker id => .ok ((L.enrol a).withWorker id a)
  | .opRegisterWorker u id => do
    L.forOperator a PictorNetwork.ENOT_AUTHORIZED
    return (L.enrol u).withWorker id u
  | .opCreateJob u j => do
    L.forOperator a PictorNetwork.ENOT_AUTHORIZED
    Checked.require ((L.order u j).isNone = true) PictorNetwork.EJOB_EXISTS
    return (L.enrol u).withOrder u j ⟨[], false⟩
  | .opAddTask u j taskId id cost duration => do
    L.forOperator a PictorNetwork.ENOT_AUTHORIZED
    let o ← L.findOrder u j
    fits (L.credit u + L.balance u)
    Checked.require (cost.toNat ≤ L.credit u + L.balance u) PictorNetwork.EINSUFFICENT_BALANCE
    fits (o.price + cost.toNat)
    -- credit goes first, and balance pays the rest
    let L := L.withBalance u (L.balance u - (cost.toNat - L.credit u))
    let L := L.withCredit u (L.credit u - cost.toNat)
    return L.withOrder u j ⟨o.tasks ++ [⟨taskId, id, cost, duration⟩], o.settled⟩
  | .opCompleteJob u j => do
    L.forOperator a PictorNetwork.ENOT_AUTHORIZED
    let o ← L.findOrder u j
    -- from the last task to the first
    let balance ← L.payAll o.tasks.reverse L.balance
    return { L.withOrder u j ⟨o.tasks, true⟩ with balance }
  | .opCreditUser u amount => do
    L.forOperator a PictorNetwork.ENOT_AUTHORIZED
    fits (L.credit u + amount.toNat)
    return (L.enrol u).withCredit u (L.credit u + amount.toNat)
  | .opDebitUser u amount => do
    L.forOperator a PictorNetwork.ENOT_AUTHORIZED
    Checked.require (u ∈ L.users) PictorNetwork.EUSER_NOT_REGISTERED
    Checked.require (amount.toNat ≤ L.credit u) PictorNetwork.EINSUFFICENT_BALANCE
    return L.withCredit u (L.credit u - amount.toNat)
  | .deposit amount token => do
    fits (L.credit a + amount.toNat)
    let (fa, l) ← PrimaryFungibleStore.withdraw env L.stores a token amount
    let s ← L.findVault token
    let l ← DispatchableFungibleAsset.deposit env l s fa
    return { (L.enrol a).withCredit a (L.credit a + amount.toNat) with stores := l }
  | .withdraw amount token => do
    Checked.require (a ∈ L.users) PictorNetwork.EUSER_NOT_REGISTERED
    Checked.require (amount.toNat ≤ L.balance a) PictorNetwork.EINSUFFICENT_BALANCE
    let s ← L.findVault token
    let (fa, l) ← DispatchableFungibleAsset.withdraw env L.stores env.configAddress s amount
    let l ← PrimaryFungibleStore.deposit env l a fa
    return { L.withBalance a (L.balance a - amount.toNat) with stores := l }
  | .claimCredit amount r signature => do
    Checked.require ((L.request r).isNone = true) PictorNetwork.ECREDIT_REQUEST_EXISTS
    Checked.require (L.adminPubkey.length = 32) Ed25519.E_WRONG_PUBKEY_SIZE
    Checked.require (signature.length = 64) Ed25519.E_WRONG_SIGNATURE_SIZE
    Checked.require (env.signatureVerifyStrict signature L.adminPubkey (claimMessage amount r a) =
      true) PictorNetwork.EINVALID_SIGNATURE
    fits (L.credit a + amount.toNat)
    return ((L.enrol a).withCredit a (L.credit a + amount.toNat)).withRequest r ⟨a, amount⟩

open Classical in
/-- One step of the ledger. Outsiders move tokens as they like, but take none out of a vault. -/
noncomputable def step : Action → Result Ledger
  | .txn a c => L.call env a c
  | .outside l' =>
    if ∀ token s, L.vault token = some s → units L.stores s ≤ units l' s then
      .ok { L with stores := l' }
    else .error .missingData

end Calls

end Ledger

end Pictor
