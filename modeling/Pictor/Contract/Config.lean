import Pictor.Contract.State

/-!
# The module `pictor_config`

Operators, treasury, earning percentage, admin key, and custody of the payment token: the vault
maps each supported token to the store that holds it. Signers are the addresses they authenticate.
-/

namespace Pictor

namespace PictorConfig

def DENOMINATOR : UInt64 := 10000

def EINITIALIZED : Abort := .code .pictorConfig 0
def ENOT_AUTHORIZED : Abort := .code .pictorConfig 1
def ENOT_SUPPORTED_TOKEN : Abort := .code .pictorConfig 4

/-- `package_manager::get_address` on a name it does not know. -/
def addressNotFound : Abort := .code .smartTable (Error.invalidArgument 1)

def isInitialized (w : World) : Bool := w.config.isSome

/-- `get_config` and `unchecked_config`: borrow the resource at `storage_address`. -/
def getConfig (w : World) : Result Config := Checked.getOrAbort w.config addressNotFound

/-- The store `initializeConfig` creates: an object owned by the module's resource account. -/
def vaultStore (env : Env) (paymentToken : Token) : Store :=
  ⟨env.configAddress, paymentToken, .object env.vaultObject⟩

def initializeConfig (env : Env) (w : World) (owner : Address) (paymentToken : Token)
    (treasuryAddr : Address) (adminPubkey : List UInt8) : Result World := do
  Checked.require (owner = env.deployer) ENOT_AUTHORIZED
  Checked.require (¬ isInitialized w = true) EINITIALIZED
  let stores ← FungibleAsset.createStore w.stores (vaultStore env paymentToken)
  let vault ← Table.add ∅ tableAlreadyExists paymentToken (vaultStore env paymentToken)
  let config : Config :=
    { operators := [], isPause := false, treasuryAddr, workerEarningPercentage := 6000,
      adminPubkey, vault }
  return { w with config := some config, stores }

def setAdminPubkey (env : Env) (w : World) (owner : Address) (newAdminPub : List UInt8) :
    Result World := do
  Checked.require (owner = env.deployer) ENOT_AUTHORIZED
  let config ← getConfig w
  return { w with config := some { config with adminPubkey := newAdminPub } }

def addOperator (env : Env) (w : World) (owner newOperatorer : Address) : Result World := do
  let config ← getConfig w
  Checked.require (owner = env.deployer) ENOT_AUTHORIZED
  if ¬ MoveVector.contains config.operators newOperatorer = true then
    let operators := config.operators ++ [newOperatorer]
    return { w with config := some { config with operators } }
  else
    return w

def removeOperator (env : Env) (w : World) (owner operator : Address) : Result World := do
  let config ← getConfig w
  Checked.require (owner = env.deployer) ENOT_AUTHORIZED
  -- the first occurrence only
  let (found, index) := MoveVector.indexOf config.operators operator
  if found then
    let (_, operators) ← MoveVector.remove config.operators index
    return { w with config := some { config with operators } }
  else
    return w

def isOperator (w : World) (addr : Address) : Result Bool := do
  let config ← getConfig w
  return MoveVector.contains config.operators addr

def getAdminPubkey (w : World) : Result (List UInt8) := do
  let config ← getConfig w
  return config.adminPubkey

def getTreasuryAddress (w : World) : Result Address := do
  let config ← getConfig w
  return config.treasuryAddr

def getDenominator : UInt64 := DENOMINATOR

def getWorkerEarningPercentage (w : World) : Result UInt64 := do
  let config ← getConfig w
  return config.workerEarningPercentage

def getVaultStore (w : World) (token : Token) : Result Store := do
  let config ← getConfig w
  Checked.require (config.vault.contains token = true) ENOT_SUPPORTED_TOKEN
  config.vault.borrow tableNotFound token

def getVaultBalance (w : World) (token : Token) : Result UInt64 := do
  let store ← getVaultStore w token
  return FungibleAsset.balance w.stores store

def assertTokenSupported (w : World) (token : Token) : Result Unit := do
  let config ← getConfig w
  Checked.require (config.vault.contains token = true) ENOT_SUPPORTED_TOKEN

def depositVault (env : Env) (w : World) (asset : FungibleAsset) (token : Token) :
    Result World := do
  let store ← getVaultStore w token
  let stores ← DispatchableFungibleAsset.deposit env w.stores store asset
  return { w with stores }

def withdrawVault (env : Env) (w : World) (amount : UInt64) (token : Token) :
    Result (FungibleAsset × World) := do
  let store ← getVaultStore w token
  let (fa, stores) ←
    DispatchableFungibleAsset.withdraw env w.stores env.configAddress store amount
  return (fa, { w with stores })

def withdrawToTreasury (env : Env) (w : World) (operator : Address) (amount : UInt64)
    (token : Token) : Result World := do
  let authorized ← isOperator w operator
  Checked.require (authorized = true) ENOT_AUTHORIZED
  assertTokenSupported w token
  let store ← getVaultStore w token
  let (fungibleToken, stores) ←
    DispatchableFungibleAsset.withdraw env w.stores env.configAddress store amount
  let w := { w with stores }
  let treasury ← getTreasuryAddress w
  let stores ← PrimaryFungibleStore.deposit env w.stores treasury fungibleToken
  return { w with stores }

/-! ## When the accessors return -/

@[simp] theorem getConfig_eq_ok {w : World} {c : Config} :
    getConfig w = .ok c ↔ w.config = some c :=
  Checked.getOrAbort_eq_ok

theorem isOperator_eq_true {w : World} {a : Address} :
    isOperator w a = .ok true ↔ a ∈ w.operators := by
  cases h : w.config <;> simp [isOperator, getConfig, World.operators, h, Checked.getOrAbort]

theorem getVaultStore_eq_ok {w : World} {token : Token} {s : Store} :
    getVaultStore w token = .ok s ↔ w.vault.lookup token = some s := by
  cases h : w.config with
  | none => simp [getVaultStore, getConfig, World.vault, h, Checked.getOrAbort]
  | some c =>
    simp only [getVaultStore, getConfig, h, Checked.getOrAbort, Checked.ok_bind, World.vault,
      Checked.bind_eq_ok, Checked.require_eq_ok, Table.borrow_eq_ok, exists_const, Option.map_some,
      Option.getD_some, and_iff_right_iff_imp]
    intro hs
    exact Table.contains_eq_true.mpr ⟨s, hs⟩

theorem getTreasuryAddress_eq_ok {w : World} {a : Address} :
    getTreasuryAddress w = .ok a ↔ ∃ c, w.config = some c ∧ c.treasuryAddr = a := by
  simp [getTreasuryAddress]

theorem getWorkerEarningPercentage_eq_ok {w : World} {p : UInt64} :
    getWorkerEarningPercentage w = .ok p ↔
      ∃ c, w.config = some c ∧ c.workerEarningPercentage = p := by
  simp [getWorkerEarningPercentage]

end PictorConfig

end Pictor
