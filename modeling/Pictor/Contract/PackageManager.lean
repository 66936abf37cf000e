import Pictor.Contract.System
import Pictor.Framework.SmartTable

/-!
# The module `package_manager`, and the chain below `World`

Each module keeps its resources under a resource account of its own, made when it is initialised,
and finds them again by asking the package manager for the account registered under the module's
name. `Chain` has the registry and the resources under their addresses; the `World` that the two
modules see is what they find there.

The two initialisations are the only functions to register names and publish resources, and are
here as the source has them, next to the accessors by which every other function finds a resource
and writes to it. Those functions themselves are `World`'s; of them it matters here only that they
leave the resources where they are, whatever they make of them.
-/

namespace Pictor

/-- What the chain provides: derived addresses and hashes. -/
structure Host where
  env : Env
  natives : SmartTable.Natives String Address
  /-- `@pictor_network`, the resource account the package is published under. -/
  pictorNetwork : Address
  /-- `account::create_resource_address`, a hash of the source account and the seed. -/
  createResourceAddress : Address → String → Address
  /-- The object made from the first GUID of `pictorNetwork`. -/
  packageManagerObject : Address
  configAddress_eq : env.configAddress = createResourceAddress pictorNetwork "PICTOR_CONFIG"
  addresses_ne : createResourceAddress pictorNetwork "PICTOR_CONFIG" ≠
    createResourceAddress pictorNetwork "PICTOR_NETWORK"

/-- A signer capability is the account it is for. -/
structure PermissionConfig where
  signerCap : Address
  addresses : SmartTable String Address

structure AdministrativeData where
  governance : Address
  operator : Address
  deriving DecidableEq, Repr

/-- The resources, each kind under the addresses that hold one. -/
structure Chain where
  permissionConfigs : Table Address PermissionConfig
  administrativeData : Table Address AdministrativeData
  /-- `signer_capability_offer.for` of the accounts where it is set. -/
  signerCapabilityOffers : Table Address Address
  /-- `SignerConfig` and `Config` of `pictor_config`. -/
  configSigners : Table Address Address
  configs : Table Address Config
  /-- `SignerConfig` and `GlobalData` of `pictor_network`. -/
  networkSigners : Table Address Address
  globals : Table Address GlobalData
  stores : Stores

/-- `move_to`. -/
def moveTo {R : Type} (resources : Table Address R) (account : Address) (resource : R) :
    Result (Table Address R) :=
  resources.add .missingData account resource

/-- `borrow_global`. -/
def borrowGlobal {R : Type} (resources : Table Address R) (account : Address) : Result R :=
  resources.borrow .missingData account

section

variable (host : Host)

namespace PackageManager

def PACKAGE_MANAGER_OBJECT_NAME : String := "PACKAGE_MANAGER"

def ENOT_AUTHORIZED : Abort := .code .packageManager 2

def safePermissionConfig (c : Chain) : Result PermissionConfig :=
  borrowGlobal c.permissionConfigs host.pictorNetwork

/-- `get_signer`: the account the returned signer is for. -/
def getSigner (c : Chain) : Result Address := do
  let config ← safePermissionConfig host c
  return config.signerCap

def addAddress (c : Chain) (name : String) (object : Address) : Result Chain := do
  let config ← safePermissionConfig host c
  let addresses ← SmartTable.add host.natives config.addresses name object
  return { c with
    permissionConfigs := c.permissionConfigs.insert host.pictorNetwork { config with addresses } }

def addressExists (c : Chain) (name : String) : Result Bool := do
  let config ← safePermissionConfig host c
  SmartTable.contains host.natives config.addresses name

def getAddress (c : Chain) (name : String) : Result Address := do
  let config ← safePermissionConfig host c
  SmartTable.borrow host.natives config.addresses name

def packageManagerAddress (c : Chain) : Result Address :=
  getAddress host c PACKAGE_MANAGER_OBJECT_NAME

/-- What `upgrade` asks of its caller before it publishes. -/
def validateGovernance (c : Chain) (governance : Address) : Result Unit := do
  let manager ← packageManagerAddress host c
  let data ← borrowGlobal c.administrativeData manager
  Checked.require (data.governance = governance) ENOT_AUTHORIZED

/-- `init_module`, with the signer capability of the resource account in hand. -/
def initModule (c : Chain) : Result Chain := do
  let addresses ← SmartTable.new
  let permissionConfigs ← moveTo c.permissionConfigs host.pictorNetwork
    { signerCap := host.pictorNetwork, addresses }
  let c := { c with permissionConfigs }
  let _ ← getSigner host c
  let c ← addAddress host c PACKAGE_MANAGER_OBJECT_NAME host.packageManagerObject
  let administrativeData ← moveTo c.administrativeData host.packageManagerObject
    { operator := host.env.deployer, governance := host.env.deployer }
  return { c with administrativeData }

end PackageManager

/-- `ERESOURCE_ACCCOUNT_EXISTS` of `account`. -/
def ERESOURCE_ACCCOUNT_EXISTS : Abort := .code .account (Error.alreadyExists 15)

/-- `account::create_resource_account`. Nobody has a key for the account, so it has sent no
transaction. -/
def createResourceAccount (c : Chain) (source : Address) (seed : String) :
    Result (Address × Chain) := do
  let resourceAddr := host.createResourceAddress source seed
  Checked.require (¬ c.signerCapabilityOffers.contains resourceAddr = true)
    ERESOURCE_ACCCOUNT_EXISTS
  return (resourceAddr, { c with
    signerCapabilityOffers := c.signerCapabilityOffers.insert resourceAddr resourceAddr })

namespace PictorConfig

def MODULE_NAME : String := "PICTOR_CONFIG"

def initializeModule (c : Chain) (owner : Address) (paymentToken : Token) (treasuryAddr : Address)
    (adminPubkey : List UInt8) : Result Chain := do
  Checked.require (owner = host.env.deployer) ENOT_AUTHORIZED
  let initialized ← PackageManager.addressExists host c MODULE_NAME
  Checked.require (¬ initialized = true) EINITIALIZED
  let source ← PackageManager.getSigner host c
  let (moduleSigner, c) ← createResourceAccount host c source MODULE_NAME
  let configSigners ← moveTo c.configSigners moduleSigner moduleSigner
  let store : Store := ⟨moduleSigner, paymentToken, .object host.env.vaultObject⟩
  let stores ← FungibleAsset.createStore c.stores store
  let vault ← Table.add ∅ tableAlreadyExists paymentToken store
  let config : Config :=
    { operators := [], isPause := false, treasuryAddr, workerEarningPercentage := 6000,
      adminPubkey, vault }
  let configs ← moveTo c.configs moduleSigner config
  PackageManager.addAddress host { c with configSigners, stores, configs } MODULE_NAME moduleSigner

/-- `get_signer`: whom the module's transfers out of the vault are signed by. -/
def getSigner (c : Chain) : Result Address := do
  let storage ← PackageManager.getAddress host c MODULE_NAME
  borrowGlobal c.configSigners storage

/-- `get_config` and `unchecked_config`, on the chain. -/
def borrowConfig (c : Chain) : Result Config := do
  let storage ← PackageManager.getAddress host c MODULE_NAME
  borrowGlobal c.configs storage

/-- Write back through the reference of `unchecked_config`. -/
def writeConfig (c : Chain) (config : Config) : Result Chain := do
  let storage ← PackageManager.getAddress host c MODULE_NAME
  let _ ← borrowGlobal c.configs storage
  return { c with configs := c.configs.insert storage config }

end PictorConfig

namespace PictorNetwork

def MODULE_NAME : String := "PICTOR_NETWORK"

def initializeModule (c : Chain) (owner : Address) : Result Chain := do
  Checked.require (owner = host.env.deployer) ENOT_AUTHORIZED
  let initialized ← PackageManager.addressExists host c MODULE_NAME
  Checked.require (¬ initialized = true) EINITIALIZED
  let source ← PackageManager.getSigner host c
  let (moduleSigner, c) ← createResourceAccount host c source MODULE_NAME
  let networkSigners ← moveTo c.networkSigners moduleSigner moduleSigner
  let globals ← moveTo c.globals moduleSigner { workers := ∅, users := ∅, creditRequests := ∅ }
  PackageManager.addAddress host { c with networkSigners, globals } MODULE_NAME moduleSigner

/-- `get_global_data` and `mut_global_data`, on the chain. -/
def borrowGlobalData (c : Chain) : Result GlobalData := do
  let storage ← PackageManager.getAddress host c MODULE_NAME
  borrowGlobal c.globals storage

/-- Write back through the reference of `mut_global_data`. -/
def writeGlobalData (c : Chain) (global : GlobalData) : Result Chain := do
  let storage ← PackageManager.getAddress host c MODULE_NAME
  let _ ← borrowGlobal c.globals storage
  return { c with globals := c.globals.insert storage global }

end PictorNetwork

namespace Chain

/-- The resource a module finds at the address registered under its name. -/
def find {R : Type} (c : Chain) (resources : Table Address R) (name : String) : Option R :=
  match PackageManager.getAddress host c name with
  | .ok storage => resources.lookup storage
  | .error _ => none

/-- What the two modules see. -/
def world (c : Chain) : World :=
  ⟨c.find host c.configs PictorConfig.MODULE_NAME, c.find host c.globals PictorNetwork.MODULE_NAME,
    c.stores⟩

/-- What changes a chain. -/
inductive Act where
  | initializeConfig (owner : Address) (paymentToken : Token) (treasuryAddr : Address)
      (adminPubkey : List UInt8)
  | initializeNetwork (owner : Address)
  /-- Any other transaction. It may write to the resources that are there and move tokens. -/
  | others (configs : Table Address Config) (globals : Table Address GlobalData) (stores : Stores)

def exec (c : Chain) : Act → Result Chain
  | .initializeConfig owner token treasury pk =>
    PictorConfig.initializeModule host c owner token treasury pk
  | .initializeNetwork owner => PictorNetwork.initializeModule host c owner
  | .others configs globals stores => do
    Checked.require (configs.keys = c.configs.keys ∧ globals.keys = c.globals.keys) .missingData
    return { c with configs, globals, stores }

abbrev run : Chain → List Act → Chain := Transactions.run (exec host)

/-- Nothing published, next to some stores. -/
def empty (stores : Stores) : Chain := ⟨∅, ∅, ∅, ∅, ∅, ∅, ∅, stores⟩

end Chain

end

end Pictor
