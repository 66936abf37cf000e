import Pictor.Contract.PackageManager
import Pictor.Property.Deployment
import Pictor.Refinement.SmartTable

/-!
# The resources behind a `World`

A `World` has one `Option` for each module, where the chain has a name in the package manager's
registry, an account registered under it and a resource published there. `Deployed` says how the
three hang together, and `modules_resolve` that they always do: the initialisations and accessors of
the two modules do on the chain what they do in its `World`. The registry itself is a smart table,
and is used through the map it represents.
-/

namespace Pictor

open PackageManager (PACKAGE_MANAGER_OBJECT_NAME)

variable {host : Host} {c c' : Chain} {w : World}

namespace Host

/-- The resource accounts of the two modules. -/
def configAccount (host : Host) : Address :=
  host.createResourceAddress host.pictorNetwork PictorConfig.MODULE_NAME

def networkAccount (host : Host) : Address :=
  host.createResourceAddress host.pictorNetwork PictorNetwork.MODULE_NAME

theorem networkAccount_ne (host : Host) : host.networkAccount ≠ host.configAccount :=
  host.addresses_ne.symm

end Host

/-! ## The registry -/

/-- The names the package registers. -/
def knownNames : Finset String :=
  {PACKAGE_MANAGER_OBJECT_NAME, PictorConfig.MODULE_NAME, PictorNetwork.MODULE_NAME}

/-- The package manager has registered these names, and no others. -/
def Registry (host : Host) (c : Chain) (names : String → Option Address) : Prop :=
  ∃ addresses s m, c.permissionConfigs.lookup host.pictorNetwork =
      some ⟨host.pictorNetwork, addresses⟩ ∧
    SmartTable.Represents host.natives addresses s m ∧ s.buckets ≤ 2 + m.keys.card ∧
    m.keys ⊆ knownNames ∧ ∀ name, m.lookup name = names name

namespace Registry

variable {names : String → Option Address}

theorem of_eq {names' : String → Option Address} (h : Registry host c names)
    (heq : names' = names) : Registry host c names' :=
  heq ▸ h

variable (h : Registry host c names) (name : String)
include h

theorem getSigner_eq : PackageManager.getSigner host c = .ok host.pictorNetwork := by
  obtain ⟨addresses, s, m, hconfig, -⟩ := h
  simp [PackageManager.getSigner, PackageManager.safePermissionConfig, borrowGlobal, Table.borrow,
    hconfig, Checked.getOrAbort, pure, Except.pure]

theorem addressExists_eq :
    PackageManager.addressExists host c name = .ok (names name).isSome := by
  obtain ⟨addresses, s, m, hconfig, hrep, hbuckets, hkeys, hnames⟩ := h
  have hcard : m.keys.card ≤ 3 := (Finset.card_le_card hkeys).trans (by decide)
  rw [PackageManager.addressExists, PackageManager.safePermissionConfig, borrowGlobal,
    Table.borrow_eq_ok.mpr hconfig, Checked.ok_bind, hrep.contains_eq (by omega), Table.contains,
    hnames]

theorem getAddress_eq : PackageManager.getAddress host c name =
    Checked.getOrAbort (names name) PictorConfig.addressNotFound := by
  obtain ⟨addresses, s, m, hconfig, hrep, hbuckets, hkeys, hnames⟩ := h
  have hcard : m.keys.card ≤ 3 := (Finset.card_le_card hkeys).trans (by decide)
  rw [PackageManager.getAddress, PackageManager.safePermissionConfig, borrowGlobal,
    Table.borrow_eq_ok.mpr hconfig, Checked.ok_bind, hrep.borrow_eq (by omega), Table.borrow,
    hnames]
  rfl

/-- A name of the package that is not registered yet can be. -/
theorem addAddress_eq (hname : name ∈ knownNames) (hnew : names name = none) (object : Address) :
    ∃ permissionConfigs, PackageManager.addAddress host c name object =
        .ok { c with permissionConfigs } ∧
      Registry host { c with permissionConfigs } (Function.update names name (some object)) := by
  obtain ⟨addresses, s, m, hconfig, hrep, hbuckets, hkeys, hnames⟩ := h
  have hcard : m.keys.card ≤ 3 := (Finset.card_le_card hkeys).trans (by decide)
  have hsize := hrep.size
  have hnone : m.lookup name = none := (hnames name).trans hnew
  have hnotMem : name ∉ m.keys := by
    rw [Table.mem_keys_iff, hnone]
    simp
  obtain ⟨addresses', s', hadd, hrep', -, -, -, hgrown⟩ := SmartTable.add_of_none
    object hrep (by omega) (by omega)
    (SmartTable.not_full_of_card_le (by omega)) hnone
  refine ⟨c.permissionConfigs.insert host.pictorNetwork ⟨host.pictorNetwork, addresses'⟩, ?_,
    addresses', s', _, ?_, hrep', ?_, ?_, fun name' => ?_⟩
  · rw [PackageManager.addAddress, PackageManager.safePermissionConfig, borrowGlobal,
      Table.borrow_eq_ok.mpr hconfig, Checked.ok_bind, hadd, Checked.ok_bind]
    rfl
  · exact Finmap.lookup_insert _
  · rw [Table.keys_insert, Finset.card_insert_of_notMem hnotMem, hgrown]
    split <;> omega
  · rw [Table.keys_insert]
    exact Finset.insert_subset hname hkeys
  · rw [Table.lookup_insert_ite, Function.update_apply, hnames]

end Registry

/-! ## How a deployed chain looks -/

/-- The account each name is registered with: a module has one as soon as it is initialised. -/
def accountFor (host : Host) (w : World) (name : String) : Option Address :=
  if name = PACKAGE_MANAGER_OBJECT_NAME then some host.packageManagerObject
  else if name = PictorConfig.MODULE_NAME then w.config.map fun _ => host.configAccount
  else if name = PictorNetwork.MODULE_NAME then w.network.map fun _ => host.networkAccount
  else none

/-- What should be registered on a chain, by what is published under the modules' accounts. -/
def Chain.registered (host : Host) (c : Chain) : String → Option Address :=
  accountFor host
    ⟨c.configs.lookup host.configAccount, c.globals.lookup host.networkAccount, c.stores⟩

structure Deployed (host : Host) (c : Chain) : Prop where
  registry : Registry host c (c.registered host)
  configSigner : c.configSigners.lookup host.configAccount =
    (c.configs.lookup host.configAccount).map fun _ => host.configAccount
  networkSigner : c.networkSigners.lookup host.networkAccount =
    (c.globals.lookup host.networkAccount).map fun _ => host.networkAccount
  configOffer : c.signerCapabilityOffers.lookup host.configAccount =
    (c.configs.lookup host.configAccount).map fun _ => host.configAccount
  networkOffer : c.signerCapabilityOffers.lookup host.networkAccount =
    (c.globals.lookup host.networkAccount).map fun _ => host.networkAccount
  governance : c.administrativeData.lookup host.packageManagerObject =
    some ⟨host.env.deployer, host.env.deployer⟩

section Registered

variable (host c)

theorem registered_config : c.registered host PictorConfig.MODULE_NAME =
    (c.configs.lookup host.configAccount).map fun _ => host.configAccount := rfl

theorem registered_network : c.registered host PictorNetwork.MODULE_NAME =
    (c.globals.lookup host.networkAccount).map fun _ => host.networkAccount := rfl

/-- Publishing a module's resource is what registering its name stands for. -/
theorem registered_publishConfig (config : Config) {c' : Chain}
    (hconfigs : c'.configs = c.configs.insert host.configAccount config)
    (hglobals : c'.globals = c.globals) : c'.registered host =
      Function.update (c.registered host) PictorConfig.MODULE_NAME (some host.configAccount) := by
  funext name
  rw [Function.update_apply]
  unfold Chain.registered accountFor
  rw [hconfigs, hglobals, Finmap.lookup_insert]
  by_cases hname : name = PictorConfig.MODULE_NAME
  · subst hname
    rfl
  · simp only [if_neg hname]

theorem registered_publishNetwork (g : GlobalData) {c' : Chain}
    (hglobals : c'.globals = c.globals.insert host.networkAccount g)
    (hconfigs : c'.configs = c.configs) : c'.registered host =
      Function.update (c.registered host) PictorNetwork.MODULE_NAME (some host.networkAccount) := by
  funext name
  rw [Function.update_apply]
  unfold Chain.registered accountFor
  rw [hglobals, hconfigs, Finmap.lookup_insert]
  by_cases hname : name = PictorNetwork.MODULE_NAME
  · subst hname
    rfl
  · simp only [if_neg hname]

end Registered

section Place

variable {R : Type} {resources : Table Address R} {name : String} {account : Address} {e : Abort}
  (hname : PackageManager.getAddress host c name =
    Checked.getOrAbort ((resources.lookup account).map fun _ => account) e)
include hname

theorem find_eq : c.find host resources name = resources.lookup account := by
  unfold Chain.find
  rw [hname]
  cases hr : resources.lookup account with
  | none => rfl
  | some r => exact hr

end Place

/-- Whether there is a resource is a matter of the keys. -/
theorem map_const_eq {R : Type} {resources resources' : Table Address R}
    (hkeys : resources'.keys = resources.keys) (account x : Address) :
    ((resources'.lookup account).map fun _ => x) = (resources.lookup account).map fun _ => x := by
  have hmem : account ∈ resources' ↔ account ∈ resources := by
    rw [← Finmap.mem_keys, hkeys, Finmap.mem_keys]
  cases h : resources.lookup account with
  | none => rw [Finmap.lookup_eq_none.mpr (mt hmem.mp (Finmap.lookup_eq_none.mp h))]
  | some r =>
    obtain ⟨r', hr'⟩ := Finmap.mem_iff.mp (hmem.mpr (Finmap.mem_iff.mpr ⟨r, h⟩))
    rw [hr']
    rfl

namespace Deployed

section Read

variable (h : Deployed host c)
include h

/-- What the modules see is what is published under their accounts. -/
theorem world_eq : c.world host =
    ⟨c.configs.lookup host.configAccount, c.globals.lookup host.networkAccount, c.stores⟩ := by
  rw [Chain.world, find_eq (h.registry.getAddress_eq _), find_eq (h.registry.getAddress_eq _)]

/-- **What other transactions leave.** As long as no resource is published and none is lost, the
modules are found where they were. -/
theorem others {configs : Table Address Config} {globals : Table Address GlobalData}
    (hconfigs : configs.keys = c.configs.keys) (hglobals : globals.keys = c.globals.keys)
    (stores : Stores) : Deployed host { c with configs, globals, stores } := by
  have hconfig := map_const_eq hconfigs host.configAccount host.configAccount
  have hglobal := map_const_eq hglobals host.networkAccount host.networkAccount
  have hnames : Chain.registered host { c with configs, globals, stores } = c.registered host := by
    funext name
    unfold Chain.registered accountFor
    simp only [hconfig, hglobal]
  exact
    { registry := hnames ▸ h.registry
      configSigner := h.configSigner.trans hconfig.symm
      networkSigner := h.networkSigner.trans hglobal.symm
      configOffer := h.configOffer.trans hconfig.symm
      networkOffer := h.networkOffer.trans hglobal.symm
      governance := h.governance }

end Read

end Deployed

/-! ## Steps -/

/-- A step of the chain does what the step of its world does, and leaves it deployed. -/
def Simulates (host : Host) (x : Result Chain) (y : Result World) : Prop :=
  match x with
  | .ok c' => Deployed host c' ∧ y = .ok (c'.world host)
  | .error e => y = .error e

theorem moveTo_of_none {R : Type} {resources : Table Address R} {account : Address} (r : R)
    (h : resources.lookup account = none) :
    moveTo resources account r = .ok (resources.insert account r) :=
  Table.add_eq_ok.mpr ⟨h, rfl⟩

theorem createResourceAccount_of_none {source : Address} {seed : String}
    (h : c.signerCapabilityOffers.lookup (host.createResourceAddress source seed) = none) :
    createResourceAccount host c source seed = .ok (host.createResourceAddress source seed,
      { c with
        signerCapabilityOffers := c.signerCapabilityOffers.insert
          (host.createResourceAddress source seed) (host.createResourceAddress source seed) }) := by
  have hnew : ¬ c.signerCapabilityOffers.contains
      (host.createResourceAddress source seed) = true := by simp [Table.contains, h]
  simp only [createResourceAccount, Checked.require_of hnew]
  rfl

namespace Deployed

variable (h : Deployed host c) (a : Address)
include h

omit a in
/-- The end of `initialize`: the configuration is published, and then its account registered. -/
theorem publishConfig (hconfig : c.configs.lookup host.configAccount = none) (config : Config)
    (stores : Stores) : Simulates host
      (PackageManager.addAddress host { c with
        signerCapabilityOffers :=
          c.signerCapabilityOffers.insert host.configAccount host.configAccount
        configSigners := c.configSigners.insert host.configAccount host.configAccount
        stores := stores
        configs := c.configs.insert host.configAccount config }
        PictorConfig.MODULE_NAME host.configAccount)
      (.ok ⟨some config, c.globals.lookup host.networkAccount, stores⟩) := by
  have hnone : c.registered host PictorConfig.MODULE_NAME = none := by
    rw [registered_config, hconfig]
    rfl
  obtain ⟨permissionConfigs, hadd, hregistry⟩ := Registry.addAddress_eq (c := { c with
      signerCapabilityOffers :=
        c.signerCapabilityOffers.insert host.configAccount host.configAccount
      configSigners := c.configSigners.insert host.configAccount host.configAccount
      stores := stores
      configs := c.configs.insert host.configAccount config }) h.registry
    PictorConfig.MODULE_NAME (by decide) hnone host.configAccount
  rw [hadd]
  have hlookup : (c.configs.insert host.configAccount config).lookup host.configAccount =
      some config := Finmap.lookup_insert _
  have hdeployed : Deployed host { c with
      permissionConfigs
      signerCapabilityOffers :=
        c.signerCapabilityOffers.insert host.configAccount host.configAccount
      configSigners := c.configSigners.insert host.configAccount host.configAccount
      stores := stores
      configs := c.configs.insert host.configAccount config } :=
    { registry := hregistry.of_eq (registered_publishConfig host c config rfl rfl)
      configSigner := by
        rw [hlookup]
        exact Finmap.lookup_insert _
      networkSigner := h.networkSigner
      configOffer := by
        rw [hlookup]
        exact Finmap.lookup_insert _
      networkOffer :=
        (Finmap.lookup_insert_of_ne _ host.networkAccount_ne).trans h.networkOffer
      governance := h.governance }
  refine ⟨hdeployed, ?_⟩
  rw [hdeployed.world_eq, hlookup]

theorem initializeConfig_refines (token : Token) (treasury : Address) (pk : List UInt8) :
    Simulates host (PictorConfig.initializeModule host c a token treasury pk)
      (PictorConfig.initializeConfig host.env (c.world host) a token treasury pk) := by
  have hstore : (⟨host.configAccount, token, .object host.env.vaultObject⟩ : Store) =
      PictorConfig.vaultStore host.env token := by
    rw [PictorConfig.vaultStore, host.configAddress_eq]
    rfl
  simp only [PictorConfig.initializeModule, PictorConfig.initializeConfig, h.world_eq,
    PictorConfig.isInitialized, h.registry.addressExists_eq, h.registry.getSigner_eq,
    registered_config, Option.isSome_map, Checked.ok_bind, ← hstore]
  by_cases ha : a = host.env.deployer
  · rw [Checked.require_of ha]
    cases hconfig : c.configs.lookup host.configAccount with
    | some config => rfl
    | none =>
      have hunused : c.signerCapabilityOffers.lookup host.configAccount = none := by
        rw [h.configOffer, hconfig]
        rfl
      have hsigner : c.configSigners.lookup host.configAccount = none := by
        rw [h.configSigner, hconfig]
        rfl
      simp only [createResourceAccount_of_none hunused, Checked.ok_bind]
      change Simulates host (moveTo c.configSigners host.configAccount host.configAccount >>= _) _
      rw [moveTo_of_none _ hsigner]
      change Simulates host (FungibleAsset.createStore c.stores
        ⟨host.configAccount, token, .object host.env.vaultObject⟩ >>= _) _
      -- the store may be there already, on either level
      cases FungibleAsset.createStore c.stores
          ⟨host.configAccount, token, .object host.env.vaultObject⟩ with
      | error e => rfl
      | ok stores =>
        change Simulates host (moveTo c.configs host.configAccount _ >>= _) _
        rw [moveTo_of_none _ hconfig]
        exact h.publishConfig hconfig _ _
  · rw [Checked.require_of_not ha]
    rfl

omit a in
theorem publishGlobal (hglobal : c.globals.lookup host.networkAccount = none) (g : GlobalData) :
    Simulates host
      (PackageManager.addAddress host { c with
        signerCapabilityOffers :=
          c.signerCapabilityOffers.insert host.networkAccount host.networkAccount
        networkSigners := c.networkSigners.insert host.networkAccount host.networkAccount
        globals := c.globals.insert host.networkAccount g }
        PictorNetwork.MODULE_NAME host.networkAccount)
      (.ok ⟨c.configs.lookup host.configAccount, some g, c.stores⟩) := by
  have hnone : c.registered host PictorNetwork.MODULE_NAME = none := by
    rw [registered_network, hglobal]
    rfl
  obtain ⟨permissionConfigs, hadd, hregistry⟩ := Registry.addAddress_eq (c := { c with
      signerCapabilityOffers :=
        c.signerCapabilityOffers.insert host.networkAccount host.networkAccount
      networkSigners := c.networkSigners.insert host.networkAccount host.networkAccount
      globals := c.globals.insert host.networkAccount g }) h.registry
    PictorNetwork.MODULE_NAME (by decide) hnone host.networkAccount
  rw [hadd]
  have hlookup : (c.globals.insert host.networkAccount g).lookup host.networkAccount = some g :=
    Finmap.lookup_insert _
  have hdeployed : Deployed host { c with
      permissionConfigs
      signerCapabilityOffers :=
        c.signerCapabilityOffers.insert host.networkAccount host.networkAccount
      networkSigners := c.networkSigners.insert host.networkAccount host.networkAccount
      globals := c.globals.insert host.networkAccount g } :=
    { registry := hregistry.of_eq (registered_publishNetwork host c g rfl rfl)
      configSigner := h.configSigner
      networkSigner := by
        rw [hlookup]
        exact Finmap.lookup_insert _
      configOffer :=
        (Finmap.lookup_insert_of_ne _ host.networkAccount_ne.symm).trans h.configOffer
      networkOffer := by
        rw [hlookup]
        exact Finmap.lookup_insert _
      governance := h.governance }
  refine ⟨hdeployed, ?_⟩
  rw [hdeployed.world_eq, hlookup]

theorem initializeNetwork_refines : Simulates host (PictorNetwork.initializeModule host c a)
    (PictorNetwork.initializeNetwork host.env (c.world host) a) := by
  simp only [PictorNetwork.initializeModule, PictorNetwork.initializeNetwork, h.world_eq,
    PictorNetwork.isInitialized, h.registry.addressExists_eq, h.registry.getSigner_eq,
    registered_network, Option.isSome_map, Checked.ok_bind]
  by_cases ha : a = host.env.deployer
  · rw [Checked.require_of ha]
    cases hglobal : c.globals.lookup host.networkAccount with
    | some g => rfl
    | none =>
      have hunused : c.signerCapabilityOffers.lookup host.networkAccount = none := by
        rw [h.networkOffer, hglobal]
        rfl
      have hsigner : c.networkSigners.lookup host.networkAccount = none := by
        rw [h.networkSigner, hglobal]
        rfl
      simp only [createResourceAccount_of_none hunused, Checked.ok_bind]
      change Simulates host
        (moveTo c.networkSigners host.networkAccount host.networkAccount >>= _) _
      rw [moveTo_of_none _ hsigner]
      change Simulates host (moveTo c.globals host.networkAccount _ >>= _) _
      rw [moveTo_of_none _ hglobal]
      exact h.publishGlobal hglobal _
  · rw [Checked.require_of_not ha]
    rfl

end Deployed

/-! ## What a deployed chain answers -/

/-- **A fresh package**: the package manager alone is registered. -/
theorem initModule_deployed (host : Host) (l : Stores) :
    ∃ c₀, PackageManager.initModule host (Chain.empty l) = .ok c₀ ∧ Deployed host c₀ ∧
      c₀.world host = ⟨none, none, l⟩ := by
  obtain ⟨addresses, s, hnew, hrep, hbuckets, -⟩ :=
    SmartTable.newWithConfig_eq host.natives 0 (Nat.zero_le (2 ^ 57)) (Nat.zero_le 100)
  have hempty : Registry host { Chain.empty l with
      permissionConfigs := Finmap.insert host.pictorNetwork ⟨host.pictorNetwork, addresses⟩ ∅ }
      (fun _ => none) := by
    refine ⟨addresses, s, ∅, Finmap.lookup_insert _, hrep, ?_, ?_, fun name => rfl⟩
    · rw [hbuckets, if_pos rfl]
      exact Nat.le_add_right 2 _
    · exact Finset.empty_subset _
  obtain ⟨permissionConfigs, hadd, hregistry⟩ := hempty.addAddress_eq
    PACKAGE_MANAGER_OBJECT_NAME (by decide) rfl host.packageManagerObject
  have hmove : moveTo (Chain.empty l).permissionConfigs host.pictorNetwork
      ⟨host.pictorNetwork, addresses⟩ = .ok (Finmap.insert host.pictorNetwork
        ⟨host.pictorNetwork, addresses⟩ ∅) := moveTo_of_none _ (Finmap.lookup_empty _)
  have hdeployed : Deployed host { Chain.empty l with
      permissionConfigs
      administrativeData := Finmap.insert host.packageManagerObject
        ⟨host.env.deployer, host.env.deployer⟩ ∅ } :=
    { registry := by
        refine hregistry.of_eq ?_
        funext name
        rw [Function.update_apply]
        unfold Chain.registered accountFor
        simp [Chain.empty]
      configSigner := rfl
      networkSigner := rfl
      configOffer := rfl
      networkOffer := rfl
      governance := Finmap.lookup_insert _ }
  refine ⟨_, ?_, hdeployed, ?_⟩
  · rw [PackageManager.initModule, SmartTable.new, hnew, Checked.ok_bind, hmove, Checked.ok_bind]
    simp only [hempty.getSigner_eq, Checked.ok_bind, hadd]
    rfl
  · rw [hdeployed.world_eq]
    rfl

theorem Deployed.getAddress_eq (h : Deployed host c) (name : String) :
    PackageManager.getAddress host c name =
      Checked.getOrAbort (accountFor host (c.world host) name) PictorConfig.addressNotFound := by
  rw [h.world_eq]
  exact h.registry.getAddress_eq name

/-- Nobody but the deployer governs the package. -/
theorem Deployed.validateGovernance_eq (h : Deployed host c) (a : Address) :
    PackageManager.validateGovernance host c a =
      Checked.require (host.env.deployer = a) PackageManager.ENOT_AUTHORIZED := by
  rw [PackageManager.validateGovernance, PackageManager.packageManagerAddress, h.getAddress_eq]
  show borrowGlobal c.administrativeData host.packageManagerObject >>= _ = _
  rw [borrowGlobal, Table.borrow_eq_ok.mpr h.governance, Checked.ok_bind]

/-- The vault is opened by the account that owns it. -/
theorem Deployed.getSigner_eq (h : Deployed host c)
    (hconfig : (c.world host).config.isSome = true) :
    PictorConfig.getSigner host c = .ok host.env.configAddress := by
  obtain ⟨config, hconfig⟩ := Option.isSome_iff_exists.mp hconfig
  have hlookup : c.configs.lookup host.configAccount = some config := by
    rw [h.world_eq] at hconfig
    exact hconfig
  have hsigner := h.configSigner
  rw [hlookup, Option.map_some] at hsigner
  have hname : PackageManager.getAddress host c PictorConfig.MODULE_NAME =
      .ok host.configAccount := by
    rw [h.getAddress_eq, accountFor, if_neg (by decide), if_pos rfl, hconfig]
    rfl
  rw [PictorConfig.getSigner, hname, Checked.ok_bind, borrowGlobal,
    Table.borrow_eq_ok.mpr hsigner, host.configAddress_eq]
  rfl

/-! ## The accessors -/

theorem keys_insert_of_lookup {R : Type} {resources : Table Address R} {account : Address} {old : R}
    (h : resources.lookup account = some old) (r : R) :
    (resources.insert account r).keys = resources.keys := by
  rw [Table.keys_insert]
  exact Finset.insert_eq_self.mpr (Table.mem_keys_iff.mpr ⟨old, h⟩)

namespace Deployed

variable (h : Deployed host c)
include h

/-- What a module borrows is what is in its world, … -/
theorem borrowConfig_eq :
    PictorConfig.borrowConfig host c = PictorConfig.getConfig (c.world host) := by
  rw [PictorConfig.borrowConfig, h.registry.getAddress_eq, registered_config,
    PictorConfig.getConfig, h.world_eq]
  cases hconfig : c.configs.lookup host.configAccount with
  | none => rfl
  | some config => exact Table.borrow_eq_ok.mpr hconfig

theorem borrowGlobalData_eq :
    PictorNetwork.borrowGlobalData host c = PictorNetwork.globalData (c.world host) := by
  rw [PictorNetwork.borrowGlobalData, h.registry.getAddress_eq, registered_network,
    PictorNetwork.globalData, h.world_eq]
  cases hglobal : c.globals.lookup host.networkAccount with
  | none => rfl
  | some g => exact Table.borrow_eq_ok.mpr hglobal

/-- … and what it writes back is in its world afterwards. -/
theorem writeConfig_eq (config : Config) :
    (PictorConfig.writeConfig host c config).map (Chain.world host) =
      (PictorConfig.getConfig (c.world host)).map fun _ =>
        { c.world host with config := some config } := by
  rw [PictorConfig.writeConfig, h.registry.getAddress_eq, registered_config, PictorConfig.getConfig,
    h.world_eq]
  cases hconfig : c.configs.lookup host.configAccount with
  | none => rfl
  | some old =>
    have hdeployed := h.others (keys_insert_of_lookup hconfig config) rfl c.stores
    change (borrowGlobal c.configs host.configAccount >>= _).map _ = _
    rw [borrowGlobal, Table.borrow_eq_ok.mpr hconfig, Checked.ok_bind]
    refine congrArg Except.ok (hdeployed.world_eq.trans ?_)
    rw [Finmap.lookup_insert]

theorem writeGlobalData_eq (g : GlobalData) :
    (PictorNetwork.writeGlobalData host c g).map (Chain.world host) =
      (PictorNetwork.globalData (c.world host)).map fun _ =>
        PictorNetwork.withGlobal (c.world host) g := by
  rw [PictorNetwork.writeGlobalData, h.registry.getAddress_eq, registered_network,
    PictorNetwork.globalData, h.world_eq]
  cases hglobal : c.globals.lookup host.networkAccount with
  | none => rfl
  | some old =>
    have hdeployed := h.others rfl (keys_insert_of_lookup hglobal g) c.stores
    change (borrowGlobal c.globals host.networkAccount >>= _).map _ = _
    rw [borrowGlobal, Table.borrow_eq_ok.mpr hglobal, Checked.ok_bind]
    refine congrArg Except.ok (hdeployed.world_eq.trans ?_)
    rw [Finmap.lookup_insert]
    rfl

end Deployed

/-! ## Runs -/

theorem Simulates.map_eq {x : Result Chain} {y : Result World} (h : Simulates host x y) :
    x.map (Chain.world host) = y := by
  cases x with
  | ok c' => exact h.2.symm
  | error e => exact h.symm

/-- An account that is registered under a name stays, as long as no module is lost. -/
theorem accountFor_mono {w' : World} (hconfig : w.config.isSome = true → w'.config.isSome = true)
    (hnetwork : w.network.isSome = true → w'.network.isSome = true) {name : String} {a : Address}
    (h : accountFor host w name = some a) : accountFor host w' name = some a := by
  unfold accountFor at h ⊢
  split
  · next hname => rwa [if_pos hname] at h
  · next hname =>
    rw [if_neg hname] at h
    split
    · next hname' =>
      rw [if_pos hname'] at h
      obtain ⟨config, hc, rfl⟩ := Option.map_eq_some_iff.mp h
      obtain ⟨config', hc'⟩ := Option.isSome_iff_exists.mp (hconfig (by rw [hc]; rfl))
      rw [hc', Option.map_some]
    · next hname' =>
      rw [if_neg hname'] at h
      split
      · next hname'' =>
        rw [if_pos hname''] at h
        obtain ⟨g, hg, rfl⟩ := Option.map_eq_some_iff.mp h
        obtain ⟨g', hg'⟩ := Option.isSome_iff_exists.mp (hnetwork (by rw [hg]; rfl))
        rw [hg', Option.map_some]
      · next hname'' => rwa [if_neg hname''] at h

/-- **One step**: the chain stays deployed, and no module is lost. -/
theorem Deployed.step (h : Deployed host c) {act : Chain.Act} (hstep : c.exec host act = .ok c') :
    Deployed host c' ∧
      ((c.world host).config.isSome = true → (c'.world host).config.isSome = true) ∧
      ((c.world host).network.isSome = true → (c'.world host).network.isSome = true) := by
  cases act with
  | initializeConfig owner token treasury pk =>
    have hsim := h.initializeConfig_refines owner token treasury pk
    rw [show PictorConfig.initializeModule host c owner token treasury pk = .ok c' from hstep]
      at hsim
    have hworld : exec host.env (c.world host)
        (.txn owner (.initializeConfig token treasury pk)) = .ok (c'.world host) := hsim.2
    exact ⟨hsim.1, config_isSome_of_exec hworld, initialized_of_exec hworld⟩
  | initializeNetwork owner =>
    have hsim := h.initializeNetwork_refines owner
    rw [show PictorNetwork.initializeModule host c owner = .ok c' from hstep] at hsim
    have hworld : exec host.env (c.world host) (.txn owner .initializeNetwork) =
        .ok (c'.world host) := hsim.2
    exact ⟨hsim.1, config_isSome_of_exec hworld, initialized_of_exec hworld⟩
  | others configs globals stores =>
    simp only [Chain.exec, Checked.bind_eq_ok, Checked.require_eq_ok, Checked.pure_eq_ok,
      exists_const] at hstep
    obtain ⟨⟨hconfigs, hglobals⟩, rfl⟩ := hstep
    have hdeployed := h.others hconfigs hglobals stores
    refine ⟨hdeployed, ?_, ?_⟩
    · rw [h.world_eq, hdeployed.world_eq]
      intro hsome
      rw [← hsome, ← Option.isSome_map (f := fun _ => host.configAccount),
        map_const_eq hconfigs, Option.isSome_map]
    · rw [h.world_eq, hdeployed.world_eq]
      intro hsome
      rw [← hsome, ← Option.isSome_map (f := fun _ => host.networkAccount),
        map_const_eq hglobals, Option.isSome_map]

/-- The two modules on the chain are those of its world. -/
structure Resolves (host : Host) (c : Chain) : Prop where
  getAddress : ∀ name, PackageManager.getAddress host c name =
    Checked.getOrAbort (accountFor host (c.world host) name) PictorConfig.addressNotFound
  initializeConfig : ∀ owner token treasury pk,
    (PictorConfig.initializeModule host c owner token treasury pk).map (Chain.world host) =
      PictorConfig.initializeConfig host.env (c.world host) owner token treasury pk
  initializeNetwork : ∀ owner,
    (PictorNetwork.initializeModule host c owner).map (Chain.world host) =
      PictorNetwork.initializeNetwork host.env (c.world host) owner
  borrowConfig : PictorConfig.borrowConfig host c = PictorConfig.getConfig (c.world host)
  writeConfig : ∀ config, (PictorConfig.writeConfig host c config).map (Chain.world host) =
    (PictorConfig.getConfig (c.world host)).map fun _ =>
      { c.world host with config := some config }
  borrowGlobalData : PictorNetwork.borrowGlobalData host c =
    PictorNetwork.globalData (c.world host)
  writeGlobalData : ∀ g, (PictorNetwork.writeGlobalData host c g).map (Chain.world host) =
    (PictorNetwork.globalData (c.world host)).map fun _ =>
      PictorNetwork.withGlobal (c.world host) g
  getSigner : (c.world host).config.isSome = true →
    PictorConfig.getSigner host c = .ok host.env.configAddress
  validateGovernance : ∀ a, PackageManager.validateGovernance host c a =
    Checked.require (host.env.deployer = a) PackageManager.ENOT_AUTHORIZED

theorem Deployed.resolves (h : Deployed host c) : Resolves host c where
  getAddress := h.getAddress_eq
  initializeConfig owner token treasury pk :=
    (h.initializeConfig_refines owner token treasury pk).map_eq
  initializeNetwork owner := (h.initializeNetwork_refines owner).map_eq
  borrowConfig := h.borrowConfig_eq
  writeConfig := h.writeConfig_eq
  borrowGlobalData := h.borrowGlobalData_eq
  writeGlobalData := h.writeGlobalData_eq
  getSigner := h.getSigner_eq
  validateGovernance := h.validateGovernance_eq

theorem deployed_preserved (host : Host) :
    Transactions.Preserved (Chain.exec host) (Deployed host) :=
  fun _ _ _ h hstep => (h.step hstep).1

/-- A name resolves for good. -/
theorem Deployed.getAddress_run (h : Deployed host c) (bs : List Chain.Act) {name : String}
    {a : Address} (hname : PackageManager.getAddress host c name = .ok a) :
    PackageManager.getAddress host (Chain.run host c bs) name = .ok a := by
  have hkept : Deployed host (Chain.run host c bs) ∧
      accountFor host ((Chain.run host c bs).world host) name = some a := by
    refine Transactions.invariant
      (I := fun c => Deployed host c ∧ accountFor host (c.world host) name = some a) ?_ ?_ bs
    · rintro c act c' ⟨hc, haccount⟩ hstep
      obtain ⟨hc', hconfig, hnetwork⟩ := hc.step hstep
      exact ⟨hc', accountFor_mono hconfig hnetwork haccount⟩
    · rw [h.getAddress_eq, Checked.getOrAbort_eq_ok] at hname
      exact ⟨h, hname⟩
  rw [hkept.1.getAddress_eq, hkept.2]
  rfl

/-- **The modules find what is theirs.** From the publication of the package on, whatever is
submitted: each module's initialisation and its accessors do on the chain what they do in the world
of the chain, aborts included; a name resolves, from the module's initialisation on and for good, to
the account that holds the resource; the vault is opened by its owner; and the package is the
deployer's to upgrade. -/
theorem modules_resolve (host : Host) (l : Stores) :
    ∃ c₀, PackageManager.initModule host (Chain.empty l) = .ok c₀ ∧
      c₀.world host = ⟨none, none, l⟩ ∧ ∀ as, Resolves host (Chain.run host c₀ as) ∧
        ∀ bs name a, PackageManager.getAddress host (Chain.run host c₀ as) name = .ok a →
          PackageManager.getAddress host (Chain.run host c₀ (as ++ bs)) name = .ok a := by
  obtain ⟨c₀, hinit, hdeployed, hworld⟩ := initModule_deployed host l
  refine ⟨c₀, hinit, hworld, fun as => ?_⟩
  have hc := Transactions.invariant (deployed_preserved host) hdeployed as
  refine ⟨hc.resolves, fun bs name a hname => ?_⟩
  rw [Chain.run, Transactions.run_append]
  exact hc.getAddress_run bs hname

end Pictor
