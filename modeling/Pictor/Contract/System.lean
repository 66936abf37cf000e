import Pictor.Contract.Network
import Pictor.Lib.Transactions

/-!
# The contract as a transaction system

`Call` lists the entry functions of both modules with their arguments. An `Action` is a call by
some signer, or anything else that happens on chain: such an outside action may change the stores
at will, except that nobody but this program takes tokens out of a vault store. Everything about
runs is stated over `run env` and `history env`, for any list of submitted actions.
-/

namespace Pictor

inductive Call where
  | initializeConfig (paymentToken : Token) (treasuryAddr : Address) (adminPubkey : List UInt8)
  | setAdminPubkey (newAdminPub : List UInt8)
  | addOperator (newOperatorer : Address)
  | removeOperator (operator : Address)
  | withdrawToTreasury (amount : UInt64) (token : Token)
  | initializeNetwork
  | registerUser
  | registerWorker (workerId : String)
  | opRegisterWorker (userAddr : Address) (workerId : String)
  | opCreateJob (userAddr : Address) (jobId : String)
  | opAddTask (userAddr : Address) (jobId : String) (taskId : UInt64) (workerId : String)
      (cost duration : UInt64)
  | opCompleteJob (userAddr : Address) (jobId : String)
  | opCreditUser (userAddr : Address) (amount : UInt64)
  | opDebitUser (userAddr : Address) (amount : UInt64)
  | deposit (amount : UInt64) (token : Token)
  | withdraw (amount : UInt64) (token : Token)
  | claimCredit (amount requestId : UInt64) (signature : List UInt8)
  deriving DecidableEq

inductive Action where
  | txn (signer : Address) (call : Call)
  | outside (stores : Stores)
  deriving DecidableEq

/-- No vault store loses tokens between `l` and `l'`. -/
def World.VaultKept (w : World) (l' : Stores) : Prop :=
  ∀ e ∈ w.vault.entries, units w.stores e.2 ≤ units l' e.2

instance (w : World) (l' : Stores) : Decidable (w.VaultKept l') :=
  inferInstanceAs (Decidable (∀ e ∈ w.vault.entries, units w.stores e.2 ≤ units l' e.2))

section

variable (env : Env)

def execCall (w : World) (signer : Address) : Call → Result World
  | .initializeConfig token treasury pk =>
    PictorConfig.initializeConfig env w signer token treasury pk
  | .setAdminPubkey pk => PictorConfig.setAdminPubkey env w signer pk
  | .addOperator a => PictorConfig.addOperator env w signer a
  | .removeOperator a => PictorConfig.removeOperator env w signer a
  | .withdrawToTreasury amount token =>
    PictorConfig.withdrawToTreasury env w signer amount token
  | .initializeNetwork => PictorNetwork.initializeNetwork env w signer
  | .registerUser => PictorNetwork.registerUser w signer
  | .registerWorker id => PictorNetwork.registerWorker w signer id
  | .opRegisterWorker u id => PictorNetwork.opRegisterWorker w signer u id
  | .opCreateJob u j => PictorNetwork.opCreateJob w signer u j
  | .opAddTask u j taskId id cost duration =>
    PictorNetwork.opAddTask w signer u j taskId id cost duration
  | .opCompleteJob u j => PictorNetwork.opCompleteJob w signer u j
  | .opCreditUser u amount => PictorNetwork.opCreditUser w signer u amount
  | .opDebitUser u amount => PictorNetwork.opDebitUser w signer u amount
  | .deposit amount token => PictorNetwork.deposit env w signer amount token
  | .withdraw amount token => PictorNetwork.withdraw env w signer amount token
  | .claimCredit amount requestId signature =>
    PictorNetwork.claimCredit env w signer amount requestId signature

def exec (w : World) : Action → Result World
  | .txn signer call => execCall env w signer call
  | .outside l' => if w.VaultKept l' then .ok { w with stores := l' } else .error .missingData

abbrev next : World → Action → World := Transactions.next (exec env)
abbrev run : World → List Action → World := Transactions.run (exec env)
abbrev history : World → List Action → List (Transactions.Event World Action) :=
  Transactions.history (exec env)

end

export Transactions (total)

section Runs

variable {env : Env} {w : World} {as bs : List Action} {e : Transactions.Event World Action}

theorem run_append (env : Env) (w : World) (as bs : List Action) :
    run env w (as ++ bs) = run env (run env w as) bs :=
  Transactions.run_append w as bs

theorem history_append (env : Env) (w : World) (as bs : List Action) :
    history env w (as ++ bs) = history env w as ++ history env (run env w as) bs :=
  Transactions.history_append w as bs

theorem exec_of_mem_history (he : e ∈ history env w as) : exec env e.pre e.act = .ok e.post :=
  Transactions.step_of_mem_history he

/-- A condition on all steps of a run is one on the steps of its first part. -/
theorem forall_mem_history_left {C : World → Action → Prop}
    (hC : ∀ e ∈ history env w (as ++ bs), C e.pre e.act) :
    ∀ e ∈ history env w as, C e.pre e.act := by
  intro e he
  rw [history_append] at hC
  exact hC e (List.mem_append_left _ he)

end Runs

/-! ## The initial state -/

/-- The two initialisations, in the order the deployment scripts and tests use. -/
def setup (env : Env) (l : Stores) (paymentToken : Token) (treasury : Address)
    (adminPubkey : List UInt8) : Result World := do
  let w ← PictorConfig.initializeConfig env ⟨none, none, l⟩ env.deployer paymentToken treasury
    adminPubkey
  PictorNetwork.initializeNetwork env w env.deployer

/-- The same, the other way round. -/
def setupReversed (env : Env) (l : Stores) (paymentToken : Token) (treasury : Address)
    (adminPubkey : List UInt8) : Result World := do
  let w ← PictorNetwork.initializeNetwork env ⟨none, none, l⟩ env.deployer
  PictorConfig.initializeConfig env w env.deployer paymentToken treasury adminPubkey

/-- `w` is a state in which both modules have just been initialised. -/
def JustInitialised (env : Env) (paymentToken : Token) (treasury : Address)
    (adminPubkey : List UInt8) (w : World) : Prop :=
  ∃ l, setup env l paymentToken treasury adminPubkey = .ok w ∨
    setupReversed env l paymentToken treasury adminPubkey = .ok w

/-- The configuration right after `initializeConfig`. -/
def initialConfig (env : Env) (paymentToken : Token) (treasury : Address)
    (adminPubkey : List UInt8) : Config :=
  { operators := [], isPause := false, treasuryAddr := treasury, workerEarningPercentage := 6000,
    adminPubkey,
    vault := Finmap.insert paymentToken (PictorConfig.vaultStore env paymentToken) ∅ }

def initialGlobal : GlobalData := { workers := ∅, users := ∅, creditRequests := ∅ }

/-- Fresh resources, and an empty vault store. -/
def initialWorld (env : Env) (l : Stores) (paymentToken : Token) (treasury : Address)
    (adminPubkey : List UInt8) : World :=
  ⟨some (initialConfig env paymentToken treasury adminPubkey), some initialGlobal,
    Finmap.insert (PictorConfig.vaultStore env paymentToken) ⟨0, false⟩ l⟩

section Initial

variable {env : Env} {l : Stores} {paymentToken : Token} {treasury : Address}
  {adminPubkey : List UInt8} {w : World}

theorem setup_eq_ok : setup env l paymentToken treasury adminPubkey = .ok w ↔
    l.lookup (PictorConfig.vaultStore env paymentToken) = none ∧
      initialWorld env l paymentToken treasury adminPubkey = w := by
  simp [setup, PictorConfig.initializeConfig, PictorNetwork.initializeNetwork,
    PictorConfig.isInitialized, PictorNetwork.isInitialized, PictorNetwork.withGlobal,
    FungibleAsset.createStore, initialWorld, initialConfig, initialGlobal]

theorem setupReversed_eq_ok : setupReversed env l paymentToken treasury adminPubkey = .ok w ↔
    l.lookup (PictorConfig.vaultStore env paymentToken) = none ∧
      initialWorld env l paymentToken treasury adminPubkey = w := by
  simp [setupReversed, PictorConfig.initializeConfig, PictorNetwork.initializeNetwork,
    PictorConfig.isInitialized, PictorNetwork.isInitialized, PictorNetwork.withGlobal,
    FungibleAsset.createStore, initialWorld, initialConfig, initialGlobal]

/-- **What initialisation leaves**, in either order. -/
theorem justInitialised_iff : JustInitialised env paymentToken treasury adminPubkey w ↔
    ∃ l : Stores, l.lookup (PictorConfig.vaultStore env paymentToken) = none ∧
      initialWorld env l paymentToken treasury adminPubkey = w := by
  unfold JustInitialised
  simp only [setup_eq_ok, setupReversed_eq_ok, or_self]

end Initial

/-- `w` is reached by some run from a state just initialised with `paymentToken`. -/
def Reachable (env : Env) (paymentToken : Token) (w : World) : Prop :=
  ∃ treasury adminPubkey w₀ as, JustInitialised env paymentToken treasury adminPubkey w₀ ∧
    w = run env w₀ as

/-- A preserved property of all initial states holds of every reachable state. -/
theorem Reachable.induction {env : Env} {paymentToken : Token} {I : World → Prop}
    (base : ∀ treasury adminPubkey w₀, JustInitialised env paymentToken treasury adminPubkey w₀ →
      I w₀)
    (hI : Transactions.Preserved (exec env) I) {w : World} (h : Reachable env paymentToken w) :
    I w := by
  obtain ⟨treasury, adminPubkey, w₀, as, h₀, rfl⟩ := h
  exact Transactions.invariant hI (base treasury adminPubkey w₀ h₀) as

theorem Reachable.step {env : Env} {paymentToken : Token} {w w' : World} {act : Action}
    (hw : Reachable env paymentToken w) (h : exec env w act = .ok w') :
    Reachable env paymentToken w' := by
  obtain ⟨treasury, adminPubkey, w₀, as, h₀, rfl⟩ := hw
  refine ⟨treasury, adminPubkey, w₀, as ++ [act], h₀, ?_⟩
  rw [run_append]
  exact (Transactions.next_of_ok h).symm

/-! ## The set-up of the repository's tests

`test_helper::setup`, with a payment token that registers no functions of its own and one wallet
that has been minted some of it. No signature verifies. -/

def testEnv : Env where
  deployer := 0xcafe
  configAddress := 0xc0
  vaultObject := 0xc1
  dispatch := fun _ => ⟨none, none⟩
  dispatchableFungibleAssetEnabled := true
  primaryStoreEnabled := fun _ => true
  signatureVerifyStrict := fun _ _ _ => false

def usdt : Token := 0xdc

def testAdminPubkey : List UInt8 :=
  [32, 84, 70, 248, 137, 211, 135, 88, 23, 118, 141, 182, 184, 222, 113, 78, 128, 25, 187, 155, 7,
    173, 221, 11, 74, 148, 119, 112, 29, 92, 205, 240]

/-- `mint_usdt(@0xdead, 1000)`. -/
def testStores : Stores :=
  Finmap.insert (PrimaryFungibleStore.primaryStore 0xdead usdt) ⟨1000, false⟩ ∅

def testWorld : World := initialWorld testEnv testStores usdt 0xcafe testAdminPubkey

theorem testEnv_movesExact : MovesExact testEnv usdt := movesExact_of_no_dispatch rfl rfl

theorem testWorld_justInitialised : JustInitialised testEnv usdt 0xcafe testAdminPubkey testWorld :=
  justInitialised_iff.mpr ⟨testStores, by decide, rfl⟩

theorem testWorld_reachable (as : List Action) :
    Reachable testEnv usdt (run testEnv testWorld as) :=
  ⟨0xcafe, testAdminPubkey, testWorld, as, testWorld_justInitialised, rfl⟩

end Pictor
