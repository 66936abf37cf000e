import Pictor.Contract.Usdt
import Pictor.Lib.Movement

/-!
# The network and the token it is paid in

`World` leaves open what the payment token does when it is moved. Here the token is `usdt`, and its
state is part of the system: the entry functions of all three modules interleave, and so do the
transfers of everybody who holds the token. The network moves the token as it stands, with the
stores frozen that are frozen at the moment.
-/

namespace Pictor

inductive Usdt.Call where
  | mint (recipient : Address) (amount : UInt64)
  | revoke (amount : UInt64)
  | transfer (source recipient : Address) (amount : UInt64)
  | transferStore (source : Store) (recipient : Address) (amount : UInt64)
  | burn (account : Address) (amount : UInt64)
  | burnFrom (store : Store) (amount : UInt64)
  | freezeAccounts (accounts : List Address) (sendingFlags receivingFlags : List Bool)
  | unfreezeAccounts (accounts : List Address) (unfreezeSending unfreezeReceiving : List Bool)
  | transferAdmin (newAdmin : Address)
  | acceptAdmin
  deriving DecidableEq

def Usdt.execCall (host : Usdt.Host) (σ : Usdt.State) (signer : Address) :
    Usdt.Call → Result Usdt.State
  | .mint recipient amount => Usdt.mint host σ signer recipient amount
  | .revoke amount => Usdt.revoke host σ signer amount
  | .transfer source recipient amount => Usdt.transfer host σ signer source recipient amount
  | .transferStore source recipient amount =>
    Usdt.transferStore host σ signer source recipient amount
  | .burn account amount => Usdt.burn host σ signer account amount
  | .burnFrom store amount => Usdt.burnFrom host σ signer store amount
  | .freezeAccounts accounts sendingFlags receivingFlags =>
    Usdt.freezeAccounts host σ signer accounts sendingFlags receivingFlags
  | .unfreezeAccounts accounts unfreezeSending unfreezeReceiving =>
    Usdt.unfreezeAccounts host σ signer accounts unfreezeSending unfreezeReceiving
  | .transferAdmin newAdmin => Usdt.transferAdmin host σ signer newAdmin
  | .acceptAdmin => Usdt.acceptAdmin host σ signer

structure Market where
  config : Option Config
  network : Option GlobalData
  token : Usdt.State
  deriving DecidableEq

namespace Market

/-- What the network sees. -/
def world (m : Market) : World := ⟨m.config, m.network, m.token.stores⟩

/-- The same, with what the network sees changed to `w`. -/
def withWorld (m : Market) (w : World) : Market :=
  ⟨w.config, w.network, { m.token with stores := w.stores }⟩

inductive Act where
  | network (signer : Address) (call : Call)
  | usdt (signer : Address) (call : Usdt.Call)
  /-- `dispatchable_fungible_asset::transfer`, between stores of the token. -/
  | transfer (sender : Address) (source target : Store) (amount : UInt64)
  /-- `primary_fungible_store::transfer`. -/
  | primaryTransfer (sender recipient : Address) (amount : UInt64)
  /-- Anything else. New stores may appear, and other tokens may be moved. -/
  | outside (stores : Stores)
  deriving DecidableEq

section

variable (host : Usdt.Host)

/-- No store of the token has another balance in `l'` than in `l`. -/
def TokenKept (l l' : Stores) : Prop :=
  ∀ s ∈ l.keys ∪ l'.keys, s.metadata = host.usdtAddress → units l' s = units l s

instance (l l' : Stores) : Decidable (TokenKept host l l') :=
  inferInstanceAs (Decidable (∀ s ∈ l.keys ∪ l'.keys, _))

def exec (m : Market) : Act → Result Market
  | .network signer call => do
    let w ← Pictor.execCall (m.token.env host) m.world signer call
    return m.withWorld w
  | .usdt signer call => do
    let token ← Usdt.execCall host m.token signer call
    return { m with token }
  | .transfer sender source target amount => do
    Checked.require (source.metadata = host.usdtAddress ∧ target.metadata = host.usdtAddress)
      .missingData
    let stores ← DispatchableFungibleAsset.transfer (m.token.env host) m.token.stores sender
      source target amount
    return { m with token := { m.token with stores } }
  | .primaryTransfer sender recipient amount => do
    let stores ← PrimaryFungibleStore.transfer (m.token.env host) m.token.stores sender
      host.usdtAddress recipient amount
    return { m with token := { m.token with stores } }
  | .outside stores => do
    Checked.require (TokenKept host m.token.stores stores) .missingData
    return { m with token := { m.token with stores } }

abbrev run : Market → List Act → Market := Transactions.run (exec host)
abbrev history : Market → List Act → List (Transactions.Event Market Act) :=
  Transactions.history (exec host)

/-- `test_helper::setup`, from the token on. -/
def setup (l : Stores) (treasury : Address) (adminPubkey : List UInt8) : Result Market := do
  let token ← Usdt.initModule host ⟨none, ∅, l, []⟩
  let w ← Pictor.setup (token.env host) token.stores host.usdtAddress treasury adminPubkey
  return ⟨w.config, w.network, { token with stores := w.stores }⟩

/-- `m` is a state in which token and network have just been set up. Before, there was no token,
and so no store of it. -/
def JustSetUp (treasury : Address) (adminPubkey : List UInt8) (m : Market) : Prop :=
  ∃ l : Stores, (∀ s ∈ l.keys, s.metadata ≠ host.usdtAddress) ∧
    setup host l treasury adminPubkey = .ok m

/-! ## The initial state -/

def initialManagement : Usdt.Management :=
  { mintRef := host.usdtAddress, burnRef := host.usdtAddress, transferRef := host.usdtAddress,
    admin := host.env.deployer, pendingAdmin := 0x0, freezeSending := ∅, freezeReceiving := ∅ }

def initialSupply : Supply :=
  if host.concurrentFungibleSupply then .concurrent 0 FungibleAsset.MAX_U128 else .plain 0 none

/-- Fresh resources, an empty vault store, no tokens. -/
def initialMarket (l : Stores) (treasury : Address) (adminPubkey : List UInt8) : Market :=
  let w := initialWorld host.env l host.usdtAddress treasury adminPubkey
  ⟨w.config, w.network, ⟨some (initialManagement host),
    Finmap.insert host.usdtAddress (initialSupply host) ∅, w.stores, []⟩⟩

end

theorem initModule_eq (host : Usdt.Host) (l : Stores) : Usdt.initModule host ⟨none, ∅, l, []⟩ =
    .ok ⟨some (initialManagement host), Finmap.insert host.usdtAddress (initialSupply host) ∅, l,
      []⟩ := by
  have hadd : Table.add ∅ Abort.missingData host.usdtAddress (initialSupply host) =
      .ok (Finmap.insert host.usdtAddress (initialSupply host) ∅) :=
    Table.add_eq_ok.mpr ⟨rfl, rfl⟩
  unfold Usdt.initModule
  rw [Checked.require_of rfl, Checked.ok_bind]
  show (Table.add ∅ Abort.missingData host.usdtAddress (initialSupply host) >>= _) = _
  rw [hadd]
  rfl

/-- **What the set-up leaves.** -/
theorem justSetUp_iff {host : Usdt.Host} {treasury : Address} {adminPubkey : List UInt8}
    {m : Market} : JustSetUp host treasury adminPubkey m ↔
      ∃ l : Stores, (∀ s ∈ l.keys, s.metadata ≠ host.usdtAddress) ∧
        initialMarket host l treasury adminPubkey = m := by
  refine exists_congr fun l => and_congr_right fun hl => ?_
  have hfresh : l.lookup (PictorConfig.vaultStore host.env host.usdtAddress) = none := by
    rw [Finmap.lookup_eq_none, ← Finmap.mem_keys]
    exact fun hmem => hl _ hmem rfl
  simp only [setup, initModule_eq, Checked.ok_bind, Checked.bind_eq_ok, setup_eq_ok,
    Checked.pure_eq_ok]
  constructor
  · rintro ⟨_, ⟨-, rfl⟩, rfl⟩
    rfl
  · rintro rfl
    exact ⟨_, ⟨hfresh, rfl⟩, rfl⟩

/-! ## The set-up of the repository's tests -/

def testHost : Usdt.Host where
  env := testEnv
  usdtAddress := usdt
  storeAddress := fun s => match s.kind with
    | .primary => s.owner + 1
    | .object address => address
  concurrentFungibleSupply := true
  abort := fun _ => .missingData
  objectExists := .missingData

def testMarket : Market := initialMarket testHost ∅ 0xcafe testAdminPubkey

theorem testMarket_justSetUp : JustSetUp testHost 0xcafe testAdminPubkey testMarket :=
  justSetUp_iff.mpr ⟨∅, by simp, rfl⟩

end Market

end Pictor
