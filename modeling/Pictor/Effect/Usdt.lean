import Pictor.Contract.Market
import Pictor.Effect.Tokens

/-!
# What each call of the token does

As for the network: a call that succeeds has been accepted, and changes the management, the
balances, the supply and the log in the way stated here and in no other. What a call moves is one
movement. A mint has no source and a burn no target, and both ends of the others are stores of the
token.
-/

namespace Pictor

namespace Usdt

/-! ## Observing the token -/

namespace Management

def sendingFrozen (mg : Management) (account : Address) : Bool :=
  mg.freezeSending.borrowWithDefault account false

def receivingFrozen (mg : Management) (account : Address) : Bool :=
  mg.freezeReceiving.borrowWithDefault account false

/-- All references are to the token's own metadata. -/
structure Proper (host : Host) (mg : Management) : Prop where
  mintRef : mg.mintRef = host.usdtAddress
  burnRef : mg.burnRef = host.usdtAddress
  transferRef : mg.transferRef = host.usdtAddress

end Management

def supply (host : Host) (σ : State) : ℕ := FungibleAsset.supplyUnits σ.supplies host.usdtAddress

/-- The primary store of an account. -/
def primaryStore (host : Host) (owner : Address) : Store :=
  PrimaryFungibleStore.primaryStore owner host.usdtAddress

/-! ## What a call says it does -/

/-- The three vectors of a freezing, account by account. -/
def listing (accounts : List Address) (sendingFlags receivingFlags : List Bool) :
    List (Address × Bool × Bool) :=
  accounts.zip (sendingFlags.zip receivingFlags)

/-- The flag of an account, raised or taken down where the call says so. -/
def setFlag (frozen : Bool) (flags : Table Address Bool) (account : Address) (flag : Bool) :
    Table Address Bool :=
  if flag then if frozen then flags.insert account true else flags.erase account else flags

def Management.visit (frozen : Bool) (mg : Management) (e : Address × Bool × Bool) : Management :=
  { mg with
    freezeSending := setFlag frozen mg.freezeSending e.1 e.2.1
    freezeReceiving := setFlag frozen mg.freezeReceiving e.1 e.2.2 }

def Management.after (mg : Management) : Call → Management
  | .freezeAccounts accounts sendingFlags receivingFlags =>
    (listing accounts sendingFlags receivingFlags).foldl (visit true) mg
  | .unfreezeAccounts accounts sendingFlags receivingFlags =>
    (listing accounts sendingFlags receivingFlags).foldl (visit false) mg
  | .transferAdmin newAdmin => { mg with pendingAdmin := newAdmin }
  | .acceptAdmin => { mg with admin := mg.pendingAdmin, pendingAdmin := 0x0 }
  | _ => mg

section

variable (host : Host) (mg : Management) (a : Address)

def Call.movement : Call → Movement Store
  | .mint recipient amount => ⟨none, some (primaryStore host recipient), amount.toNat⟩
  | .revoke amount => ⟨some (primaryStore host a), none, amount.toNat⟩
  | .transfer source recipient amount =>
    ⟨some (primaryStore host source), some (primaryStore host recipient), amount.toNat⟩
  | .transferStore source recipient amount =>
    ⟨some source, some (primaryStore host recipient), amount.toNat⟩
  | .burn account amount => ⟨some (primaryStore host account), none, amount.toNat⟩
  | .burnFrom store amount => ⟨some store, none, amount.toNat⟩
  | _ => .still

def Call.emits : Call → List Event
  | .mint recipient amount => [.mint recipient amount]
  | .revoke amount => [.burn a (primaryStore host a) amount]
  | .burn account amount => [.burn account (primaryStore host account) amount]
  | .burnFrom store amount => [.burn store.owner store amount]
  | .freezeAccounts accounts sendingFlags receivingFlags =>
    (listing accounts sendingFlags receivingFlags).map fun e => .freeze e.1 e.2.1 e.2.2
  | .unfreezeAccounts accounts sendingFlags receivingFlags =>
    (listing accounts sendingFlags receivingFlags).map fun e => .unfreeze e.1 e.2.1 e.2.2
  | .transferAdmin newAdmin => [.transferAdmin mg.admin newAdmin]
  | .acceptAdmin => [.acceptAdmin mg.admin mg.pendingAdmin]
  | _ => []

/-- The store is listed in one of the two tables. -/
def Frozen (s : Store) : Prop :=
  mg.sendingFrozen (host.storeAddress s) = true ∨ mg.receivingFrozen (host.storeAddress s) = true

/-- What must have held. -/
def Accepted : Call → Prop
  | .mint recipient _ => a = mg.admin ∧
    mg.receivingFrozen (host.storeAddress (primaryStore host recipient)) = false
  | .transfer source _ _ => a = mg.admin ∧ Frozen host mg (primaryStore host source)
  | .transferStore source _ _ => a = mg.admin ∧ Frozen host mg source
  | .burn account _ => a = mg.admin ∧ Frozen host mg (primaryStore host account)
  | .burnFrom store _ => a = mg.admin ∧ Frozen host mg store
  | .transferAdmin newAdmin => a = mg.admin ∧ a ≠ newAdmin
  | .acceptAdmin => a = mg.pendingAdmin
  | _ => a = mg.admin

/-- `σ'` is what the call makes of `σ`. -/
structure Effect (call : Call) (σ σ' : State) : Prop where
  management : σ'.management = some (mg.after call)
  moves : (call.movement host a).Moves (units σ.stores) (units σ'.stores)
  supply : supply host σ' + (call.movement host a).outgoing =
    supply host σ + (call.movement host a).incoming
  events : σ'.events = σ.events ++ call.emits host mg a
  source : ∀ s, (call.movement host a).source = some s → s.metadata = host.usdtAddress

end

/-! ## The checks -/

section Checks

variable {host : Host} {mg : Management} {account : Address} {u : Unit}

@[simp] theorem borrowManagement_some (mg : Management) :
    borrowManagement (some mg) = .ok mg := rfl

@[simp] theorem assertIsAdmin_eq_ok :
    assertIsAdmin host (some mg) account = .ok u ↔ account = mg.admin := by
  simp [assertIsAdmin]

@[simp] theorem assertIsFrozen_eq_ok {s : Store} :
    assertIsFrozen host (some mg) s = .ok u ↔ Frozen host mg s := by
  simp [assertIsFrozen, isFrozen, Frozen, Management.sendingFrozen, Management.receivingFrozen]

@[simp] theorem assertNotFrozen_eq_ok {checkSending checkReceiving : Bool} :
    assertNotFrozen host (some mg) account checkSending checkReceiving = .ok u ↔
      (checkSending = true → mg.sendingFrozen account = false) ∧
        (checkReceiving = true → mg.receivingFrozen account = false) := by
  cases checkSending <;> cases checkReceiving <;>
    simp [assertNotFrozen, Management.sendingFrozen, Management.receivingFrozen]

end Checks

/-! ## The registered functions -/

section Hooks

variable {host : Host} {σ : State} {mg : Management}

theorem dispatch_withdraw (hm : σ.management = some mg) :
    ((σ.env host).dispatch host.usdtAddress).withdraw =
      some fun l store amount => withdraw host (some mg) l store amount store.metadata := by
  simp [State.env, dispatchFunctions, hm]

theorem dispatch_deposit (hm : σ.management = some mg) :
    ((σ.env host).dispatch host.usdtAddress).deposit =
      some fun l store fa => deposit host (some mg) l store fa store.metadata := by
  simp [State.env, dispatchFunctions, hm]

theorem withdraw_eq_ok {l l' : Stores} {s : Store} {amount : UInt64} {fa : FungibleAsset} :
    withdraw host (some mg) l s amount s.metadata = .ok (fa, l') ↔
      s.metadata = host.usdtAddress ∧ mg.sendingFrozen (host.storeAddress s) = false ∧
        FungibleAsset.withdrawInternal l s amount = .ok (fa, l') := by
  simp [withdraw, FungibleAsset.withdrawWithRef_eq_ok]

theorem deposit_eq_ok {l l' : Stores} {s : Store} {fa : FungibleAsset} :
    deposit host (some mg) l s fa s.metadata = .ok l' ↔
      s.metadata = host.usdtAddress ∧ mg.receivingFrozen (host.storeAddress s) = false ∧
        s.metadata = fa.metadata ∧ FungibleAsset.depositInternal l s fa = .ok l' := by
  simp [deposit, FungibleAsset.depositWithRef_eq_ok]

/-- **The token is an exact one**, whatever its management. -/
theorem movesExact (host : Host) (hm : σ.management = some mg) :
    MovesExact (σ.env host) host.usdtAddress where
  withdraw := by
    intro func hf l s amount fa l' hs h
    rw [dispatch_withdraw hm, Option.some.injEq] at hf
    subst hf
    exact hs ▸ withdrawInternal_exact (withdraw_eq_ok.mp h).2.2
  deposit := by
    intro func hf l s fa l' hs hfa h
    rw [dispatch_deposit hm, Option.some.injEq] at hf
    subst hf
    exact depositInternal_exact (deposit_eq_ok.mp h).2.2.2

/-- **Nobody withdraws from a frozen store** … -/
theorem unfrozen_of_withdraw (hm : σ.management = some mg) {l : Stores} {owner : Address}
    {s : Store} {amount : UInt64} {r : FungibleAsset × Stores} (hs : s.metadata = host.usdtAddress)
    (h : DispatchableFungibleAsset.withdraw (σ.env host) l owner s amount = .ok r) :
    s.owner = owner ∧ mg.sendingFrozen (host.storeAddress s) = false := by
  simp only [DispatchableFungibleAsset.withdraw, FungibleAsset.withdrawSanityCheck, hs,
    dispatch_withdraw hm, Checked.bind_eq_ok, Checked.require_eq_ok, exists_const] at h
  obtain ⟨⟨howner, -⟩, -, ⟨fa, l'⟩, hfunc, -⟩ := h
  rw [← hs] at hfunc
  exact ⟨howner, (withdraw_eq_ok.mp hfunc).2.1⟩

/-- … or deposits into one. -/
theorem unfrozen_of_deposit (hm : σ.management = some mg) {l l' : Stores} {s : Store}
    {fa : FungibleAsset} (hs : s.metadata = host.usdtAddress)
    (h : DispatchableFungibleAsset.deposit (σ.env host) l s fa = .ok l') :
    mg.receivingFrozen (host.storeAddress s) = false := by
  simp only [DispatchableFungibleAsset.deposit, hs, dispatch_deposit hm, Checked.bind_eq_ok,
    Checked.require_eq_ok, exists_const] at h
  obtain ⟨-, -, -, hfunc⟩ := h
  rw [← hs] at hfunc
  exact (deposit_eq_ok.mp hfunc).2.1

end Hooks

/-! ## Minting, burning, seizing -/

/-- `σ₁` is `σ` with stores that have been created, empty. -/
structure Opened (σ σ₁ : State) : Prop where
  management : σ₁.management = σ.management
  supplies : σ₁.supplies = σ.supplies
  events : σ₁.events = σ.events
  units : ∀ t, units σ₁.stores t = units σ.stores t

theorem ensurePrimaryStore_eq_ok {host : Host} {σ σ₁ : State} {owner : Address} {s : Store}
    (h : ensurePrimaryStore host σ owner = .ok (s, σ₁)) :
    s = primaryStore host owner ∧ Opened σ σ₁ := by
  simp only [ensurePrimaryStore, Checked.bind_eq_ok, Checked.pure_eq_ok, Prod.mk.injEq] at h
  obtain ⟨l, hl, rfl, rfl⟩ := h
  exact ⟨rfl, rfl, rfl, rfl, ensurePrimaryStoreExists_units hl⟩

section Calls

variable {host : Host} {σ σ₁ σ' : State} {mg : Management} {a : Address} {amount : UInt64}

theorem Effect.of_opened {call : Call} (ho : Opened σ σ₁) (h : Effect host mg a call σ₁ σ') :
    Effect host mg a call σ σ' where
  management := h.management
  moves := by
    intro t
    rw [← ho.units]
    exact h.moves t
  supply := by
    have hsupply := h.supply
    rwa [show Usdt.supply host σ₁ = Usdt.supply host σ by rw [Usdt.supply, ho.supplies]; rfl]
      at hsupply
  events := by rw [h.events, ho.events]
  source := h.source

section Call

variable (hm : σ.management = some mg) (hp : mg.Proper host)

include hm hp

theorem mint_effect {recipient : Address} (h : mint host σ a recipient amount = .ok σ') :
    Accepted host mg a (.mint recipient amount) ∧
      Effect host mg a (.mint recipient amount) σ σ' := by
  simp only [mint, hm, Checked.bind_eq_ok, assertIsAdmin_eq_ok, Prod.exists] at h
  obtain ⟨-, ha, s, σ₁, hstore, _, hunfrozen, mg₁, hmg, fa, supplies, hmint, l, hadd, h⟩ := h
  obtain ⟨rfl, ho⟩ := ensurePrimaryStore_eq_ok hstore
  have hm₁ := ho.management.trans hm
  rw [hm₁] at hunfrozen hmg
  cases hmg
  obtain ⟨hgrown, rfl⟩ := FungibleAsset.mint_eq_ok.mp hmint
  obtain ⟨-, hadd⟩ := FungibleAsset.depositWithRef_eq_ok.mp hadd
  have hadded := depositInternal_exact hadd
  cases h
  refine ⟨⟨ha, (assertNotFrozen_eq_ok.mp hunfrozen).2 rfl⟩, Effect.of_opened ho ?_⟩
  constructor
  · exact hm₁
  · intro t
    simp only [Call.movement, Movement.out, Movement.into, Option.some.injEq,
      eq_comm (a := primaryStore host recipient), reduceCtorEq, if_false]
    exact hadded t
  · have hunits := FungibleAsset.increaseSupply_units hgrown host.usdtAddress
    rwa [if_pos hp.mintRef.symm] at hunits
  · rfl
  · intro s hs
    cases hs

/-- A burn out of any store, by reference. -/
theorem burnInternal_effect {s : Store} (h : burnInternal σ mg s amount = .ok σ') :
    Effect host mg a (.burnFrom s amount) σ σ' := by
  simp only [burnInternal, Checked.bind_eq_ok, Checked.pure_eq_ok, Prod.exists,
    FungibleAsset.withdrawWithRef_eq_ok, FungibleAsset.burn_eq_ok] at h
  obtain ⟨fa, l, ⟨href, htake⟩, supplies, ⟨-, hshrunk⟩, rfl⟩ := h
  have hs : s.metadata = host.usdtAddress := href.symm.trans hp.transferRef
  obtain ⟨rfl, htaken⟩ := withdrawInternal_exact htake
  constructor
  · exact hm
  · intro t
    simp only [Call.movement, Movement.out, Movement.into, Option.some.injEq, eq_comm (a := s),
      reduceCtorEq, if_false]
    exact htaken t
  · have hunits := FungibleAsset.decreaseSupply_units hshrunk host.usdtAddress
    rwa [if_pos hs.symm] at hunits
  · rfl
  · intro t ht
    cases ht
    exact hs

theorem revoke_effect (h : revoke host σ a amount = .ok σ') :
    Accepted host mg a (.revoke amount) ∧ Effect host mg a (.revoke amount) σ σ' := by
  simp only [revoke, hm, Checked.bind_eq_ok, assertIsAdmin_eq_ok, Prod.exists] at h
  obtain ⟨-, ha, _, hmg, s, σ₁, hstore, hburn⟩ := h
  cases hmg
  obtain ⟨rfl, ho⟩ := ensurePrimaryStore_eq_ok hstore
  have he := (burnInternal_effect (a := a) (ho.management.trans hm) hp hburn).of_opened ho
  exact ⟨ha, he.management, he.moves, he.supply, he.events, he.source⟩

theorem burnFrom_effect {s : Store} (h : burnFrom host σ a s amount = .ok σ') :
    Accepted host mg a (.burnFrom s amount) ∧ Effect host mg a (.burnFrom s amount) σ σ' := by
  simp only [burnFrom, hm, Checked.bind_eq_ok, assertIsAdmin_eq_ok, assertIsFrozen_eq_ok] at h
  obtain ⟨-, ha, -, hfrozen, _, hmg, hburn⟩ := h
  cases hmg
  exact ⟨⟨ha, hfrozen⟩, burnInternal_effect hm hp hburn⟩

theorem burn_effect {account : Address} (h : burn host σ a account amount = .ok σ') :
    Accepted host mg a (.burn account amount) ∧
      Effect host mg a (.burn account amount) σ σ' := by
  simp only [burn, Checked.bind_eq_ok, Prod.exists] at h
  obtain ⟨s, σ₁, hstore, hburn⟩ := h
  obtain ⟨rfl, ho⟩ := ensurePrimaryStore_eq_ok hstore
  obtain ⟨haccepted, he⟩ := burnFrom_effect (ho.management.trans hm) hp hburn
  have he := he.of_opened ho
  exact ⟨haccepted, he.management, he.moves, he.supply, he.events, he.source⟩

theorem transferStore_effect {source : Store} {recipient : Address}
    (h : transferStore host σ a source recipient amount = .ok σ') :
    Accepted host mg a (.transferStore source recipient amount) ∧
      Effect host mg a (.transferStore source recipient amount) σ σ' := by
  simp only [transferStore, hm, Checked.bind_eq_ok, assertIsAdmin_eq_ok, assertIsFrozen_eq_ok,
    Prod.exists, FungibleAsset.transferWithRef, FungibleAsset.withdrawWithRef_eq_ok,
    FungibleAsset.depositWithRef_eq_ok] at h
  obtain ⟨-, ha, -, hfrozen, _, hmg, s, σ₁, hstore, l, ⟨fa, l₁, ⟨href, htake⟩, -, hadd⟩, h⟩ := h
  cases hmg
  obtain ⟨rfl, ho⟩ := ensurePrimaryStore_eq_ok hstore
  obtain ⟨rfl, htaken⟩ := withdrawInternal_exact htake
  have hadded := depositInternal_exact hadd
  cases h
  refine ⟨⟨ha, hfrozen⟩, Effect.of_opened ho ?_⟩
  constructor
  · exact ho.management.trans hm
  · intro t
    simp only [Call.movement, Movement.out, Movement.into, Option.some.injEq,
      eq_comm (a := source), eq_comm (a := primaryStore host recipient)]
    exact htaken.then_added hadded t
  · rfl
  · exact (List.append_nil _).symm
  · intro t ht
    cases ht
    exact href.symm.trans hp.transferRef

theorem transfer_effect {source recipient : Address}
    (h : transfer host σ a source recipient amount = .ok σ') :
    Accepted host mg a (.transfer source recipient amount) ∧
      Effect host mg a (.transfer source recipient amount) σ σ' := by
  simp only [transfer, Checked.bind_eq_ok, Prod.exists] at h
  obtain ⟨s, σ₁, hstore, hmove⟩ := h
  obtain ⟨rfl, ho⟩ := ensurePrimaryStore_eq_ok hstore
  obtain ⟨haccepted, he⟩ := transferStore_effect (ho.management.trans hm) hp hmove
  have he := he.of_opened ho
  exact ⟨haccepted, he.management, he.moves, he.supply, he.events, he.source⟩

end Call

end Calls

/-! ## Freezing -/

theorem freezeFlag_eq (flags : Table Address Bool) (account : Address) (flag : Bool) :
    freezeFlag flags account flag = .ok (setFlag true flags account flag) := by
  cases flag with
  | false => rfl
  | true =>
    cases hc : flags.contains account with
    | true =>
      obtain ⟨v, hv⟩ := Table.contains_eq_true.mp hc
      have hborrow : flags.borrow tableNotFound account = .ok v := Table.borrow_eq_ok.mpr hv
      simp [freezeFlag, setFlag, hc, hborrow]
    | false =>
      have hborrow :
          Table.borrow (Finmap.insert account true flags) tableNotFound account = .ok true :=
        Table.borrow_eq_ok.mpr (Finmap.lookup_insert flags)
      simp [freezeFlag, setFlag, hc, Table.add, hborrow, Finmap.insert_insert]

theorem unfreezeFlag_eq (flags : Table Address Bool) (account : Address) (flag : Bool) :
    unfreezeFlag flags account flag = .ok (setFlag false flags account flag) := by
  cases flag with
  | false => rfl
  | true =>
    cases hc : flags.contains account with
    | true => simp [unfreezeFlag, setFlag, hc, Table.remove]
    | false =>
      -- there is nothing to take out
      have hsame : Finmap.erase account flags = flags := by
        apply Finmap.ext_lookup
        intro x
        rw [Table.lookup_erase_ite]
        split
        · next hx => rw [hx, Table.contains_eq_false.mp hc]
        · rfl
      simp [unfreezeFlag, setFlag, hc, hsame]

/-- A listing touches nothing but the flags. -/
theorem foldl_visit_eq (raised : Bool) (mg : Management) (es : List (Address × Bool × Bool)) :
    ∃ freezeSending freezeReceiving, es.foldl (.visit raised) mg =
      { mg with freezeSending, freezeReceiving } := by
  induction es generalizing mg with
  | nil => exact ⟨_, _, rfl⟩
  | cons e es ih => exact ih (mg.visit raised e)

section Loop

variable {visit : Visit} {frozen : Bool} {accounts : List Address}
  {sendingFlags receivingFlags : List Bool}
  (hvisit : ∀ flags account flag, visit.flag flags account flag =
    .ok (setFlag frozen flags account flag))
  (hsending : accounts.length = sendingFlags.length)
  (hreceiving : accounts.length = receivingFlags.length)

include hvisit hsending hreceiving

/-- The loop visits what is left of the listing, in order. -/
theorem accountLoop_eq (mg : Management) (events : List Event) (i n : ℕ)
    (hn : i + n = accounts.length) :
    accountLoop visit accounts sendingFlags receivingFlags mg events i n =
      .ok (((listing accounts sendingFlags receivingFlags).drop i).foldl (.visit frozen) mg,
        events ++ ((listing accounts sendingFlags receivingFlags).drop i).map
          fun e => visit.event e.1 e.2.1 e.2.2) := by
  have hlength : (listing accounts sendingFlags receivingFlags).length = accounts.length := by
    simp [listing, ← hsending, ← hreceiving]
  induction n generalizing mg events i with
  | zero =>
    rw [List.drop_eq_nil_of_le (by omega)]
    simp [accountLoop]
  | succ n ih =>
    have hi : i < accounts.length := by omega
    have ha : MoveVector.borrow accounts i = .ok accounts[i] := by simp [hi]
    have hs : MoveVector.borrow sendingFlags i = .ok sendingFlags[i] := by simp [← hsending, hi]
    have hr : MoveVector.borrow receivingFlags i = .ok receivingFlags[i] := by
      simp [← hreceiving, hi]
    have hi' : i < (listing accounts sendingFlags receivingFlags).length := hlength ▸ hi
    have hhead : (listing accounts sendingFlags receivingFlags)[i] =
        (accounts[i], sendingFlags[i], receivingFlags[i]) := by
      simp [listing]
    rw [List.drop_eq_getElem_cons hi', hhead, accountLoop, ha, hs, hr]
    simp only [Checked.ok_bind, hvisit]
    rw [ih _ _ (i + 1) (by omega)]
    simp [Management.visit]

end Loop

theorem visitAccounts_eq_ok {host : Host} {visit : Visit} {frozen : Bool} {σ σ' : State}
    {mg : Management} {a : Address} {accounts : List Address}
    {sendingFlags receivingFlags : List Bool} (hm : σ.management = some mg)
    (hvisit : ∀ flags account flag, visit.flag flags account flag =
      .ok (setFlag frozen flags account flag))
    (h : visitAccounts host visit σ a accounts sendingFlags receivingFlags = .ok σ') :
    a = mg.admin ∧ σ' = { σ with
      management := some ((listing accounts sendingFlags receivingFlags).foldl (.visit frozen) mg)
      events := σ.events ++ (listing accounts sendingFlags receivingFlags).map
        fun e => visit.event e.1 e.2.1 e.2.2 } := by
  simp only [visitAccounts, hm, Checked.bind_eq_ok, Checked.require_eq_ok, assertIsAdmin_eq_ok,
    exists_const] at h
  obtain ⟨hsending, hreceiving, ha, _, hmg, r, hloop, h⟩ := h
  cases hmg
  rw [accountLoop_eq hvisit hsending hreceiving mg σ.events 0 _ (Nat.zero_add _)] at hloop
  cases hloop
  cases h
  exact ⟨ha, rfl⟩

/-! ## Every call -/

section Exec

variable {host : Host} {σ σ' : State} {mg : Management} {a : Address}

/-- A call that only changes the management, and logs it. -/
theorem Effect.of_still {call : Call} (hcall : call.movement host a = .still)
    (h : σ' = { σ with
      management := some (mg.after call), events := σ.events ++ call.emits host mg a }) :
    Effect host mg a call σ σ' := by
  subst h
  constructor
  · rfl
  · rw [hcall]
    exact fun _ => rfl
  · rw [hcall]
    rfl
  · rfl
  · intro s hs
    rw [hcall] at hs
    cases hs

theorem transferAdmin_effect {newAdmin : Address} (hm : σ.management = some mg)
    (h : transferAdmin host σ a newAdmin = .ok σ') :
    Accepted host mg a (.transferAdmin newAdmin) ∧
      Effect host mg a (.transferAdmin newAdmin) σ σ' := by
  simp only [transferAdmin, hm, Checked.bind_eq_ok, Checked.require_eq_ok, assertIsAdmin_eq_ok,
    exists_const] at h
  obtain ⟨ha, hne, _, hmg, h⟩ := h
  cases hmg
  cases h
  exact ⟨⟨ha, hne⟩, .of_still rfl rfl⟩

theorem acceptAdmin_effect (hm : σ.management = some mg) (h : acceptAdmin host σ a = .ok σ') :
    Accepted host mg a .acceptAdmin ∧ Effect host mg a .acceptAdmin σ σ' := by
  simp only [acceptAdmin, hm, Checked.bind_eq_ok, Checked.require_eq_ok, exists_const] at h
  obtain ⟨_, hmg, ha, h⟩ := h
  cases hmg
  cases h
  exact ⟨ha, .of_still rfl rfl⟩

/-- **What a call does**, and what must have held. -/
theorem execCall_effect {call : Call} (hm : σ.management = some mg) (hp : mg.Proper host)
    (h : execCall host σ a call = .ok σ') :
    Accepted host mg a call ∧ Effect host mg a call σ σ' := by
  cases call with
  | mint recipient amount => exact mint_effect hm hp h
  | revoke amount => exact revoke_effect hm hp h
  | transfer source recipient amount => exact transfer_effect hm hp h
  | transferStore source recipient amount => exact transferStore_effect hm hp h
  | burn account amount => exact burn_effect hm hp h
  | burnFrom store amount => exact burnFrom_effect hm hp h
  | freezeAccounts accounts sendingFlags receivingFlags =>
    obtain ⟨ha, h⟩ := visitAccounts_eq_ok hm freezeFlag_eq h
    exact ⟨ha, .of_still rfl h⟩
  | unfreezeAccounts accounts unfreezeSending unfreezeReceiving =>
    obtain ⟨ha, h⟩ := visitAccounts_eq_ok hm unfreezeFlag_eq h
    exact ⟨ha, .of_still rfl h⟩
  | transferAdmin newAdmin => exact transferAdmin_effect hm h
  | acceptAdmin => exact acceptAdmin_effect hm h

end Exec

end Usdt

end Pictor
