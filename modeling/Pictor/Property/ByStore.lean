import Pictor.Property.Frozen

/-!
# Freezing goes by store

`freeze_accounts` says that it freezes an account, and takes any address. What is asked of the
tables is the address of a store, and the address of an account is not that of its store. So a
listing matters only to the stores at the listed addresses: two chains that differ in the flags of
some addresses can not be told apart by a run that names no store there.
-/

namespace Pictor

open Checked

namespace Usdt

variable {host : Host} {σ σ' : State} {mg mg' : Management} {a x : Address}
  {accounts : List Address}

/-- The same management, but for the flags of `accounts`. -/
structure Management.Alike (accounts : List Address) (mg mg' : Management) : Prop where
  mintRef : mg.mintRef = mg'.mintRef
  burnRef : mg.burnRef = mg'.burnRef
  transferRef : mg.transferRef = mg'.transferRef
  admin : mg.admin = mg'.admin
  pendingAdmin : mg.pendingAdmin = mg'.pendingAdmin
  frozenFor : ∀ d x, x ∉ accounts → mg.frozenFor d x = mg'.frozenFor d x

/-- The same token, with another log. -/
structure State.Alike (accounts : List Address) (σ σ' : State) : Prop where
  management : ∃ mg mg', σ.management = some mg ∧ σ'.management = some mg' ∧ mg.Alike accounts mg'
  supplies : σ.supplies = σ'.supplies
  stores : σ.stores = σ'.stores

/-! ## What is asked of the management -/

theorem Management.Alike.sendingFrozen (h : mg.Alike accounts mg') (hx : x ∉ accounts) :
    mg.freezeSending.borrowWithDefault x false = mg'.freezeSending.borrowWithDefault x false :=
  h.frozenFor .sending x hx

theorem Management.Alike.receivingFrozen (h : mg.Alike accounts mg') (hx : x ∉ accounts) :
    mg.freezeReceiving.borrowWithDefault x false = mg'.freezeReceiving.borrowWithDefault x false :=
  h.frozenFor .receiving x hx

namespace State.Alike

variable (h : σ.Alike accounts σ')

include h

theorem borrowManagement :
    Agree (Management.Alike accounts) (Usdt.borrowManagement σ.management)
      (Usdt.borrowManagement σ'.management) := by
  obtain ⟨mg, mg', hm, hm', halike⟩ := h.management
  rw [hm, hm']
  exact .ok halike

theorem assertIsAdmin :
    Usdt.assertIsAdmin host σ.management a = Usdt.assertIsAdmin host σ'.management a := by
  obtain ⟨mg, mg', hm, hm', halike⟩ := h.management
  rw [hm, hm']
  simp only [Usdt.assertIsAdmin, borrowManagement_some, ok_bind, halike.admin]

theorem assertIsFrozen {s : Store} (hs : host.storeAddress s ∉ accounts) :
    Usdt.assertIsFrozen host σ.management s = Usdt.assertIsFrozen host σ'.management s := by
  obtain ⟨mg, mg', hm, hm', halike⟩ := h.management
  rw [hm, hm']
  simp only [Usdt.assertIsFrozen, isFrozen, borrowManagement_some, ok_bind, halike.sendingFrozen hs,
    halike.receivingFrozen hs]

theorem assertNotFrozen (hx : x ∉ accounts) (checkSending checkReceiving : Bool) :
    Usdt.assertNotFrozen host σ.management x checkSending checkReceiving =
      Usdt.assertNotFrozen host σ'.management x checkSending checkReceiving := by
  obtain ⟨mg, mg', hm, hm', halike⟩ := h.management
  rw [hm, hm']
  simp only [Usdt.assertNotFrozen, borrowManagement_some, ok_bind, halike.sendingFrozen hx,
    halike.receivingFrozen hx]

theorem ensurePrimaryStoreExists (l : Stores) (owner : Address) (token : Token) :
    PrimaryFungibleStore.ensurePrimaryStoreExists (σ.env host) l owner token =
      PrimaryFungibleStore.ensurePrimaryStoreExists (σ'.env host) l owner token := by
  obtain ⟨mg, mg', hm, hm', -⟩ := h.management
  simp only [PrimaryFungibleStore.ensurePrimaryStoreExists, State.env, hm, hm']
  rfl

end State.Alike

/-! ## The framework's calls

They ask for the flags of the store they are about, if it is one of the token. -/

/-- A store whose flags are the same. -/
def Unlisted (host : Host) (accounts : List Address) (s : Store) : Prop :=
  s.metadata = host.usdtAddress → host.storeAddress s ∉ accounts

theorem unlisted_primaryStore {owner : Address} (token : Token)
    (h : host.storeAddress (primaryStore host owner) ∉ accounts) :
    Unlisted host accounts (PrimaryFungibleStore.primaryStore owner token) := by
  rintro rfl
  exact h

namespace State.Alike

variable (h : σ.Alike accounts σ') {s : Store}

include h

theorem withdraw (hs : Unlisted host accounts s) (l : Stores) (owner : Address) (amount : UInt64) :
    DispatchableFungibleAsset.withdraw (σ.env host) l owner s amount =
      DispatchableFungibleAsset.withdraw (σ'.env host) l owner s amount := by
  by_cases hmetadata : s.metadata = host.usdtAddress
  · have hnot : Usdt.assertNotFrozen host _ _ true false = _ :=
      h.assertNotFrozen (hs hmetadata) true false
    obtain ⟨mg, mg', hm, hm', -⟩ := h.management
    rw [hm, hm'] at hnot
    simp only [DispatchableFungibleAsset.withdraw, State.env, if_pos hmetadata, hm, hm',
      dispatchFunctions, Usdt.withdraw, hnot]
  · simp only [DispatchableFungibleAsset.withdraw, State.env, if_neg hmetadata]
    rfl

theorem deposit (hs : Unlisted host accounts s) (l : Stores) (fa : FungibleAsset) :
    DispatchableFungibleAsset.deposit (σ.env host) l s fa =
      DispatchableFungibleAsset.deposit (σ'.env host) l s fa := by
  by_cases hmetadata : s.metadata = host.usdtAddress
  · have hnot : Usdt.assertNotFrozen host _ _ false true = _ :=
      h.assertNotFrozen (hs hmetadata) false true
    obtain ⟨mg, mg', hm, hm', -⟩ := h.management
    rw [hm, hm'] at hnot
    simp only [DispatchableFungibleAsset.deposit, State.env, if_pos hmetadata, hm, hm',
      dispatchFunctions, Usdt.deposit, hnot]
  · simp only [DispatchableFungibleAsset.deposit, State.env, if_neg hmetadata]
    rfl

variable {owner : Address} (howner : host.storeAddress (primaryStore host owner) ∉ accounts)

include howner

theorem primary_withdraw (l : Stores) (token : Token) (amount : UInt64) :
    PrimaryFungibleStore.withdraw (σ.env host) l owner token amount =
      PrimaryFungibleStore.withdraw (σ'.env host) l owner token amount := by
  unfold PrimaryFungibleStore.withdraw
  rw [h.ensurePrimaryStoreExists]
  exact bind_congr fun l _ => h.withdraw (unlisted_primaryStore token howner) l owner amount

theorem primary_deposit (l : Stores) (fa : FungibleAsset) :
    PrimaryFungibleStore.deposit (σ.env host) l owner fa =
      PrimaryFungibleStore.deposit (σ'.env host) l owner fa := by
  unfold PrimaryFungibleStore.deposit
  rw [h.ensurePrimaryStoreExists]
  exact bind_congr fun l _ => h.deposit (unlisted_primaryStore fa.metadata howner) l fa

end State.Alike

/-! ## The network's calls -/

namespace State.Alike

variable (h : σ.Alike accounts σ') {w : World} {token : Token}
  (hvault : ∀ s, w.vault.lookup token = some s → Unlisted host accounts s)

include h hvault

theorem depositVault (fa : FungibleAsset) :
    PictorConfig.depositVault (σ.env host) w fa token =
      PictorConfig.depositVault (σ'.env host) w fa token := by
  refine bind_congr fun s hs => ?_
  rw [h.deposit (hvault s (PictorConfig.getVaultStore_eq_ok.mp hs))]

theorem withdrawVault (amount : UInt64) :
    PictorConfig.withdrawVault (σ.env host) w amount token =
      PictorConfig.withdrawVault (σ'.env host) w amount token := by
  refine bind_congr fun s hs => ?_
  rw [h.withdraw (hvault s (PictorConfig.getVaultStore_eq_ok.mp hs))]
  rfl

theorem network_deposit {user : Address}
    (huser : host.storeAddress (primaryStore host user) ∉ accounts) (amount : UInt64) :
    PictorNetwork.deposit (σ.env host) w user amount token =
      PictorNetwork.deposit (σ'.env host) w user amount token := by
  unfold PictorNetwork.deposit
  refine bind_congr fun w₁ hw₁ => bind_congr fun info _ => bind_congr fun credit _ =>
    bind_congr fun w₂ hw₂ => ?_
  rw [h.primary_withdraw huser]
  -- what is done to the user's account leaves the vault where it is
  refine bind_congr fun r _ => h.depositVault ?_ _
  obtain ⟨-, rfl⟩ := PictorNetwork.registerUserInternal_eq_ok.mp hw₁
  obtain ⟨-, rfl⟩ := PictorNetwork.withUserInfo_eq_ok.mp hw₂
  exact hvault

theorem network_withdraw {user : Address}
    (huser : host.storeAddress (primaryStore host user) ∉ accounts) (amount : UInt64) :
    PictorNetwork.withdraw (σ.env host) w user amount token =
      PictorNetwork.withdraw (σ'.env host) w user amount token := by
  unfold PictorNetwork.withdraw
  refine bind_congr fun _ _ => bind_congr fun info _ => bind_congr fun _ _ =>
    bind_congr fun balance _ => bind_congr fun w₁ hw₁ => ?_
  obtain ⟨-, rfl⟩ := PictorNetwork.withUserInfo_eq_ok.mp hw₁
  rw [h.withdrawVault (w := w.setUser user _) hvault]
  refine bind_congr fun r _ => ?_
  obtain ⟨fungibleToken, w₂⟩ := r
  simp only [h.primary_deposit huser]

theorem withdrawToTreasury {treasury : Address}
    (htreasury : host.storeAddress (primaryStore host treasury) ∉ accounts)
    (hw : ∀ c, w.config = some c → c.treasuryAddr = treasury) (amount : UInt64) :
    PictorConfig.withdrawToTreasury (σ.env host) w a amount token =
      PictorConfig.withdrawToTreasury (σ'.env host) w a amount token := by
  unfold PictorConfig.withdrawToTreasury
  refine bind_congr fun _ _ => bind_congr fun _ _ => bind_congr fun _ _ => bind_congr fun s hs => ?_
  rw [h.withdraw (hvault s (PictorConfig.getVaultStore_eq_ok.mp hs))]
  refine bind_congr fun r _ => bind_congr fun owner howner => ?_
  obtain ⟨c, hc, rfl⟩ := PictorConfig.getTreasuryAddress_eq_ok.mp howner
  rw [hw c hc, h.primary_deposit htreasury]

end State.Alike

/-! ## The calls -/

theorem State.Alike.stores_changed (h : σ.Alike accounts σ') (supplies : Supplies) (l : Stores)
    (events events' : List Event) :
    State.Alike accounts { σ with supplies, stores := l, events }
      { σ' with supplies, stores := l, events := events' } :=
  ⟨h.management, rfl, rfl⟩

/-- Whatever comes after a primary store has been looked up. -/
theorem ensurePrimaryStore_alike {f g : Store × State → Result State} (h : σ.Alike accounts σ')
    (owner : Address) (hstep : ∀ σ₁ σ₁', σ₁.Alike accounts σ₁' →
      Agree (State.Alike accounts) (f (primaryStore host owner, σ₁))
        (g (primaryStore host owner, σ₁'))) :
    Agree (State.Alike accounts) (ensurePrimaryStore host σ owner >>= f)
      (ensurePrimaryStore host σ' owner >>= g) := by
  have hopened : Agree (fun r r' => r.1 = primaryStore host owner ∧
      r'.1 = primaryStore host owner ∧ r.2.Alike accounts r'.2)
      (ensurePrimaryStore host σ owner) (ensurePrimaryStore host σ' owner) := by
    unfold ensurePrimaryStore
    rw [h.ensurePrimaryStoreExists, h.stores]
    exact .bind_same fun l _ => .ok ⟨rfl, rfl, h.management, h.supplies, rfl⟩
  refine hopened.bind ?_
  rintro ⟨_, σ₁⟩ ⟨_, σ₁'⟩ ⟨rfl, rfl, h₁⟩
  exact hstep σ₁ σ₁' h₁

section Calls

variable (h : σ.Alike accounts σ') (amount : UInt64)

include h

theorem mint_alike {recipient : Address}
    (hrecipient : host.storeAddress (primaryStore host recipient) ∉ accounts) :
    Agree (State.Alike accounts) (mint host σ a recipient amount)
      (mint host σ' a recipient amount) := by
  unfold mint
  rw [h.assertIsAdmin]
  refine .bind_same fun _ _ => ensurePrimaryStore_alike h recipient fun σ₁ σ₁' h₁ => ?_
  simp only [h₁.assertNotFrozen hrecipient]
  refine .bind_same fun _ _ => .bind h₁.borrowManagement fun mg mg' hmg => ?_
  rw [h₁.supplies, hmg.mintRef]
  refine .bind_same fun r _ => ?_
  obtain ⟨tokens, supplies⟩ := r
  simp only [h₁.stores, hmg.transferRef]
  exact .bind_same fun l _ => .ok (h₁.stores_changed _ _ _ _)

theorem burnInternal_alike (hmg : mg.Alike accounts mg') (s : Store) :
    Agree (State.Alike accounts) (burnInternal σ mg s amount) (burnInternal σ' mg' s amount) := by
  unfold burnInternal
  rw [h.stores, hmg.transferRef]
  refine .bind_same fun r _ => ?_
  obtain ⟨tokens, l⟩ := r
  simp only [h.supplies, hmg.burnRef]
  exact .bind_same fun supplies _ => .ok (h.stores_changed _ _ _ _)

/-- No flag is asked for. -/
theorem revoke_alike :
    Agree (State.Alike accounts) (revoke host σ a amount) (revoke host σ' a amount) := by
  unfold revoke
  rw [h.assertIsAdmin]
  refine .bind_same fun _ _ => .bind h.borrowManagement fun mg mg' hmg => ?_
  refine ensurePrimaryStore_alike h a fun σ₁ σ₁' h₁ => ?_
  exact burnInternal_alike h₁ amount hmg _

theorem burnFrom_alike {s : Store} (hs : host.storeAddress s ∉ accounts) :
    Agree (State.Alike accounts) (burnFrom host σ a s amount) (burnFrom host σ' a s amount) := by
  unfold burnFrom
  rw [h.assertIsAdmin, h.assertIsFrozen hs]
  refine .bind_same fun _ _ => .bind_same fun _ _ => ?_
  exact .bind h.borrowManagement fun mg mg' hmg => burnInternal_alike h amount hmg s

theorem burn_alike {account : Address}
    (haccount : host.storeAddress (primaryStore host account) ∉ accounts) :
    Agree (State.Alike accounts) (burn host σ a account amount)
      (burn host σ' a account amount) := by
  unfold burn
  refine ensurePrimaryStore_alike h account fun σ₁ σ₁' h₁ => ?_
  exact burnFrom_alike h₁ amount haccount

/-- The flags asked for are those of the source. -/
theorem transferStore_alike {source : Store} (hsource : host.storeAddress source ∉ accounts)
    (recipient : Address) :
    Agree (State.Alike accounts) (transferStore host σ a source recipient amount)
      (transferStore host σ' a source recipient amount) := by
  unfold transferStore
  rw [h.assertIsAdmin, h.assertIsFrozen hsource]
  refine .bind_same fun _ _ => .bind_same fun _ _ => ?_
  refine .bind h.borrowManagement fun mg mg' hmg => ?_
  refine ensurePrimaryStore_alike h recipient fun σ₁ σ₁' h₁ => ?_
  simp only [h₁.stores, hmg.transferRef]
  exact .bind_same fun l _ => .ok ⟨h₁.management, h₁.supplies, rfl⟩

theorem transfer_alike {source : Address}
    (hsource : host.storeAddress (primaryStore host source) ∉ accounts) (recipient : Address) :
    Agree (State.Alike accounts) (transfer host σ a source recipient amount)
      (transfer host σ' a source recipient amount) := by
  unfold transfer
  refine ensurePrimaryStore_alike h source fun σ₁ σ₁' h₁ => ?_
  exact transferStore_alike h₁ amount hsource recipient

end Calls

/-- A listing does the same to flags that are alike. -/
theorem Management.Alike.visits (h : mg.Alike accounts mg') (raised : Bool)
    (es : List (Address × Bool × Bool)) :
    (es.foldl (.visit raised) mg).Alike accounts (es.foldl (.visit raised) mg') := by
  have hflags : ∀ d x, x ∉ accounts → (es.foldl (.visit raised) mg).frozenFor d x =
      (es.foldl (.visit raised) mg').frozenFor d x := by
    intro d x hx
    rw [Market.foldl_visit_frozenFor, Market.foldl_visit_frozenFor, h.frozenFor d x hx]
  obtain ⟨freezeSending, freezeReceiving, hfold⟩ := foldl_visit_eq raised mg es
  obtain ⟨freezeSending', freezeReceiving', hfold'⟩ := foldl_visit_eq raised mg' es
  rw [hfold, hfold'] at hflags ⊢
  exact ⟨h.mintRef, h.burnRef, h.transferRef, h.admin, h.pendingAdmin, hflags⟩

/-- A listing changes no flags but those of the listed accounts. -/
theorem Management.Alike.of_listed (mg : Management) (raised : Bool)
    {es : List (Address × Bool × Bool)} (hes : ∀ e ∈ es, e.1 ∈ accounts) :
    (es.foldl (.visit raised) mg).Alike accounts mg := by
  have hflags : ∀ d x, x ∉ accounts → (es.foldl (.visit raised) mg).frozenFor d x =
      mg.frozenFor d x := by
    intro d x hx
    rw [Market.foldl_visit_frozenFor, if_neg]
    rintro ⟨e, he, haddress, -⟩
    exact hx (haddress ▸ hes e he)
  obtain ⟨freezeSending, freezeReceiving, hfold⟩ := foldl_visit_eq raised mg es
  rw [hfold] at hflags ⊢
  exact ⟨rfl, rfl, rfl, rfl, rfl, hflags⟩

section Calls

variable (h : σ.Alike accounts σ')

include h

theorem visitAccounts_alike {visit : Visit} {raised : Bool} (as : List Address)
    (sendingFlags receivingFlags : List Bool)
    (hvisit : ∀ flags account flag, visit.flag flags account flag =
      .ok (setFlag raised flags account flag)) :
    Agree (State.Alike accounts) (visitAccounts host visit σ a as sendingFlags receivingFlags)
      (visitAccounts host visit σ' a as sendingFlags receivingFlags) := by
  unfold visitAccounts
  rw [h.assertIsAdmin]
  refine .bind_same fun _ hsending => .bind_same fun _ hreceiving => .bind_same fun _ _ => ?_
  rw [require_eq_ok] at hsending hreceiving
  refine .bind h.borrowManagement fun mg mg' hmg => ?_
  rw [accountLoop_eq hvisit hsending hreceiving _ _ 0 _ (Nat.zero_add _),
    accountLoop_eq hvisit hsending hreceiving _ _ 0 _ (Nat.zero_add _)]
  exact .ok ⟨⟨_, _, rfl, rfl, hmg.visits raised _⟩, h.supplies, h.stores⟩

theorem transferAdmin_alike (newAdmin : Address) :
    Agree (State.Alike accounts) (transferAdmin host σ a newAdmin)
      (transferAdmin host σ' a newAdmin) := by
  unfold transferAdmin
  rw [h.assertIsAdmin]
  refine .bind_same fun _ _ => .bind_same fun _ _ => .bind h.borrowManagement fun mg mg' hmg => ?_
  exact .ok ⟨⟨_, _, rfl, rfl, hmg.mintRef, hmg.burnRef, hmg.transferRef, hmg.admin, rfl,
    hmg.frozenFor⟩, h.supplies, h.stores⟩

theorem acceptAdmin_alike :
    Agree (State.Alike accounts) (acceptAdmin host σ a) (acceptAdmin host σ' a) := by
  unfold acceptAdmin
  refine .bind h.borrowManagement fun mg mg' hmg => ?_
  rw [hmg.pendingAdmin]
  refine .bind_same fun _ _ => ?_
  exact .ok ⟨⟨_, _, rfl, rfl, hmg.mintRef, hmg.burnRef, hmg.transferRef, rfl, rfl,
    hmg.frozenFor⟩, h.supplies, h.stores⟩

end Calls

end Usdt

namespace Market

variable {host : Usdt.Host} {treasury : Address} {pk : List UInt8} {m m' m₀ : Market}
  {accounts : List Address}

/-- Two chains that differ at most in the log and in the flags of `accounts`. -/
structure Alike (accounts : List Address) (m m' : Market) : Prop where
  config : m.config = m'.config
  network : m.network = m'.network
  token : m.token.Alike accounts m'.token

/-- Neither of the stores an act is about, the one it takes tokens from and the one it puts them in,
is at one of these addresses. -/
def Act.Avoids (host : Usdt.Host) (treasury : Address) (accounts : List Address) (act : Act) :
    Prop :=
  (∀ s ∈ (act.movement host treasury).source, host.storeAddress s ∉ accounts) ∧
    ∀ s ∈ (act.movement host treasury).target, host.storeAddress s ∉ accounts

instance (act : Act) : Decidable (act.Avoids host treasury accounts) :=
  inferInstanceAs (Decidable (_ ∧ _))

theorem Alike.world (h : Alike accounts m m') : m.world = m'.world := by
  rw [Market.world, Market.world, h.config, h.network, h.token.stores]

/-- The same stores on both. -/
theorem Alike.with_stores (h : Alike accounts m m') (l : Stores) :
    Alike accounts { m with token := { m.token with stores := l } }
      { m' with token := { m'.token with stores := l } } :=
  ⟨h.config, h.network, h.token.management, h.token.supplies, rfl⟩

/-! ## One act -/

/-- The calls of the network that move tokens find the vault of the set-up. -/
theorem network_alike (h : Alike accounts m m') {a : Address} {call : Call}
    (hc : Configured host.env host.usdtAddress treasury m'.world)
    (hact : (Act.network a call).Avoids host treasury accounts) :
    Pictor.execCall (m.token.env host) m'.world a call =
      Pictor.execCall (m'.token.env host) m'.world a call := by
  obtain ⟨hsource, htarget⟩ := hact
  have hvault : host.storeAddress (vault host) ∉ accounts → ∀ {token : Token} (s : Store),
      m'.world.vault.lookup token = some s → Usdt.Unlisted host accounts s := by
    intro hunlisted token s hs _
    obtain ⟨-, rfl⟩ := hc.vault_lookup.mp hs
    exact hunlisted
  cases call with
  | deposit amount token =>
    exact h.token.network_deposit (hvault (htarget _ rfl)) (hsource _ rfl) amount
  | withdraw amount token =>
    exact h.token.network_withdraw (hvault (hsource _ rfl)) (htarget _ rfl) amount
  | withdrawToTreasury amount token =>
    refine h.token.withdrawToTreasury (hvault (hsource _ rfl)) (htarget _ rfl) ?_ amount
    intro c hconfig
    obtain ⟨c', hconfig', -, htreasury, -⟩ := hc
    rw [hconfig, Option.some.injEq] at hconfig'
    exact hconfig' ▸ htreasury
  | _ => rfl

theorem usdt_alike (h : Alike accounts m m') {a : Address} {call : Usdt.Call}
    (hact : (Act.usdt a call).Avoids host treasury accounts) :
    Agree (Usdt.State.Alike accounts) (Usdt.execCall host m.token a call)
      (Usdt.execCall host m'.token a call) := by
  obtain ⟨hsource, htarget⟩ := hact
  cases call with
  | mint recipient amount => exact Usdt.mint_alike h.token amount (htarget _ rfl)
  | revoke amount => exact Usdt.revoke_alike h.token amount
  | transfer source recipient amount =>
    exact Usdt.transfer_alike h.token amount (hsource _ rfl) recipient
  | transferStore source recipient amount =>
    exact Usdt.transferStore_alike h.token amount (hsource _ rfl) recipient
  | burn account amount => exact Usdt.burn_alike h.token amount (hsource _ rfl)
  | burnFrom store amount => exact Usdt.burnFrom_alike h.token amount (hsource _ rfl)
  | freezeAccounts as sendingFlags receivingFlags =>
    exact Usdt.visitAccounts_alike h.token as sendingFlags receivingFlags Usdt.freezeFlag_eq
  | unfreezeAccounts as unfreezeSending unfreezeReceiving =>
    exact Usdt.visitAccounts_alike h.token as unfreezeSending unfreezeReceiving
      Usdt.unfreezeFlag_eq
  | transferAdmin newAdmin => exact Usdt.transferAdmin_alike h.token newAdmin
  | acceptAdmin => exact Usdt.acceptAdmin_alike h.token

/-- **An act that avoids the listed addresses** does the same on both chains. -/
theorem exec_alike (h : Alike accounts m m')
    (hc : Configured host.env host.usdtAddress treasury m'.world) {act : Act}
    (hact : act.Avoids host treasury accounts) :
    Agree (Alike accounts) (exec host m act) (exec host m' act) := by
  cases act with
  | network a call =>
    simp only [exec, h.world, network_alike h hc hact]
    exact .bind_same fun w _ => .ok ⟨rfl, rfl, h.token.management, h.token.supplies, rfl⟩
  | usdt a call =>
    exact .bind (usdt_alike h hact) fun σ σ' hσ => .ok ⟨h.config, h.network, hσ⟩
  | transfer sender source target amount =>
    simp only [exec, DispatchableFungibleAsset.transfer, h.token.stores,
      h.token.withdraw (fun _ => hact.1 source rfl), h.token.deposit (fun _ => hact.2 target rfl)]
    exact .bind_same fun _ _ => .bind_same fun l _ => .ok (h.with_stores l)
  | primaryTransfer sender recipient amount =>
    simp only [exec, PrimaryFungibleStore.transfer, DispatchableFungibleAsset.transfer,
      h.token.stores, h.token.ensurePrimaryStoreExists,
      h.token.withdraw (Usdt.unlisted_primaryStore host.usdtAddress (hact.1 _ rfl)),
      h.token.deposit (Usdt.unlisted_primaryStore host.usdtAddress (hact.2 _ rfl))]
    exact .bind_same fun l _ => .ok (h.with_stores l)
  | outside l =>
    simp only [exec, h.token.stores]
    exact .bind_same fun _ _ => .ok (h.with_stores l)

/-! ## A listing that is left out -/

/-- The accounts a freezing or unfreezing lists. -/
def listed : Act → Option (List Address)
  | .usdt _ (.freezeAccounts accounts _ _) => some accounts
  | .usdt _ (.unfreezeAccounts accounts _ _) => some accounts
  | _ => none

theorem mem_of_listing (accounts : List Address) (sendingFlags receivingFlags : List Bool) :
    ∀ e ∈ Usdt.listing accounts sendingFlags receivingFlags, e.1 ∈ accounts :=
  fun _ he => (List.of_mem_zip he).1

/-- **Such a call changes nothing** but the flags of the accounts it lists. -/
theorem alike_of_listed {mg : Usdt.Management} {act : Act} (hm : m.token.management = some mg)
    (hact : listed act = some accounts) (h : exec host m act = .ok m') : Alike accounts m' m := by
  cases act with
  | usdt a call =>
    simp only [exec, bind_eq_ok, pure_eq_ok] at h
    obtain ⟨σ, h, rfl⟩ := h
    cases call with
    | freezeAccounts as sendingFlags receivingFlags =>
      cases hact
      obtain ⟨-, rfl⟩ := Usdt.visitAccounts_eq_ok hm Usdt.freezeFlag_eq h
      have halike := Usdt.Management.Alike.of_listed mg true
        (mem_of_listing accounts sendingFlags receivingFlags)
      exact ⟨rfl, rfl, ⟨_, _, rfl, hm, halike⟩, rfl, rfl⟩
    | unfreezeAccounts as unfreezeSending unfreezeReceiving =>
      cases hact
      obtain ⟨-, rfl⟩ := Usdt.visitAccounts_eq_ok hm Usdt.unfreezeFlag_eq h
      have halike := Usdt.Management.Alike.of_listed mg false
        (mem_of_listing accounts unfreezeSending unfreezeReceiving)
      exact ⟨rfl, rfl, ⟨_, _, rfl, hm, halike⟩, rfl, rfl⟩
    | _ => cases hact
  | _ => cases hact

theorem alike_refl {mg : Usdt.Management} (hm : m.token.management = some mg) :
    Alike accounts m m :=
  ⟨rfl, rfl, ⟨mg, mg, hm, hm, rfl, rfl, rfl, rfl, rfl, fun _ _ _ => rfl⟩, rfl, rfl⟩

/-- **Freezing an address matters only to the store that is there**: if no later act is about a
store at a listed address, then with or without the call the rest of the run leaves the same
balances, the same supply and the same network, and every act in it succeeds or aborts alike. -/
theorem freezing_goes_by_store (h₀ : JustSetUp host treasury pk m₀) (as bs : List Act) {act : Act}
    (hact : listed act = some accounts) (hbs : ∀ b ∈ bs, b.Avoids host treasury accounts) :
    Alike accounts (run host m₀ (as ++ act :: bs)) (run host m₀ (as ++ bs)) ∧
      Transactions.aborts (exec host) (run host m₀ (as ++ [act])) bs =
        Transactions.aborts (exec host) (run host m₀ as) bs := by
  have hready := Transactions.invariant (ready_preserved host treasury) ⟨_, ready_initial h₀⟩ as
  have hnext : Alike accounts (Transactions.next (exec host) (run host m₀ as) act)
      (run host m₀ as) := by
    obtain ⟨mg, hr⟩ := hready
    cases h : exec host (run host m₀ as) act with
    | ok m' =>
      rw [Transactions.next_of_ok h]
      exact alike_of_listed hr.management hact h
    | error e =>
      rw [Transactions.next_of_error h]
      exact alike_refl hr.management
  have hagree := Transactions.run_agree
    (R := fun m m' => Alike accounts m m' ∧ ∃ mg, Ready host treasury mg m')
    (fun m m' b hb h => (exec_alike h.1 h.2.choose_spec.configured hb).and
      fun m'' hstep => ready_preserved host treasury m' b m'' h.2 hstep)
    ⟨hnext, hready⟩ bs hbs
  simp only [run, Transactions.run_append, Transactions.run_cons, Transactions.run_nil]
  exact ⟨hagree.1.1, hagree.2⟩

/-- The wallet of a "frozen" account still pays. -/
theorem freezing_goes_by_store_test :
    Alike [0xdead]
      (run testHost testMarket ([.usdt 0xcafe (.mint 0xdead 1000)] ++
        .usdt 0xcafe (.freezeAccounts [0xdead] [true] [true]) ::
        [.network 0xdead (.deposit 400 usdt), .primaryTransfer 0xdead 0xbeef 100]))
      (run testHost testMarket ([.usdt 0xcafe (.mint 0xdead 1000)] ++
        [.network 0xdead (.deposit 400 usdt), .primaryTransfer 0xdead 0xbeef 100])) :=
  (freezing_goes_by_store testMarket_justSetUp _ _ rfl (by decide)).1

end Market

end Pictor
