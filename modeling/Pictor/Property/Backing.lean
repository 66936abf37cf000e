import Pictor.Property.Ledger

/-!
# Tokens that do not move exact amounts

A payment token may register functions of its own, and the framework checks little of what they do:
of a withdrawal, that the store falls by at least the requested amount; of a deposit, nothing. The
ledger of the contract is written with the requested amount in any case. So whether a deposit is
covered by the vault, and a withdrawal by the balance, is up to the token: `FillsVault` and
`SparesVault` say what its functions have to do for it.
-/

namespace Pictor

variable {env : Env} {P : Token} {treasury : Address} {pk : List UInt8} {w w' : World}

/-- A deposit raises the caller's credit by no more than it raises the vault. -/
def DepositBacked (env : Env) (P : Token) (a : Address) (amount : UInt64) (w : World) : Prop :=
  ∀ token w', exec env w (.txn a (.deposit amount token)) = .ok w' →
    w'.credit a + w.vaultUnits env P ≤ w.credit a + w'.vaultUnits env P

/-- A withdrawal lowers the vault by no more than the caller's balance. -/
def WithdrawBacked (env : Env) (P : Token) (a : Address) (amount : UInt64) (w : World) : Prop :=
  ∀ token w', exec env w (.txn a (.withdraw amount token)) = .ok w' →
    w.vaultUnits env P + w'.balance a ≤ w'.vaultUnits env P + w.balance a

/-! ## What the framework lets the token's functions do -/

/-- The store exists and is not frozen. -/
def Usable (l : Stores) (s : Store) : Prop := ∃ v, l.lookup s = some v ∧ v.frozen = false

/-- Asked for `amount` out of `s`, the token's withdraw function returns `fa`, and the framework
finds nothing wrong with it. -/
def Withdraws (env : Env) (s : Store) (amount : UInt64) (l : Stores) (fa : FungibleAsset)
    (l' : Stores) : Prop :=
  ∃ func, (env.dispatch s.metadata).withdraw = some func ∧
    env.dispatchableFungibleAssetEnabled = true ∧ Usable l s ∧ func l s amount = .ok (fa, l') ∧
    units l' s + amount.toNat ≤ units l s

/-- Given `fa` for the store `s`, the token's deposit function returns. -/
def Deposits (env : Env) (s : Store) (fa : FungibleAsset) (l l' : Stores) : Prop :=
  ∃ func, (env.dispatch s.metadata).deposit = some func ∧
    env.dispatchableFungibleAssetEnabled = true ∧ Usable l s ∧ func l s fa = .ok l'

section Functions

variable {l l' : Stores} {s : Store} {amount : UInt64} {fa : FungibleAsset}

theorem withdrawSanityCheck_of_usable (h : Usable l s) :
    FungibleAsset.withdrawSanityCheck l s.owner s = .ok () := by
  obtain ⟨v, hv, hfrozen⟩ := h
  simp [FungibleAsset.withdrawSanityCheck, hv, hfrozen]

theorem depositSanityCheck_of_usable (h : Usable l s) :
    FungibleAsset.depositSanityCheck l s = .ok () := by
  obtain ⟨v, hv, hfrozen⟩ := h
  simp [FungibleAsset.depositSanityCheck, hv, hfrozen]

theorem Withdraws.eq_ok (h : Withdraws env s amount l fa l') :
    DispatchableFungibleAsset.withdraw env l s.owner s amount = .ok (fa, l') := by
  obtain ⟨func, hfunc, hflag, husable, hrun, hfall⟩ := h
  have hfallen : units l s - units l' s < 2 ^ 64 :=
    (Nat.sub_le _ _).trans_lt (FungibleAsset.balance l s).toNat_lt
  obtain ⟨fallen, hfallen⟩ := Checked.exists_toNat_eq.mpr hfallen
  rw [DispatchableFungibleAsset.withdraw, withdrawSanityCheck_of_usable husable, hfunc]
  simp only [Checked.ok_bind, Checked.bind_eq_ok, Checked.require_eq_ok, hflag, hrun,
    U64.sub_eq_ok, Checked.pure_eq_ok, exists_const, true_and, and_true]
  unfold units at hfall hfallen
  refine ⟨fallen, by omega, ?_⟩
  rw [UInt64.le_iff_toNat_le]
  omega

theorem Deposits.eq_ok (h : Deposits env s fa l l') :
    DispatchableFungibleAsset.deposit env l s fa = .ok l' := by
  obtain ⟨func, hfunc, hflag, husable, hrun⟩ := h
  rw [DispatchableFungibleAsset.deposit, depositSanityCheck_of_usable husable, hfunc]
  simp [hflag, hrun]

/-- A withdrawal is the token's own function, or else moves exactly the amount. -/
theorem withdraws_or_exact {owner : Address}
    (h : DispatchableFungibleAsset.withdraw env l owner s amount = .ok (fa, l')) :
    Withdraws env s amount l fa l' ∨ (env.dispatch s.metadata).withdraw = none ∧
      fa = ⟨s.metadata, amount⟩ ∧ TakenFrom l l' s amount.toNat := by
  simp only [DispatchableFungibleAsset.withdraw, FungibleAsset.withdrawSanityCheck,
    Checked.bind_eq_ok, Checked.require_eq_ok, Table.borrow_eq_ok, exists_const] at h
  obtain ⟨⟨-, v, hv, hfrozen⟩, h⟩ := h
  split at h
  · next func hfunc =>
    simp only [Checked.bind_eq_ok, Checked.require_eq_ok, U64.sub_eq_ok, Checked.pure_eq_ok,
      Prod.mk.injEq, exists_const] at h
    obtain ⟨hflag, ⟨fa, l'⟩, hrun, fallen, hfallen, hle, rfl, rfl⟩ := h
    refine .inl ⟨func, hfunc, hflag, ⟨v, hv, hfrozen⟩, hrun, ?_⟩
    rw [UInt64.le_iff_toNat_le] at hle
    unfold units
    omega
  · next hnone => exact .inr ⟨hnone, withdrawInternal_exact h⟩

/-- So is a deposit. -/
theorem deposits_or_exact (h : DispatchableFungibleAsset.deposit env l s fa = .ok l') :
    Deposits env s fa l l' ∨ (env.dispatch s.metadata).deposit = none ∧
      AddedTo l l' s fa.amount.toNat := by
  simp only [DispatchableFungibleAsset.deposit, FungibleAsset.depositSanityCheck,
    Checked.bind_eq_ok, Checked.require_eq_ok, Table.borrow_eq_ok] at h
  obtain ⟨-, ⟨v, hv, hfrozen⟩, h⟩ := h
  split at h
  · next func hfunc =>
    simp only [Checked.bind_eq_ok, Checked.require_eq_ok, exists_const] at h
    exact .inl ⟨func, hfunc, h.1, ⟨v, hv, hfrozen⟩, h.2⟩
  · next hnone => exact .inr ⟨hnone, depositInternal_exact h⟩

end Functions

/-! ## Conditions on the token's functions -/

/-- What the withdraw function returns is the token itself, if any amount of it. -/
def ReturnsOwn (env : Env) (P : Token) : Prop :=
  ∀ s amount l fa l', s.metadata = P → Withdraws env s amount l fa l' → fa.metadata = P

/-- The token's functions bring to the vault what is asked of a wallet. -/
structure FillsVault (env : Env) (P : Token) : Prop where
  /-- The withdraw function returns no less than it was asked for. What can not be deposited does
  not matter, and what it moves between stores on the way counts. -/
  returned : ∀ a amount l fa l',
    Withdraws env (PrimaryFungibleStore.primaryStore a P) amount l fa l' →
    (∃ l'', DispatchableFungibleAsset.deposit env l' (PictorConfig.vaultStore env P) fa =
      .ok l'') →
    units l (PictorConfig.vaultStore env P) + amount.toNat ≤
      units l' (PictorConfig.vaultStore env P) + fa.amount.toNat
  /-- The deposit function adds all that came out of the wallet. -/
  added : ∀ a amount l₀ fa l l',
    PrimaryFungibleStore.withdraw env l₀ a P amount = .ok (fa, l) →
    Deposits env (PictorConfig.vaultStore env P) fa l l' →
    units l (PictorConfig.vaultStore env P) + fa.amount.toNat ≤
      units l' (PictorConfig.vaultStore env P)

/-- The token's functions leave in the vault what is not asked for. -/
structure SparesVault (env : Env) (P : Token) : Prop where
  /-- The withdraw function takes no more than it was asked for. -/
  taken : ∀ a amount l fa l', Withdraws env (PictorConfig.vaultStore env P) amount l fa l' →
    (∃ l'', PrimaryFungibleStore.deposit env l' a fa = .ok l'') →
    units l (PictorConfig.vaultStore env P) ≤
      units l' (PictorConfig.vaultStore env P) + amount.toNat
  /-- The deposit function, at a wallet, takes nothing from the vault. -/
  spared : ∀ a amount l₀ fa l₁ l l',
    DispatchableFungibleAsset.withdraw env l₀ env.configAddress (PictorConfig.vaultStore env P)
      amount = .ok (fa, l₁) →
    PrimaryFungibleStore.ensurePrimaryStoreExists env l₁ a P = .ok l →
    Deposits env (PrimaryFungibleStore.primaryStore a P) fa l l' →
    units l (PictorConfig.vaultStore env P) ≤ units l' (PictorConfig.vaultStore env P)

/-! ## Under the conditions, everything is backed -/

/-- What leaves a wallet does not leave the vault. -/
theorem TakenFrom.vault {l l' : Stores} {a : Address} {token : Token} {n : ℕ}
    (h : TakenFrom l l' (PrimaryFungibleStore.primaryStore a token) n) :
    units l' (PictorConfig.vaultStore env P) = units l (PictorConfig.vaultStore env P) := by
  have hvault := h (PictorConfig.vaultStore env P)
  rwa [if_neg vaultStore_ne_primaryStore] at hvault

theorem initialized_initial (h : JustInitialised env P treasury pk w) :
    PictorNetwork.isInitialized w = true := by
  obtain ⟨l, -, rfl⟩ := justInitialised_iff.mp h
  rfl

theorem Reachable.initialized (hw : Reachable env P w) : PictorNetwork.isInitialized w = true :=
  hw.induction (fun _ _ _ h₀ => initialized_initial h₀) fun _ _ _ hn h => initialized_of_exec h hn

/-- Out of a wallet, and then into the vault. -/
theorem FillsVault.moved (hfills : FillsVault env P) {a : Address} {amount : UInt64}
    {l₀ l l' : Stores} {fa : FungibleAsset}
    (htake : PrimaryFungibleStore.withdraw env l₀ a P amount = .ok (fa, l))
    (hadd : DispatchableFungibleAsset.deposit env l (PictorConfig.vaultStore env P) fa =
      .ok l') :
    units l₀ (PictorConfig.vaultStore env P) + amount.toNat ≤
      units l' (PictorConfig.vaultStore env P) := by
  have hout : units l₀ (PictorConfig.vaultStore env P) + amount.toNat ≤
      units l (PictorConfig.vaultStore env P) + fa.amount.toNat := by
    have hwithdraw := htake
    simp only [PrimaryFungibleStore.withdraw, Checked.bind_eq_ok] at hwithdraw
    obtain ⟨l₁, hensure, hwithdraw⟩ := hwithdraw
    rw [← ensurePrimaryStoreExists_units hensure]
    rcases withdraws_or_exact hwithdraw with hfunc | ⟨-, rfl, htaken⟩
    · exact hfills.returned a amount l₁ fa l hfunc ⟨l', hadd⟩
    · rw [htaken.vault]
  have hin : units l (PictorConfig.vaultStore env P) + fa.amount.toNat ≤
      units l' (PictorConfig.vaultStore env P) := by
    rcases deposits_or_exact hadd with hfunc | ⟨-, hadded⟩
    · exact hfills.added a amount l₀ fa l l' htake hfunc
    · rw [hadded, if_pos rfl]
  exact hout.trans hin

/-- Out of the vault, and then into a wallet. -/
theorem SparesVault.moved (hspares : SparesVault env P) (hown : ReturnsOwn env P) {a : Address}
    {amount : UInt64} {l₀ l l' : Stores} {fa : FungibleAsset}
    (htake : DispatchableFungibleAsset.withdraw env l₀ env.configAddress
      (PictorConfig.vaultStore env P) amount = .ok (fa, l))
    (hadd : PrimaryFungibleStore.deposit env l a fa = .ok l') :
    units l₀ (PictorConfig.vaultStore env P) ≤
      units l' (PictorConfig.vaultStore env P) + amount.toNat := by
  have hout : fa.metadata = P ∧ units l₀ (PictorConfig.vaultStore env P) ≤
      units l (PictorConfig.vaultStore env P) + amount.toNat := by
    rcases withdraws_or_exact htake with hfunc | ⟨-, rfl, htaken⟩
    · exact ⟨hown _ amount l₀ fa l rfl hfunc, hspares.taken a amount l₀ fa l hfunc ⟨l', hadd⟩⟩
    · have hvault := htaken (PictorConfig.vaultStore env P)
      rw [if_pos rfl] at hvault
      exact ⟨rfl, hvault.ge⟩
  obtain ⟨rfl, hout⟩ := hout
  have hin : units l (PictorConfig.vaultStore env fa.metadata) ≤
      units l' (PictorConfig.vaultStore env fa.metadata) := by
    simp only [PrimaryFungibleStore.deposit, Checked.bind_eq_ok] at hadd
    obtain ⟨l₁, hensure, hadd⟩ := hadd
    rw [← ensurePrimaryStoreExists_units hensure]
    rcases deposits_or_exact hadd with hfunc | ⟨-, hadded⟩
    · exact hspares.spared a amount l₀ fa l l₁ l' htake hensure hfunc
    · rw [hadded, if_neg vaultStore_ne_primaryStore]
      exact Nat.le_refl _
  exact hout.trans (Nat.add_le_add_right hin _)

theorem depositBacked_of_fillsVault (hfills : FillsVault env P) (hw : Reachable env P w)
    (a : Address) (amount : UInt64) : DepositBacked env P a amount w := by
  obtain ⟨treasury, hc⟩ := hw.configured
  intro token w' h
  have hcredit := credit_of_deposit h
  obtain rfl := hc.token_eq h (.inl rfl)
  obtain ⟨-, c, s, fa, l, l', -, hs, htake, hadd, rfl⟩ := deposit_eq_ok.mp h
  obtain ⟨-, rfl⟩ := hc.vault_lookup.mp hs
  have hfull := hfills.moved htake hadd
  rw [hcredit]
  simp only [World.vaultUnits]
  omega

theorem withdrawBacked_of_sparesVault (hspares : SparesVault env P) (hown : ReturnsOwn env P)
    (hw : Reachable env P w) (a : Address) (amount : UInt64) :
    WithdrawBacked env P a amount w := by
  obtain ⟨treasury, hc⟩ := hw.configured
  intro token w' h
  have hbalance := balance_of_withdraw h
  obtain rfl := hc.token_eq h (.inr (.inl rfl))
  obtain ⟨info, b, s, fa, l, l', -, -, hs, htake, hadd, rfl⟩ := withdraw_eq_ok.mp h
  obtain ⟨-, rfl⟩ := hc.vault_lookup.mp hs
  have hmore := hspares.moved hown htake hadd
  rw [← hbalance]
  simp only [World.vaultUnits]
  omega

/-! ## Any stores, with any balance, are reached

A user who owns the worker of her own job earns one unit each time an operator settles it. Outside
actions then see to the stores. -/

def oneOperator (env : Env) (P : Token) (g : GlobalData) : World :=
  ⟨some { initialConfig env P env.deployer [] with operators := [env.deployer] }, some g,
    Finmap.insert (PictorConfig.vaultStore env P) ⟨0, false⟩ ∅⟩

def ownWorker (a : Address) (info : UserInfo) : GlobalData :=
  ⟨Finmap.insert "worker" a ∅, Finmap.insert a info ∅, ∅⟩

/-- The share of its one task is a unit. -/
def unitJob (isCompleted : Bool) : Job := ⟨[⟨1, "worker", 2, 1⟩], 2, isCompleted⟩

def earner (env : Env) (P : Token) (a : Address) (balance : UInt64) (isCompleted : Bool) : World :=
  oneOperator env P (ownWorker a ⟨balance, 0, Finmap.insert "job" (unitJob isCompleted) ∅⟩)

section Reached

open PictorNetwork PictorConfig

variable (env P) (a : Address)

theorem oneOperator_reachable : Reachable env P (oneOperator env P initialGlobal) := by
  have hw : Reachable env P (initialWorld env ∅ P env.deployer []) :=
    ⟨env.deployer, [], _, [], justInitialised_iff.mpr ⟨∅, rfl, rfl⟩, rfl⟩
  have h : exec env (initialWorld env ∅ P env.deployer [])
      (.txn env.deployer (.addOperator env.deployer)) = .ok (oneOperator env P initialGlobal) := by
    simp [exec, execCall, addOperator, initialWorld, initialConfig, oneOperator]
  exact hw.step h

theorem ownWorker_reachable : Reachable env P (oneOperator env P (ownWorker a newUser)) := by
  have h : exec env (oneOperator env P initialGlobal) (.txn a (.registerWorker "worker")) =
      .ok (oneOperator env P (ownWorker a newUser)) := by
    simp [exec, execCall, registerWorker, registerWorkerInternal, registerUserInternal, oneOperator,
      initialGlobal, ownWorker, globalData, withGlobal, PictorNetwork.isInitialized, Table.contains]
  exact (oneOperator_reachable env P).step h

theorem creditedUser_reachable :
    Reachable env P (oneOperator env P (ownWorker a { newUser with credit := 2 })) := by
  have h : exec env (oneOperator env P (ownWorker a newUser))
      (.txn env.deployer (.opCreditUser a 2)) =
      .ok (oneOperator env P (ownWorker a { newUser with credit := 2 })) := by
    simp [exec, execCall, opCreditUser, registerUserInternal, oneOperator, ownWorker, globalData,
      withGlobal, Table.contains, newUser, userInfo, withUserInfo, assertIsOperator_eq_ok,
      World.operators]
    exact ⟨2, rfl, rfl⟩
  exact (ownWorker_reachable env P a).step h

theorem employer_reachable :
    Reachable env P (oneOperator env P (ownWorker a ⟨0, 2, Finmap.insert "job" newJob ∅⟩)) := by
  have h : exec env (oneOperator env P (ownWorker a { newUser with credit := 2 }))
      (.txn env.deployer (.opCreateJob a "job")) =
      .ok (oneOperator env P (ownWorker a ⟨0, 2, Finmap.insert "job" newJob ∅⟩)) := by
    simp [exec, execCall, opCreateJob, registerUserInternal, oneOperator, ownWorker, globalData,
      withGlobal, Table.contains, newUser, userInfo, withUserInfo, assertIsOperator_eq_ok,
      World.operators]
  exact (creditedUser_reachable env P a).step h

theorem earner_reachable_zero : Reachable env P (earner env P a 0 false) := by
  have h : exec env (oneOperator env P (ownWorker a ⟨0, 2, Finmap.insert "job" newJob ∅⟩))
      (.txn env.deployer (.opAddTask a "job" 1 "worker" 2 1)) = .ok (earner env P a 0 false) := by
    simp [exec, execCall, opAddTask, earner, unitJob, oneOperator, ownWorker, globalData,
      withGlobal, assertJobCreated, Table.contains, userInfo, withUserInfo,
      assertIsOperator_eq_ok, World.operators, deduct, newJob]
    exact ⟨2, rfl, Nat.le_refl 2, 0, rfl, 2, rfl, rfl⟩
  exact (employer_reachable env P a).step h

/-- One more settlement. -/
theorem earner_settled {b b' : UInt64} (hb : b'.toNat = b.toNat + 1) (isCompleted : Bool) :
    exec env (earner env P a b isCompleted) (.txn env.deployer (.opCompleteJob a "job")) =
      .ok (earner env P a b' true) := by
  simp [exec, execCall, opCompleteJob, earner, unitJob, oneOperator, ownWorker, globalData,
    withGlobal, assertJobCreated, Table.contains, userInfo, assertIsOperator_eq_ok,
    World.operators, payLoop, getWorkerEarningPercentage_eq_ok, initialConfig, getDenominator,
    DENOMINATOR, MoveVector.borrow]
  exact ⟨12000, rfl, 1, rfl, b', hb, rfl⟩

theorem earner_reachable (n : ℕ) (hn : n < 2 ^ 64) :
    ∃ b isCompleted, b.toNat = n ∧ Reachable env P (earner env P a b isCompleted) := by
  induction n with
  | zero => exact ⟨0, false, rfl, earner_reachable_zero env P a⟩
  | succ n ih =>
    obtain ⟨b, isCompleted, hb, hw⟩ := ih (by omega)
    obtain ⟨b', hb'⟩ := Checked.exists_toNat_eq.mpr hn
    exact ⟨b', true, hb', hw.step (earner_settled env P a (by omega) isCompleted)⟩

theorem exists_reachable (l : Stores) (amount : UInt64) :
    ∃ w, Reachable env P w ∧ w.stores = l ∧ w.registered a ∧ w.credit a = 0 ∧
      w.balance a = amount.toNat := by
  obtain ⟨b, isCompleted, hb, hw⟩ := earner_reachable env P a amount.toNat amount.toNat_lt
  obtain ⟨treasury, hc⟩ := hw.configured
  -- the vault is empty so far, and loses nothing
  have hkept : (earner env P a b isCompleted).VaultKept l := by
    intro e he
    obtain ⟨-, hs⟩ := hc.vault_lookup.mp (Finmap.mem_lookup_iff.mpr he)
    rw [hs]
    exact ((units_insert _ _ _ _).trans (if_pos rfl)).trans_le (Nat.zero_le _)
  have h : exec env (earner env P a b isCompleted) (.outside l) =
      .ok { earner env P a b isCompleted with stores := l } := if_pos hkept
  have hinfo : ({ earner env P a b isCompleted with stores := l } : World).users.lookup a =
      some ⟨b, 0, Finmap.insert "job" (unitJob isCompleted) ∅⟩ := by
    simp [earner, oneOperator, ownWorker, World.users]
  exact ⟨_, hw.step h, rfl, World.registered_iff.mpr ⟨_, hinfo⟩, Users.credit_of_lookup hinfo,
    (Users.balance_of_lookup hinfo).trans hb⟩

end Reached

/-! ## Where everything is backed, the conditions hold

With two functions, one may make up for the other. With one at most, no state hides what it does
wrong. -/

/-- Every deposit by anyone is backed, in every state that can be reached. -/
def DepositsBacked (env : Env) (P : Token) : Prop :=
  ∀ w a amount, Reachable env P w → DepositBacked env P a amount w

def WithdrawalsBacked (env : Env) (P : Token) : Prop :=
  ∀ w a amount, Reachable env P w → WithdrawBacked env P a amount w

/-- The token has registered one function or none. -/
def OneFunction (env : Env) (P : Token) : Prop :=
  (env.dispatch P).withdraw = none ∨ (env.dispatch P).deposit = none

section Necessary

variable {a : Address} {amount : UInt64} {l₀ l l' : Stores} {fa : FungibleAsset}

theorem ensurePrimaryStoreExists_of_usable {owner : Address} {metadata : Token}
    (h : Usable l (PrimaryFungibleStore.primaryStore owner metadata)) :
    PrimaryFungibleStore.ensurePrimaryStoreExists env l owner metadata = .ok l := by
  obtain ⟨v, hv, -⟩ := h
  exact if_pos (Table.contains_eq_true.mpr ⟨v, hv⟩)

/-- From whatever stores a deposit succeeds, some user makes it. -/
theorem DepositsBacked.moved (hall : DepositsBacked env P)
    (htake : PrimaryFungibleStore.withdraw env l₀ a P amount = .ok (fa, l))
    (hadd : DispatchableFungibleAsset.deposit env l (PictorConfig.vaultStore env P) fa =
      .ok l') :
    units l₀ (PictorConfig.vaultStore env P) + amount.toNat ≤
      units l' (PictorConfig.vaultStore env P) := by
  obtain ⟨w, hw, rfl, -, hzero, -⟩ := exists_reachable env P a l₀ 0
  obtain ⟨treasury, hc⟩ := hw.configured
  have hcredit : amount.toNat = w.credit a + amount.toNat := by rw [hzero, Nat.zero_add]
  have hdeposit : exec env w (.txn a (.deposit amount P)) = .ok _ :=
    deposit_eq_ok.mpr ⟨hw.initialized, amount, _, fa, l, l', hcredit,
      hc.vault_lookup.mpr ⟨rfl, rfl⟩, htake, hadd, rfl⟩
  have hle := hall w a amount hw P _ hdeposit
  rw [credit_of_deposit hdeposit] at hle
  simp only [World.vaultUnits] at hle
  omega

/-- And so with a withdrawal. -/
theorem WithdrawalsBacked.moved (hall : WithdrawalsBacked env P)
    (htake : DispatchableFungibleAsset.withdraw env l₀ env.configAddress
      (PictorConfig.vaultStore env P) amount = .ok (fa, l))
    (hadd : PrimaryFungibleStore.deposit env l a fa = .ok l') :
    units l₀ (PictorConfig.vaultStore env P) ≤
      units l' (PictorConfig.vaultStore env P) + amount.toNat := by
  obtain ⟨w, hw, rfl, hu, -, hbalance⟩ := exists_reachable env P a l₀ amount
  obtain ⟨treasury, hc⟩ := hw.configured
  obtain ⟨info, hinfo⟩ := World.registered_iff.mp hu
  rw [World.balance, Users.balance_of_lookup hinfo] at hbalance
  have hrest : (0 : UInt64).toNat + amount.toNat = info.balance.toNat := by
    rw [hbalance]
    exact Nat.zero_add _
  have hwithdraw : exec env w (.txn a (.withdraw amount P)) = .ok _ :=
    withdraw_eq_ok.mpr ⟨info, 0, _, fa, l, l', hinfo, hrest, hc.vault_lookup.mpr ⟨rfl, rfl⟩,
      htake, hadd, rfl⟩
  have hle := hall w a amount hw P _ hwithdraw
  rw [← balance_of_withdraw hwithdraw] at hle
  simp only [World.vaultUnits] at hle
  omega

theorem OneFunction.not_both (hone : OneFunction env P) {s s' : Store} {l₁ l₁' : Stores}
    {fa' : FungibleAsset} (hs : s.metadata = P) (hs' : s'.metadata = P)
    (hwithdraws : Withdraws env s amount l fa l') (hdeposits : Deposits env s' fa' l₁ l₁') :
    False := by
  obtain ⟨func, hfunc, -⟩ := hwithdraws
  obtain ⟨func', hfunc', -⟩ := hdeposits
  rw [hs] at hfunc
  rw [hs'] at hfunc'
  rcases hone with hnone | hnone
  · cases hfunc.symm.trans hnone
  · cases hfunc'.symm.trans hnone

theorem fillsVault_of_depositsBacked (hone : OneFunction env P) (hall : DepositsBacked env P) :
    FillsVault env P where
  returned := by
    rintro a amount l fa l' hfunc ⟨l'', hadd⟩
    have hwithdraw : PrimaryFungibleStore.withdraw env l a P amount = .ok (fa, l') := by
      obtain ⟨-, -, -, husable, -⟩ := id hfunc
      rw [PrimaryFungibleStore.withdraw, ensurePrimaryStoreExists_of_usable husable]
      exact hfunc.eq_ok
    have hmoved := hall.moved hwithdraw hadd
    -- the withdraw function is the one, so the deposit is the framework's own
    rcases deposits_or_exact hadd with hfunc' | ⟨-, hadded⟩
    · exact (hone.not_both rfl rfl hfunc hfunc').elim
    · rwa [hadded, if_pos rfl] at hmoved
  added := by
    intro a amount l₀ fa l l' htake hfunc
    have hmoved := hall.moved htake hfunc.eq_ok
    simp only [PrimaryFungibleStore.withdraw, Checked.bind_eq_ok] at htake
    obtain ⟨l₁, hensure, htake⟩ := htake
    -- and here it is the other way round
    rcases withdraws_or_exact htake with hfunc' | ⟨-, rfl, htaken⟩
    · exact (hone.not_both rfl rfl hfunc' hfunc).elim
    · rwa [htaken.vault, ensurePrimaryStoreExists_units hensure]

theorem sparesVault_of_withdrawalsBacked (hone : OneFunction env P) (hown : ReturnsOwn env P)
    (hall : WithdrawalsBacked env P) : SparesVault env P where
  taken := by
    rintro a amount l fa l' hfunc ⟨l'', hadd⟩
    have hmoved := hall.moved hfunc.eq_ok hadd
    obtain rfl := hown _ amount l fa l' rfl hfunc
    simp only [PrimaryFungibleStore.deposit, Checked.bind_eq_ok] at hadd
    obtain ⟨l₁, hensure, hadd⟩ := hadd
    rcases deposits_or_exact hadd with hfunc' | ⟨-, hadded⟩
    · exact (hone.not_both rfl rfl hfunc hfunc').elim
    · rwa [hadded, if_neg vaultStore_ne_primaryStore, Nat.add_zero,
        ensurePrimaryStoreExists_units hensure] at hmoved
  spared := by
    intro a amount l₀ fa l₁ l l' htake hensure hfunc
    rcases withdraws_or_exact htake with hfunc' | ⟨-, rfl, htaken⟩
    · exact (hone.not_both rfl rfl hfunc' hfunc).elim
    · have hadd : PrimaryFungibleStore.deposit env l₁ a ⟨P, amount⟩ = .ok l' := by
        rw [PrimaryFungibleStore.deposit, hensure]
        exact hfunc.eq_ok
      have hmoved := hall.moved htake hadd
      have hvault := htaken (PictorConfig.vaultStore env P)
      rw [if_pos rfl] at hvault
      rw [ensurePrimaryStoreExists_units hensure]
      omega

end Necessary

/-! ## An exact token keeps the conditions -/

theorem fillsVault_of_exact (hx : MovesExact env P) : FillsVault env P where
  returned := by
    rintro a amount l fa l' ⟨func, hfunc, -, -, hrun, -⟩ -
    obtain ⟨rfl, htaken⟩ := hx.withdraw func hfunc _ _ _ _ _ rfl hrun
    rw [htaken.vault]
  added := by
    rintro a amount l₀ fa l l' htake ⟨func, hfunc, -, -, hrun⟩
    obtain ⟨rfl, -⟩ := primary_withdraw_exact hx htake
    exact (hx.deposit func hfunc _ _ _ _ rfl rfl hrun _).ge.trans' (by rw [if_pos rfl])

theorem sparesVault_of_exact (hx : MovesExact env P) : SparesVault env P where
  taken := by
    rintro a amount l fa l' ⟨func, hfunc, -, -, hrun, -⟩ -
    obtain ⟨-, htaken⟩ := hx.withdraw func hfunc _ _ _ _ _ rfl hrun
    have hvault := htaken (PictorConfig.vaultStore env P)
    rw [if_pos rfl] at hvault
    exact hvault.ge
  spared := by
    rintro a amount l₀ fa l₁ l l' htake - ⟨func, hfunc, -, -, hrun⟩
    obtain ⟨rfl, -⟩ := dispatchable_withdraw_exact hx rfl htake
    exact (hx.deposit func hfunc _ _ _ _ rfl rfl hrun _).ge.trans' (Nat.le_add_right _ _)

/-! ## A burn and a fee -/

/-- The withdraw function of the framework's `deflation_token`: 10% of the amount is burned from the
store, and then the amount is withdrawn. -/
def deflationWithdraw (l : Stores) (s : Store) (amount : UInt64) :
    Result (FungibleAsset × Stores) := do
  let burnAmount ← U64.div amount 10
  if 0 < burnAmount then
    let (_, l) ← FungibleAsset.withdrawInternal l s burnAmount
    FungibleAsset.withdrawInternal l s amount
  else
    FungibleAsset.withdrawInternal l s amount

/-- A deposit function that keeps 10% as a fee. -/
def feeDeposit (l : Stores) (s : Store) (fa : FungibleAsset) : Result Stores := do
  let fee ← U64.div fa.amount 10
  let amount ← U64.sub fa.amount fee
  FungibleAsset.depositInternal l s { fa with amount }

def deflationEnv : Env := { testEnv with dispatch := fun _ => ⟨some deflationWithdraw, none⟩ }

def feeEnv : Env := { testEnv with dispatch := fun _ => ⟨none, some feeDeposit⟩ }

/-- Besides what is burned, the amount is taken and returned. -/
theorem deflationWithdraw_eq_ok {l l' : Stores} {s : Store} {amount : UInt64} {fa : FungibleAsset}
    (h : deflationWithdraw l s amount = .ok (fa, l')) :
    fa = ⟨s.metadata, amount⟩ ∧ ∀ t, t ≠ s → units l' t = units l t := by
  simp only [deflationWithdraw, Checked.bind_eq_ok] at h
  obtain ⟨burnAmount, -, h⟩ := h
  split at h
  · simp only [Checked.bind_eq_ok] at h
    obtain ⟨⟨burned, l₁⟩, hburn, h⟩ := h
    obtain ⟨-, hburned⟩ := withdrawInternal_exact hburn
    obtain ⟨hfa, htaken⟩ := withdrawInternal_exact h
    refine ⟨hfa, fun t ht => ?_⟩
    have h₁ := hburned t
    have h₂ := htaken t
    rw [if_neg ht] at h₁ h₂
    exact h₂.trans h₁
  · obtain ⟨hfa, htaken⟩ := withdrawInternal_exact h
    refine ⟨hfa, fun t ht => ?_⟩
    have h₁ := htaken t
    rwa [if_neg ht] at h₁

theorem deflationEnv_returnsOwn : ReturnsOwn deflationEnv usdt := by
  rintro s amount l fa l' hs ⟨func, hfunc, -, -, hrun, -⟩
  cases hfunc
  rw [(deflationWithdraw_eq_ok hrun).1]
  exact hs

/-- It is the withdrawals that are not backed. -/
theorem deflationEnv_fillsVault : FillsVault deflationEnv usdt where
  returned := by
    rintro a amount l fa l' ⟨func, hfunc, -, -, hrun, -⟩ -
    cases hfunc
    obtain ⟨rfl, hothers⟩ := deflationWithdraw_eq_ok hrun
    rw [hothers _ vaultStore_ne_primaryStore]
  added := by
    rintro a amount l₀ fa l l' - ⟨func, hfunc, -⟩
    cases hfunc

theorem otherToken_justInitialised (dispatch : Token → DispatchFunctions) :
    JustInitialised { testEnv with dispatch } usdt 0xcafe testAdminPubkey testWorld :=
  have hfresh : testStores.lookup (PictorConfig.vaultStore testEnv usdt) = none := by decide
  justInitialised_iff.mpr ⟨testStores, hfresh, rfl⟩

/-- **Neither is backed for every token**: with a fee on deposits, 100 of credit are covered by 90;
with a burn on withdrawals, a withdrawal of 50 costs the vault 55. -/
theorem backing_depends_on_token :
    Reachable feeEnv usdt testWorld ∧
    Reachable deflationEnv usdt (run deflationEnv testWorld (settlement.take 6)) ∧
    (run feeEnv testWorld [.txn 0xdead (.deposit 100 usdt)]).credit 0xdead = 100 ∧
    (run feeEnv testWorld [.txn 0xdead (.deposit 100 usdt)]).vaultUnits feeEnv usdt = 90 ∧
    ¬ DepositBacked feeEnv usdt 0xdead 100 testWorld ∧
    (run deflationEnv testWorld (settlement.take 6)).vaultUnits deflationEnv usdt = 100 ∧
    (run deflationEnv testWorld (settlement.take 6)).balance 0xdead = 60 ∧
    (run deflationEnv testWorld settlement).vaultUnits deflationEnv usdt = 45 ∧
    (run deflationEnv testWorld settlement).balance 0xdead = 10 ∧
    ¬ WithdrawBacked deflationEnv usdt 0xdead 50
      (run deflationEnv testWorld (settlement.take 6)) := by
  refine ⟨⟨0xcafe, testAdminPubkey, testWorld, [], otherToken_justInitialised _, rfl⟩,
    ⟨0xcafe, testAdminPubkey, testWorld, settlement.take 6, otherToken_justInitialised _, rfl⟩,
    by decide, by decide, ?_, by decide, by decide, by decide, by decide, ?_⟩
  · intro hbacked
    have hle := hbacked usdt (run feeEnv testWorld [.txn 0xdead (.deposit 100 usdt)]) (by decide)
    exact absurd hle (by decide)
  · intro hbacked
    have hle := hbacked usdt (run deflationEnv testWorld settlement) (by decide)
    exact absurd hle (by decide)

/-! ## The condition -/

/-- **When deposits and withdrawals are backed.** Whatever functions the token has registered, if
they fill the vault and spare it; and if it has registered one at most, then only if. -/
theorem backed_by_functions (hown : ReturnsOwn env P) :
    (FillsVault env P → DepositsBacked env P) ∧ (SparesVault env P → WithdrawalsBacked env P) ∧
    (OneFunction env P → (DepositsBacked env P ↔ FillsVault env P) ∧
      (WithdrawalsBacked env P ↔ SparesVault env P)) ∧
    (MovesExact env P → FillsVault env P ∧ SparesVault env P) := by
  have hdeposits : FillsVault env P → DepositsBacked env P :=
    fun hfills w a amount hw => depositBacked_of_fillsVault hfills hw a amount
  have hwithdrawals : SparesVault env P → WithdrawalsBacked env P :=
    fun hspares w a amount hw => withdrawBacked_of_sparesVault hspares hown hw a amount
  refine ⟨hdeposits, hwithdrawals, fun hone => ⟨⟨?_, hdeposits⟩, ⟨?_, hwithdrawals⟩⟩, fun hx => ?_⟩
  · exact fillsVault_of_depositsBacked hone
  · exact sparesVault_of_withdrawalsBacked hone hown
  · exact ⟨fillsVault_of_exact hx, sparesVault_of_exact hx⟩

theorem backed_by_functions_test : DepositsBacked deflationEnv usdt :=
  (backed_by_functions deflationEnv_returnsOwn).1 deflationEnv_fillsVault

end Pictor
