import Pictor.Effect.Calls

/-!
# Where the tokens go

`Configured` is what initialisation fixes for good: the vault map has the one entry of the payment
token, and treasury and percentage never change. In a configured world, and for a payment token
that moves exact amounts, `exec_tokens` gives the balance of *every* store after a transaction: of
the vault, of any wallet, and of stores the contract never heard of.
-/

namespace Pictor

variable {env : Env} {P : Token} {treasury : Address} {w w' : World}

namespace World

/-- The units of `P` the vault store holds. -/
def vaultUnits (env : Env) (P : Token) (w : World) : ℕ :=
  units w.stores (PictorConfig.vaultStore env P)

/-- The units of `P` in the primary store of `x`. -/
def walletUnits (P : Token) (w : World) (x : Address) : ℕ :=
  units w.stores (PrimaryFungibleStore.primaryStore x P)

end World

/-! ## The fixed part of the configuration -/

def Configured (env : Env) (P : Token) (treasury : Address) (w : World) : Prop :=
  ∃ c, w.config = some c ∧ c.vault = Finmap.insert P (PictorConfig.vaultStore env P) ∅ ∧
    c.treasuryAddr = treasury ∧ c.workerEarningPercentage = 6000

namespace Configured

theorem vault_lookup (hc : Configured env P treasury w) {token : Token} {s : Store} :
    w.vault.lookup token = some s ↔ token = P ∧ s = PictorConfig.vaultStore env P := by
  obtain ⟨c, hcfg, hvault, -, -⟩ := hc
  have hw : w.vault = Finmap.insert P (PictorConfig.vaultStore env P) ∅ := by
    rw [World.vault, hcfg]
    exact hvault
  rw [hw, Table.lookup_insert_ite]
  split
  · next h => simp [h, eq_comm]
  · next h => simp [h]

theorem vault_keys (hc : Configured env P treasury w) : w.vault.keys = {P} := by
  ext token
  rw [Table.mem_keys_iff, Finset.mem_singleton]
  constructor
  · rintro ⟨s, hs⟩
    exact (hc.vault_lookup.mp hs).1
  · rintro rfl
    exact ⟨_, hc.vault_lookup.mpr ⟨rfl, rfl⟩⟩

/-- `vaultUnits` is what `get_vault_balance` reports, and it knows of no other token. -/
theorem getVaultBalance_eq_ok (hc : Configured env P treasury w) {token : Token} {b : UInt64} :
    PictorConfig.getVaultBalance w token = .ok b ↔ token = P ∧ b.toNat = w.vaultUnits env P := by
  simp only [PictorConfig.getVaultBalance, Checked.bind_eq_ok, PictorConfig.getVaultStore_eq_ok,
    hc.vault_lookup, Checked.pure_eq_ok, World.vaultUnits, units, UInt64.toNat_inj]
  constructor
  · rintro ⟨s, ⟨rfl, rfl⟩, rfl⟩
    exact ⟨rfl, rfl⟩
  · rintro ⟨rfl, rfl⟩
    exact ⟨_, ⟨rfl, rfl⟩, rfl⟩

theorem percentage (hc : Configured env P treasury w) : w.percentage = 6000 := by
  obtain ⟨c, hcfg, -, -, hp⟩ := hc
  rw [World.percentage, hcfg]
  show c.workerEarningPercentage.toNat = 6000
  rw [hp]
  rfl

theorem treasuryAddress (hc : Configured env P treasury w) {a : Address}
    (ha : PictorConfig.getTreasuryAddress w = .ok a) : a = treasury := by
  obtain ⟨c, hcfg, -, ht, -⟩ := hc
  obtain ⟨c', hcfg', rfl⟩ := PictorConfig.getTreasuryAddress_eq_ok.mp ha
  rw [hcfg, Option.some.injEq] at hcfg'
  rw [← hcfg', ht]

/-- The vault store is an entry of the vault map, so outsiders leave it its tokens. -/
theorem vaultKept (hc : Configured env P treasury w) {l' : Stores} (h : w.VaultKept l') :
    w.vaultUnits env P ≤ units l' (PictorConfig.vaultStore env P) := by
  have hmem : (⟨P, PictorConfig.vaultStore env P⟩ : (_ : Token) × Store) ∈ w.vault.entries :=
    Finmap.mem_lookup_iff.mp (hc.vault_lookup.mpr ⟨rfl, rfl⟩)
  exact h _ hmem

end Configured

theorem configured_preserved (env : Env) (P : Token) (treasury : Address) :
    Transactions.Preserved (exec env) (Configured env P treasury) := by
  rintro w act w' ⟨c, hc, hvault, ht, hp⟩ h
  have hconfig := (exec_effect h).config
  have haccepted := exec_accepted h
  rw [hc] at hconfig
  unfold configAfter at hconfig
  split at hconfig
  · -- a second initialisation is refused
    obtain ⟨-, hnone⟩ := haccepted
    rw [hc] at hnone
    cases hnone
  · exact ⟨_, hconfig, hvault, ht, hp⟩
  · exact ⟨_, hconfig, hvault, ht, hp⟩
  · exact ⟨_, hconfig, hvault, ht, hp⟩
  · exact ⟨_, hconfig, hvault, ht, hp⟩

theorem configured_initial {pk : List UInt8} (h : JustInitialised env P treasury pk w) :
    Configured env P treasury w := by
  obtain ⟨l, -, rfl⟩ := justInitialised_iff.mp h
  exact ⟨initialConfig env P treasury pk, rfl, rfl, rfl, rfl⟩

theorem configured_run {pk : List UInt8} (h : JustInitialised env P treasury pk w)
    (as : List Action) : Configured env P treasury (run env w as) :=
  Transactions.invariant (configured_preserved env P treasury) (configured_initial h) as

theorem Reachable.configured (hw : Reachable env P w) :
    ∃ treasury, Configured env P treasury w := by
  obtain ⟨treasury, pk, w₀, as, h₀, rfl⟩ := hw
  exact ⟨treasury, configured_run h₀ as⟩

theorem Reachable.percentage (hw : Reachable env P w) : w.percentage = 6000 := by
  obtain ⟨treasury, hc⟩ := hw.configured
  exact hc.percentage

theorem Reachable.percentage_pos (hw : Reachable env P w) : 0 < w.percentage := by
  rw [hw.percentage]
  decide

/-- No deposit, withdrawal or transfer to the treasury names another token. -/
theorem Configured.token_eq (hc : Configured env P treasury w) {a : Address} {call : Call}
    (h : exec env w (.txn a call) = .ok w') {amount : UInt64} {token : Token}
    (hcall : call = .deposit amount token ∨ call = .withdraw amount token ∨
      call = .withdrawToTreasury amount token) : token = P := by
  have haccepted := exec_accepted h
  rcases hcall with rfl | rfl | rfl
  · obtain ⟨s, hs⟩ := haccepted
    exact (hc.vault_lookup.mp hs).1
  · obtain ⟨-, s, hs⟩ := haccepted
    exact (hc.vault_lookup.mp hs).1
  · obtain ⟨-, s, hs⟩ := haccepted
    exact (hc.vault_lookup.mp hs).1

/-! ## Flows -/

/-- The units of `P` an action takes from the store `t`. -/
def tokensOut (env : Env) (P : Token) (t : Store) : Action → ℕ
  | .txn a (.deposit amount _) =>
    if t = PrimaryFungibleStore.primaryStore a P then amount.toNat else 0
  | .txn _ (.withdraw amount _) => if t = PictorConfig.vaultStore env P then amount.toNat else 0
  | .txn _ (.withdrawToTreasury amount _) =>
    if t = PictorConfig.vaultStore env P then amount.toNat else 0
  | _ => 0

/-- The units of `P` an action adds to the store `t`. -/
def tokensIn (env : Env) (P : Token) (treasury : Address) (t : Store) : Action → ℕ
  | .txn _ (.deposit amount _) => if t = PictorConfig.vaultStore env P then amount.toNat else 0
  | .txn a (.withdraw amount _) =>
    if t = PrimaryFungibleStore.primaryStore a P then amount.toNat else 0
  | .txn _ (.withdrawToTreasury amount _) =>
    if t = PrimaryFungibleStore.primaryStore treasury P then amount.toNat else 0
  | _ => 0

/-- What one movement takes from `s` and the next adds to `s'`. -/
theorem TakenFrom.then_added {l l₁ l' : Stores} {s s' : Store} {n : ℕ} (h : TakenFrom l l₁ s n)
    (h' : AddedTo l₁ l' s' n) (t : Store) :
    units l' t + (if t = s then n else 0) = units l t + (if t = s' then n else 0) := by
  have h₁ := h t
  have h₂ := h' t
  omega

section Exact

variable (hx : MovesExact env P) (hc : Configured env P treasury w)

include hx hc

theorem deposit_tokens {a : Address} {amount : UInt64} {token : Token}
    (h : exec env w (.txn a (.deposit amount token)) = .ok w') (t : Store) :
    units w'.stores t + tokensOut env P t (.txn a (.deposit amount token)) =
      units w.stores t + tokensIn env P treasury t (.txn a (.deposit amount token)) := by
  obtain rfl := hc.token_eq h (.inl rfl)
  obtain ⟨-, -, s, fa, l, l', -, hs, htake, hadd, rfl⟩ := deposit_eq_ok.mp h
  obtain ⟨-, rfl⟩ := hc.vault_lookup.mp hs
  obtain ⟨rfl, htaken⟩ := primary_withdraw_exact hx htake
  exact htaken.then_added (dispatchable_deposit_exact hx rfl rfl hadd) t

theorem withdraw_tokens {a : Address} {amount : UInt64} {token : Token}
    (h : exec env w (.txn a (.withdraw amount token)) = .ok w') (t : Store) :
    units w'.stores t + tokensOut env P t (.txn a (.withdraw amount token)) =
      units w.stores t + tokensIn env P treasury t (.txn a (.withdraw amount token)) := by
  obtain rfl := hc.token_eq h (.inr (.inl rfl))
  obtain ⟨-, -, s, fa, l, l', -, -, hs, htake, hadd, rfl⟩ := withdraw_eq_ok.mp h
  obtain ⟨-, rfl⟩ := hc.vault_lookup.mp hs
  obtain ⟨rfl, htaken⟩ := dispatchable_withdraw_exact hx rfl htake
  exact htaken.then_added (primary_deposit_exact hx hadd) t

theorem withdrawToTreasury_tokens {a : Address} {amount : UInt64} {token : Token}
    (h : exec env w (.txn a (.withdrawToTreasury amount token)) = .ok w') (t : Store) :
    units w'.stores t + tokensOut env P t (.txn a (.withdrawToTreasury amount token)) =
      units w.stores t + tokensIn env P treasury t (.txn a (.withdrawToTreasury amount token)) := by
  obtain rfl := hc.token_eq h (.inr (.inr rfl))
  obtain ⟨-, s, fa, l, dst, l', hs, htake, hdst, hadd, rfl⟩ := withdrawToTreasury_eq_ok h
  obtain ⟨-, rfl⟩ := hc.vault_lookup.mp hs
  obtain ⟨rfl, htaken⟩ := dispatchable_withdraw_exact hx rfl htake
  -- the treasury is read after the tokens have left, from an unchanged configuration
  obtain rfl := hc.treasuryAddress hdst
  exact htaken.then_added (primary_deposit_exact hx hadd) t

/-- **The flow law**: every store, after any transaction. -/
theorem exec_tokens {a : Address} {call : Call} (h : exec env w (.txn a call) = .ok w')
    (t : Store) :
    units w'.stores t + tokensOut env P t (.txn a call) =
      units w.stores t + tokensIn env P treasury t (.txn a call) := by
  have hstores := (exec_effect h).stores
  cases call with
  | deposit amount token => exact deposit_tokens hx hc h t
  | withdraw amount token => exact withdraw_tokens hx hc h t
  | withdrawToTreasury amount token => exact withdrawToTreasury_tokens hx hc h t
  | initializeConfig token treasury pk =>
    obtain ⟨-, hnone⟩ := exec_accepted h
    obtain ⟨c, hcfg, -⟩ := hc
    rw [hcfg] at hnone
    cases hnone
  | _ =>
    rw [hstores rfl]
    rfl

end Exact

/-! ## The vault -/

/-- What an outside action leaves in the vault store on top. -/
def gifts (env : Env) (P : Token) (w : World) : Action → ℕ
  | .outside l' => units l' (PictorConfig.vaultStore env P) - w.vaultUnits env P
  | _ => 0

theorem vaultStore_ne_primaryStore {env : Env} {P token : Token} {a : Address} :
    PictorConfig.vaultStore env P ≠ PrimaryFungibleStore.primaryStore a token := by
  intro h
  cases congrArg Store.kind h

/-- **The vault**, after any action. -/
theorem vault_step (hx : MovesExact env P) (hc : Configured env P treasury w) {act : Action}
    (h : exec env w act = .ok w') :
    w'.vaultUnits env P + (withdrawals w act + treasuryTransfers w act) =
      w.vaultUnits env P + (deposits w act + gifts env P w act) := by
  cases act with
  | outside l' =>
    have hkept := hc.vaultKept (exec_accepted h)
    simp only [exec] at h
    split at h
    · cases h
      simp only [withdrawals, treasuryTransfers, deposits, gifts, Nat.add_zero, Nat.zero_add]
      exact (Nat.add_sub_cancel' hkept).symm
    · cases h
  | txn a call =>
    have hflow := exec_tokens hx hc h (PictorConfig.vaultStore env P)
    simp only [World.vaultUnits]
    cases call with
    | deposit amount token =>
      simp only [tokensOut, tokensIn, if_neg vaultStore_ne_primaryStore, if_true] at hflow
      exact hflow
    | withdraw amount token =>
      simp only [tokensOut, tokensIn, if_neg vaultStore_ne_primaryStore, if_true] at hflow
      exact hflow
    | withdrawToTreasury amount token =>
      simp only [tokensOut, tokensIn, if_neg vaultStore_ne_primaryStore, if_true] at hflow
      simp only [withdrawals, treasuryTransfers, deposits, gifts, Nat.zero_add]
      exact hflow
    | _ => exact hflow

theorem vaultUnits_initial {pk : List UInt8} (h : JustInitialised env P treasury pk w) :
    w.vaultUnits env P = 0 := by
  obtain ⟨l, -, rfl⟩ := justInitialised_iff.mp h
  exact (units_insert _ _ _ _).trans (if_pos rfl)

/-- **The vault**, after any run. -/
theorem vault_run (hx : MovesExact env P) {pk : List UInt8}
    (h₀ : JustInitialised env P treasury pk w) (as : List Action) :
    (run env w as).vaultUnits env P + total withdrawals (history env w as) +
        total treasuryTransfers (history env w as) =
      total deposits (history env w as) + total (gifts env P) (history env w as) := by
  have hlaw : (run env w as).vaultUnits env P +
      total (fun w act => withdrawals w act + treasuryTransfers w act) (history env w as) =
      w.vaultUnits env P +
        total (fun w act => deposits w act + gifts env P w act) (history env w as) :=
    Transactions.conserved (configured_preserved env P treasury)
      (fun _ _ _ hc h => vault_step hx hc h) (configured_initial h₀) as
  rw [vaultUnits_initial h₀, Transactions.total_add, Transactions.total_add] at hlaw
  omega

end Pictor
