import Pictor.Property.Ledger

/-!
# Custody of the tokens

The user ledger, the vault store and the wallets are three separate stores, and a call that moves
tokens writes the ledger before the framework may still refuse. Here they are tied together: what
the vault holds, where its tokens go, and what each user has taken out against her balance.
-/

namespace Pictor

variable {env : Env} {P : Token} {treasury : Address} {pk : List UInt8} {w w' : World}

/-- The calls that move a token, with the token they name. -/
def movedToken : Call → Option Token
  | .deposit _ token => some token
  | .withdraw _ token => some token
  | .withdrawToTreasury _ token => some token
  | _ => none

/-- What `x` gains in her wallet by a withdrawal. -/
def received (env : Env) (P : Token) (x : Address) (w : World) : Action → ℕ
  | .txn a (.withdraw amount token) =>
    if a = x then
      (next env w (.txn a (.withdraw amount token))).walletUnits P x - w.walletUnits P x
    else 0
  | _ => 0

/-- What `x` loses of her recorded balance by a withdrawal. -/
def givenUp (env : Env) (x : Address) (w : World) : Action → ℕ
  | .txn a (.withdraw amount token) =>
    if a = x then w.balance x - (next env w (.txn a (.withdraw amount token))).balance x else 0
  | _ => 0

/-- `w'` is `w` with `n` units of `P` moved from the vault to the wallet of `x`, and no other store
changed. -/
structure PaidOut (env : Env) (P : Token) (x : Address) (n : ℕ) (w w' : World) : Prop where
  vault : w'.vaultUnits env P + n = w.vaultUnits env P
  wallet : w'.walletUnits P x = w.walletUnits P x + n
  others : ∀ t, t ≠ PictorConfig.vaultStore env P → t ≠ PrimaryFungibleStore.primaryStore x P →
    units w'.stores t = units w.stores t

/-! ## One step -/

/-- A flow from the vault to the wallet of `x`. -/
theorem PaidOut.of_flow {x : Address} {n : ℕ}
    (h : ∀ t, units w'.stores t + (if t = PictorConfig.vaultStore env P then n else 0) =
      units w.stores t + (if t = PrimaryFungibleStore.primaryStore x P then n else 0)) :
    PaidOut env P x n w w' where
  vault := by
    have hvault := h (PictorConfig.vaultStore env P)
    rw [if_pos rfl, if_neg vaultStore_ne_primaryStore] at hvault
    exact hvault
  wallet := by
    have hwallet := h (PrimaryFungibleStore.primaryStore x P)
    rw [if_neg vaultStore_ne_primaryStore.symm, if_pos rfl] at hwallet
    exact hwallet
  others := by
    intro t hv hw
    have ht := h t
    rw [if_neg hv, if_neg hw] at ht
    exact ht

section Step

variable (hx : MovesExact env P) (hc : Configured env P treasury w)

include hx hc

theorem withdraw_paidOut {a : Address} {amount : UInt64} {token : Token}
    (h : exec env w (.txn a (.withdraw amount token)) = .ok w') :
    PaidOut env P a amount.toNat w w' :=
  PaidOut.of_flow (exec_tokens hx hc h)

theorem withdrawToTreasury_paidOut {a : Address} {amount : UInt64} {token : Token}
    (h : exec env w (.txn a (.withdrawToTreasury amount token)) = .ok w') :
    PaidOut env P treasury amount.toNat w w' :=
  PaidOut.of_flow (exec_tokens hx hc h)

/-- **Only two calls pay out**: if the vault loses tokens, they went to the caller of `withdraw` or
to the treasury. -/
theorem paidOut_of_vault_falls {act : Action} (h : exec env w act = .ok w')
    (hfalls : w'.vaultUnits env P < w.vaultUnits env P) :
    (∃ a amount, act = .txn a (.withdraw amount P) ∧ PaidOut env P a amount.toNat w w') ∨
    ∃ a amount, act = .txn a (.withdrawToTreasury amount P) ∧
      PaidOut env P treasury amount.toNat w w' := by
  have hvault := vault_step hx hc h
  cases act with
  | outside l' =>
    simp only [withdrawals, treasuryTransfers] at hvault
    omega
  | txn a call =>
    cases call with
    | withdraw amount token =>
      obtain rfl := hc.token_eq h (.inr (.inl rfl))
      exact .inl ⟨a, amount, rfl, withdraw_paidOut hx hc h⟩
    | withdrawToTreasury amount token =>
      obtain rfl := hc.token_eq h (.inr (.inr rfl))
      exact .inr ⟨a, amount, rfl, withdrawToTreasury_paidOut hx hc h⟩
    | _ =>
      simp only [withdrawals, treasuryTransfers] at hvault
      omega

/-- What is received by a withdrawal, and what is given up for it, are the amount it names. -/
theorem received_eq {act : Action} (h : exec env w act = .ok w') (x : Address) :
    received env P x w act = withdrawn x w act ∧ givenUp env x w act = withdrawn x w act := by
  have hnext : next env w act = w' := Transactions.next_of_ok h
  cases act with
  | outside l' => exact ⟨rfl, rfl⟩
  | txn a call =>
    cases call with
    | withdraw amount token =>
      by_cases ha : a = x
      · subst ha
        have hpaid := withdraw_paidOut hx hc h
        have hbalance := balance_of_withdraw h
        simp only [received, givenUp, withdrawn, if_true, hnext]
        refine ⟨?_, ?_⟩
        · rw [hpaid.wallet, Nat.add_sub_cancel_left]
        · omega
      · simp only [received, givenUp, withdrawn, if_neg ha]
        exact ⟨trivial, trivial⟩
    | _ => exact ⟨rfl, rfl⟩

end Step

/-- A call that names a token the vault does not support aborts, and everything is as before. -/
theorem other_token_aborts (hc : Configured env P treasury w) {a : Address} {call : Call}
    {token : Token} (hcall : movedToken call = some token) (ht : token ≠ P) :
    (∃ e, exec env w (.txn a call) = .error e) ∧ next env w (.txn a call) = w := by
  have herr : ∃ e, exec env w (.txn a call) = .error e := by
    apply Checked.exists_error_of_not_ok
    intro w' h
    unfold movedToken at hcall
    split at hcall
    · exact ht ((Option.some.inj hcall) ▸ hc.token_eq h (.inl rfl))
    · exact ht ((Option.some.inj hcall) ▸ hc.token_eq h (.inr (.inl rfl)))
    · exact ht ((Option.some.inj hcall) ▸ hc.token_eq h (.inr (.inr rfl)))
    · cases hcall
  obtain ⟨e, he⟩ := herr
  exact ⟨⟨e, he⟩, Transactions.next_of_error he⟩

/-! ## Over a run -/

/-- **Vault custody**, after any run. -/
theorem vault_custody (hx : MovesExact env P) {w₀ : World}
    (h₀ : JustInitialised env P treasury pk w₀) (as : List Action) :
    (run env w₀ as).vault.keys = {P} ∧
    ((run env w₀ as).vaultUnits env P + total withdrawals (history env w₀ as) +
        total treasuryTransfers (history env w₀ as) =
      total deposits (history env w₀ as) + total (gifts env P) (history env w₀ as)) ∧
    (∀ a call token, movedToken call = some token → token ≠ P →
      (∃ e, exec env (run env w₀ as) (.txn a call) = .error e) ∧
        next env (run env w₀ as) (.txn a call) = run env w₀ as) ∧
    (∀ e ∈ history env w₀ as, e.post.vaultUnits env P < e.pre.vaultUnits env P →
      (∃ a amount, e.act = .txn a (.withdraw amount P) ∧
        PaidOut env P a amount.toNat e.pre e.post) ∨
      ∃ a amount, e.act = .txn a (.withdrawToTreasury amount P) ∧
        PaidOut env P treasury amount.toNat e.pre e.post) ∧
    ∀ x, total (received env P x) (history env w₀ as) =
        total (givenUp env x) (history env w₀ as) ∧
      total (received env P x) (history env w₀ as) ≤ total (paid x) (history env w₀ as) := by
  have hc := configured_run h₀ as
  have hpre : ∀ e ∈ history env w₀ as, Configured env P treasury e.pre := fun e he =>
    Transactions.invariant_pre (configured_preserved env P treasury) (configured_initial h₀) he
  refine ⟨hc.vault_keys, vault_run hx h₀ as, fun a call token => other_token_aborts hc, ?_, ?_⟩
  · intro e he hfalls
    exact paidOut_of_vault_falls hx (hpre e he) (exec_of_mem_history he) hfalls
  · intro x
    have hreceived : total (received env P x) (history env w₀ as) =
        total (withdrawn x) (history env w₀ as) :=
      Transactions.total_congr fun e he =>
        (received_eq hx (hpre e he) (exec_of_mem_history he) x).1
    have hgiven : total (givenUp env x) (history env w₀ as) =
        total (withdrawn x) (history env w₀ as) :=
      Transactions.total_congr fun e he =>
        (received_eq hx (hpre e he) (exec_of_mem_history he) x).2
    have hbalance := balance_run h₀ as x
    exact ⟨hreceived.trans hgiven.symm, by omega⟩

theorem vault_custody_test :
    total (received testEnv usdt 0xdead) (history testEnv testWorld settlement) ≤
      total (paid 0xdead) (history testEnv testWorld settlement) :=
  ((vault_custody testEnv_movesExact testWorld_justInitialised settlement).2.2.2.2 0xdead).2

end Pictor
