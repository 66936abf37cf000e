import Pictor.Property.Registry
import Pictor.Effect.Tokens

/-!
# What a caller can do without being an operator

Every entry function is open to any signer. `AuthorityFrame` bounds what a call by a signer who is
not an operator can change, whatever function she calls and whatever she passes: her own account,
within limits, and the registries under her own name.
-/

namespace Pictor

variable {env : Env} {P : Token} {treasury : Address} {w w' : World} {a : Address} {call : Call}

structure AuthorityFrame (env : Env) (P : Token) (a : Address) (call : Call) (w w' : World) :
    Prop where
  others : ∀ u, u ≠ a → (w'.registered u ↔ w.registered u) ∧ w'.balance u = w.balance u ∧
    w'.credit u = w.credit u ∧ ∀ j, w'.job u j = w.job u j
  jobs : ∀ j, w'.job a j = w.job a j
  balance : w'.balance a ≤ w.balance a
  /-- Credit grows by a deposit that reaches the vault, or by a claim the admin has signed. -/
  credit : w.credit a < w'.credit a →
    (∃ amount, call = .deposit amount P ∧ w'.credit a = w.credit a + amount.toNat ∧
      w'.vaultUnits env P = w.vaultUnits env P + amount.toNat) ∨
    (∃ amount r signature, call = .claimCredit amount r signature ∧
      w'.credit a = w.credit a + amount.toNat ∧ w.creditRequest r = none ∧
      env.signatureVerifyStrict signature w.adminPubkey (claimMessage amount r a) = true)
  workers : ∀ id o, w.workerOwner id = some o → w'.workerOwner id = some o
  newWorkers : ∀ id o, w.workerOwner id = none → w'.workerOwner id = some o → o = a
  creditRequests : ∀ r c, w.creditRequest r = some c → w'.creditRequest r = some c
  newCreditRequests : ∀ r c, w.creditRequest r = none → w'.creditRequest r = some c →
    c.userAddr = a
  /-- Tokens leave the vault only against the caller's balance. -/
  vault : w'.vaultUnits env P < w.vaultUnits env P →
    ∃ n, w'.vaultUnits env P + n = w.vaultUnits env P ∧ w'.balance a + n = w.balance a
  config : a ≠ env.deployer → w'.config = w.config

/-- An aborted call changes nothing. -/
theorem AuthorityFrame.refl (env : Env) (P : Token) (a : Address) (call : Call) (w : World) :
    AuthorityFrame env P a call w w where
  others := fun _ _ => ⟨Iff.rfl, rfl, rfl, fun _ => rfl⟩
  jobs := fun _ => rfl
  balance := Nat.le_refl _
  credit := fun h => absurd h (Nat.lt_irrefl _)
  workers := fun _ _ h => h
  newWorkers := by
    intro id o hnone ho
    rw [hnone] at ho
    cases ho
  creditRequests := fun _ _ h => h
  newCreditRequests := by
    intro r c hnone hc
    rw [hnone] at hc
    cases hc
  vault := fun h => absurd h (Nat.lt_irrefl _)
  config := fun _ => rfl

/-! ## The calls that are left -/

/-- **Every `op_` function is guarded**: what another signer gets accepted names nobody but herself,
touches no job and pays nobody. -/
theorem subject_of_not_operator (ha : a ∉ w.operators) (h : Accepted env w (.txn a call)) :
    (∀ u, subject (.txn a call) = some u → u = a) ∧ targetJob (.txn a call) = none ∧
      ∀ u, balanceIn u w (.txn a call) = 0 := by
  cases call with
  | opRegisterWorker | opCreditUser => exact absurd h ha
  | withdrawToTreasury | opCreateJob | opAddTask | opCompleteJob | opDebitUser =>
    exact absurd h.1 ha
  | initializeConfig | setAdminPubkey | addOperator | removeOperator | initializeNetwork =>
    refine ⟨?_, rfl, fun _ => rfl⟩
    intro u hu
    cases hu
  | registerUser | registerWorker | deposit | withdraw | claimCredit =>
    exact ⟨fun u hu => (Option.some.inj hu).symm, rfl, fun _ => rfl⟩

theorem config_of_not_deployer (ha : a ≠ env.deployer) (h : exec env w (.txn a call) = .ok w') :
    w'.config = w.config := by
  have haccepted := exec_accepted h
  rw [(exec_effect h).config]
  cases call with
  | initializeConfig => exact absurd haccepted.1 ha
  | setAdminPubkey | addOperator | removeOperator => exact absurd haccepted ha
  | _ => rfl

/-- Without a settlement, nobody's balance grows. -/
theorem balance_le_of_not_paid {act : Action} (h : exec env w act = .ok w') {u : Address}
    (hpaid : balanceIn u w act = 0) : w'.balance u ≤ w.balance u := by
  have hbalance := (exec_effect h).balance u
  omega

section Own

variable (hx : MovesExact env P) (hc : Configured env P treasury w) (ha : a ∉ w.operators)
  (h : exec env w (.txn a call) = .ok w')

include hx hc ha h

/-- **Where the caller's credit comes from.** -/
theorem credit_source (hgrows : w.credit a < w'.credit a) :
    (∃ amount, call = .deposit amount P ∧ w'.credit a = w.credit a + amount.toNat ∧
      w'.vaultUnits env P = w.vaultUnits env P + amount.toNat) ∨
    (∃ amount r signature, call = .claimCredit amount r signature ∧
      w'.credit a = w.credit a + amount.toNat ∧ w.creditRequest r = none ∧
      env.signatureVerifyStrict signature w.adminPubkey (claimMessage amount r a) = true) := by
  have haccepted := exec_accepted h
  cases call with
  | deposit amount token =>
    obtain rfl := hc.token_eq h (.inl rfl)
    have hvault := vault_step hx hc h
    refine .inl ⟨amount, rfl, credit_of_deposit h, ?_⟩
    simpa [withdrawals, treasuryTransfers, deposits, gifts] using hvault
  | claimCredit amount r signature =>
    exact .inr ⟨amount, r, signature, rfl, credit_of_claimCredit h, haccepted.1, haccepted.2⟩
  | opCreditUser => exact absurd haccepted ha
  | _ =>
    -- every other call has no entry on this side
    have hcredit := (exec_effect h).credit a
    simp only [creditIn, deposited, opCredited, claimed] at hcredit
    omega

/-- **What the vault gives is taken from the caller's balance.** -/
theorem vault_against_balance (hfalls : w'.vaultUnits env P < w.vaultUnits env P) :
    ∃ n, w'.vaultUnits env P + n = w.vaultUnits env P ∧ w'.balance a + n = w.balance a := by
  have haccepted := exec_accepted h
  have hvault := vault_step hx hc h
  cases call with
  | withdraw amount token =>
    refine ⟨amount.toNat, ?_, balance_of_withdraw h⟩
    simpa [withdrawals, treasuryTransfers, deposits, gifts] using hvault
  | withdrawToTreasury => exact absurd haccepted.1 ha
  | _ =>
    simp only [withdrawals, treasuryTransfers] at hvault
    omega

end Own

/-- **A call by a signer who is not an operator**, accepted or not. -/
theorem authority_frame (hx : MovesExact env P) (hw : Reachable env P w) (ha : a ∉ w.operators)
    (call : Call) : AuthorityFrame env P a call w (next env w (.txn a call)) := by
  cases h : exec env w (.txn a call) with
  | error e =>
    rw [show next env w (.txn a call) = w from Transactions.next_of_error h]
    exact AuthorityFrame.refl env P a call w
  | ok w' =>
    rw [show next env w (.txn a call) = w' from Transactions.next_of_ok h]
    have he := exec_effect h
    have hext := exec_extends h
    obtain ⟨hself, htarget, hpaid⟩ := subject_of_not_operator ha (exec_accepted h)
    have hne : ∀ u, u ≠ a → subject (.txn a call) ≠ some u := fun u hu hs => hu (hself u hs)
    have hjob : ∀ u j, w'.job u j = w.job u j := by
      intro u j
      rw [he.job, jobAfter_of_target_ne]
      rw [htarget]
      exact (Option.some_ne_none _).symm
    obtain ⟨treasury, pk, w₀, as, h₀, rfl⟩ := hw
    have hc := configured_run h₀ as
    constructor
    case others =>
      intro u hu
      obtain ⟨hin, hout⟩ := credit_frame (hne u hu) (run env w₀ as)
      have hcredit := he.credit u
      have hbalance := he.balance u
      rw [hin, hout] at hcredit
      rw [hpaid u, balanceOut_frame (hne u hu)] at hbalance
      refine ⟨?_, hbalance, hcredit, hjob u⟩
      rw [he.registered, or_iff_left]
      exact fun hr => hne u hu (subject_of_registers hr)
    case jobs => exact hjob a
    case balance => exact balance_le_of_not_paid h (hpaid a)
    case credit => exact credit_source hx hc ha h
    case workers => exact hext.workerOwner
    case newWorkers =>
      intro id o hnone ho
      rw [he.workerOwner, hnone, Option.none_or] at ho
      exact hself o (subject_of_registers (registers_of_newWorker ho))
    case creditRequests => exact hext.creditRequest
    case newCreditRequests =>
      intro r c hnone hr
      rw [he.creditRequest, hnone, Option.none_or] at hr
      exact hself c.userAddr (subject_of_registers (registers_of_newRequest hr))
    case vault => exact vault_against_balance hx hc ha h
    case config => exact fun hd => config_of_not_deployer hd h

theorem authority_frame_test :
    AuthorityFrame testEnv usdt 0xdead (.deposit 100 usdt) testWorld
      (next testEnv testWorld (.txn 0xdead (.deposit 100 usdt))) :=
  authority_frame testEnv_movesExact
    (testWorld_reachable []) (by decide) _

end Pictor
