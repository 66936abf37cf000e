import Mathlib.Algebra.BigOperators.Group.Finset.Piecewise
import Pictor.Property.Ledger

/-!
# Solvency

What the contract owes its users against what it holds. A charge takes from a user and a settlement
gives to worker owners, at different times, so the sum of all accounts is not bounded by itself. The
invariant adds the *escrow*, the payments of all jobs not yet settled: charging moves value into the
escrow, and the first settlement of a job takes its payment out and pays at most that.

Nothing stops a second settlement. `op_complete_job` sets `is_completed` without looking at it, so
it can be repeated and pays again, out of nothing.
-/

namespace Pictor

variable {env : Env} {P : Token} {treasury : Address} {pk : List UInt8} {w w' : World}

/-! ## Sums over all users -/

/-- All that the contract owes: the sum of balance and credit over all users. -/
def holdings (w : World) : ℕ :=
  Table.sum w.users fun _ info => info.balance.toNat + info.credit.toNat

/-- The part of a job's payment that no settlement has paid out. -/
def Job.openPayment (job : Job) : ℕ := if job.isCompleted then 0 else job.payment.toNat

/-- The payments of all jobs that are not settled. -/
def escrow (w : World) : ℕ :=
  Table.sum w.users fun _ info => info.jobs.sum fun _ job => job.openPayment

theorem holdings_eq {s : Finset Address} (hs : w.users.keys ⊆ s) :
    holdings w = ∑ u ∈ s, (w.balance u + w.credit u) := by
  rw [holdings, Table.sum_eq_of_subset hs]
  apply Finset.sum_congr rfl
  intro u _
  unfold Table.weight World.balance World.credit Users.balance Users.credit
  cases w.users.lookup u <;> rfl

theorem escrow_eq {s : Finset Address} (hs : w.users.keys ⊆ s) :
    escrow w = ∑ u ∈ s, w.jobTotal Job.openPayment u := by
  rw [escrow, Table.sum_eq_of_subset hs]
  apply Finset.sum_congr rfl
  intro u _
  unfold Table.weight World.jobTotal World.jobs World.account
  cases w.users.lookup u with
  | none => exact (Table.sum_empty _).symm
  | some info => rfl

/-- A quantity that only the named user has. -/
theorem sum_of_subject {act : Action} {f : Address → ℕ} {n : ℕ} {s : Finset Address}
    (hf : ∀ u, f u = if subject act = some u then n else 0) (hn : subject act = none → n = 0)
    (hs : ∀ u, subject act = some u → u ∈ s) : ∑ u ∈ s, f u = n := by
  rw [Finset.sum_congr rfl (fun u _ => hf u)]
  cases hsub : subject act with
  | none => simp [hn hsub]
  | some v =>
    simp only [Option.some.injEq]
    rw [Finset.sum_ite_eq, if_pos (hs v hsub)]

/-- The payment a settlement takes out of the escrow. -/
def settled (w : World) : Action → ℕ
  | .txn _ (.opCompleteJob v j) => (w.job v j).elim 0 Job.costs
  | _ => 0

/-- All quantities of an action belong to the user it names. -/
theorem quantities_of_subject (w : World) (act : Action) (u : Address) :
    creditIn u w act =
      (if subject act = some u then deposits w act + opCredits w act + claims w act else 0) ∧
    creditOut u w act + balanceOut u w act =
      (if subject act = some u then opDebits w act + withdrawals w act + charges w act else 0) := by
  by_cases hu : subject act = some u
  · rw [if_pos hu, if_pos hu]
    have hsplit := charged_split u w act
    unfold subject at hu
    split at hu <;> cases hu <;>
      simp_all [creditIn, creditOut, balanceOut, deposited, opCredited, claimed, opDebited,
        withdrawn, chargedToCredit, chargedToBalance, charged, deposits, opCredits, claims,
        opDebits, withdrawals, charges]
  · rw [if_neg hu, if_neg hu]
    obtain ⟨hin, hout⟩ := credit_frame hu w
    rw [hin, hout, balanceOut_frame hu w]
    exact ⟨rfl, rfl⟩

/-- An action that names nobody has none of these quantities. -/
theorem quantities_of_no_subject {act : Action} (h : subject act = none) (w : World) :
    deposits w act + opCredits w act + claims w act = 0 ∧
      opDebits w act + withdrawals w act + charges w act = 0 ∧ charges w act = 0 ∧
      settled w act = 0 := by
  cases act with
  | outside l' => exact ⟨rfl, rfl, rfl, rfl⟩
  | txn a call =>
    cases call with
    | opAddTask | opCompleteJob | opCreditUser | opDebitUser | deposit | withdraw | claimCredit =>
      cases h
    | _ => exact ⟨rfl, rfl, rfl, rfl⟩

/-! ## What a settlement pays -/

/-- A share is at most the cost. -/
theorem share_le (hp : w.percentage ≤ 10000) (t : Task) : share w t ≤ t.cost.toNat := by
  rw [share]
  apply Nat.div_le_of_le_mul
  rw [Nat.mul_comm]
  exact Nat.mul_le_mul_right _ hp

/-- The earnings from a list of tasks, over any set of users, stay within the costs. -/
theorem sum_earnings_le (hp : w.percentage ≤ 10000) (s : Finset Address) (tasks : List Task) :
    ∑ u ∈ s, earnings u w tasks ≤ (tasks.map fun t => t.cost.toNat).sum := by
  induction tasks with
  | nil => simp [earnings]
  | cons t ts ih =>
    have hone : ∑ u ∈ s, (if w.workerOwner t.workerId = some u then share w t else 0) ≤
        t.cost.toNat := by
      cases w.workerOwner t.workerId with
      | none => simp
      | some o =>
        simp only [Option.some.injEq]
        rw [Finset.sum_ite_eq]
        split
        · exact share_le hp t
        · exact Nat.zero_le _
    have hsplit : ∀ u, earnings u w (t :: ts) =
        (if w.workerOwner t.workerId = some u then share w t else 0) + earnings u w ts := by
      intro u
      simp [earnings]
    rw [Finset.sum_congr rfl (fun u _ => hsplit u), Finset.sum_add_distrib, List.map_cons,
      List.sum_cons]
    exact Nat.add_le_add hone ih

/-- **A settlement pays at most what it settles.** -/
theorem sum_paid_le (hp : w.percentage ≤ 10000) (s : Finset Address) (act : Action) :
    ∑ u ∈ s, paid u w act ≤ settled w act := by
  unfold paid settled
  split
  · next v j =>
    show _ ≤ (w.job v j).elim 0 Job.costs
    cases w.job v j with
    | none => simp
    | some job => exact sum_earnings_le hp s job.tasks
  · simp

/-! ## The step -/

/-- The job of a settlement has not been settled before. -/
def settlesJob : Action → Option (Address × String)
  | .txn _ (.opCompleteJob u j) => some (u, j)
  | _ => none

def World.jobCompleted (w : World) (u : Address) (j : String) : Bool :=
  (w.job u j).any (·.isCompleted)

/-- The condition under which a step keeps the contract solvent: it does not settle a job whose
`is_completed` is set. -/
def FirstSettlement (w : World) (act : Action) : Prop :=
  ∀ p ∈ settlesJob act, w.jobCompleted p.1 p.2 = false

instance (w : World) (act : Action) : Decidable (FirstSettlement w act) :=
  inferInstanceAs (Decidable (∀ p ∈ settlesJob act, w.jobCompleted p.1 p.2 = false))

theorem openPayment_addTask {job : Job} {t : Task}
    (hfits : job.payment.toNat + t.cost.toNat < 2 ^ 64) :
    (job.addTask t).openPayment ≤ job.openPayment + t.cost.toNat := by
  unfold Job.openPayment
  rw [payment_addTask hfits]
  show (if job.isCompleted then 0 else _) ≤ _
  split
  · exact Nat.zero_le _
  · exact Nat.le_refl _

/-- What a step does to the open payments of `u`'s jobs. -/
theorem openPayments_step {act : Action} (hpay : PaymentsExact w) (hC : FirstSettlement w act)
    (h : exec env w act = .ok w') (u : Address) :
    w'.jobTotal Job.openPayment u + (if subject act = some u then settled w act else 0) ≤
      w.jobTotal Job.openPayment u + (if subject act = some u then charges w act else 0) := by
  by_cases hu : ∃ j, targetJob act = some (u, j)
  · obtain ⟨j, hj⟩ := hu
    have haccepted := exec_accepted h
    rcases targetJob_cases hj with ⟨a, rfl⟩ | ⟨a, t, rfl⟩ | ⟨a, rfl⟩
    · rw [jobTotal_opCreateJob _ h]
      simp [settled, charges, PictorNetwork.newJob, Job.openPayment]
    · obtain ⟨-, -, job, hjob, hfits⟩ := haccepted
      have hstep : w'.jobTotal Job.openPayment u + job.openPayment =
          w.jobTotal Job.openPayment u + (job.addTask t).openPayment :=
        jobTotal_opAddTask Job.openPayment h hjob
      -- a charge to a settled job leaves the escrow as it is
      have hopen : (job.addTask t).openPayment ≤ job.openPayment + t.cost.toNat :=
        openPayment_addTask hfits
      simp only [settled, charges, subject, if_true, Nat.add_zero]
      omega
    · -- the first settlement of the job empties its escrow
      obtain ⟨-, job, hjob, -⟩ := haccepted
      have hfirst : job.isCompleted = false := by
        have := hC _ rfl
        rw [World.jobCompleted, hjob] at this
        exact this
      have hstep := jobTotal_opCompleteJob Job.openPayment h hjob
      have hold : job.openPayment = job.costs := by
        rw [Job.openPayment, hfirst, ← hpay _ _ job hjob]
        rfl
      have hnew : job.complete.openPayment = 0 := rfl
      simp only [settled, charges, subject, if_true, hjob, Option.elim_some, Nat.add_zero]
      omega
  · have hframe : ∀ j, targetJob act ≠ some (u, j) := fun j hj => hu ⟨j, hj⟩
    rw [jobTotal_frame _ h hframe]
    have hzero : (if subject act = some u then settled w act else 0) = 0 := by
      split
      · next hs =>
        unfold settled
        split
        · next v j =>
          cases hs
          exact absurd rfl (hframe j)
        · rfl
      · rfl
    rw [hzero]
    exact Nat.le_add_right _ _

/-- A finite set of users to sum over: all those of both states, and the one the action names. -/
theorem exists_users {act : Action} (h : exec env w act = .ok w') :
    ∃ s : Finset Address, w.users.keys ⊆ s ∧ w'.users.keys ⊆ s ∧
      ∀ u, subject act = some u → u ∈ s := by
  refine ⟨w'.users.keys ∪ (subject act).toFinset, ?_, Finset.subset_union_left, ?_⟩
  · intro u hu
    apply Finset.mem_union_left
    rw [← World.registered_iff_mem_keys] at hu ⊢
    exact ((exec_effect h).registered u).mpr (.inl hu)
  · intro u hu
    apply Finset.mem_union_right
    rw [hu, Option.toFinset_some, Finset.mem_singleton]

/-- **One step of solvency**: holdings and escrow grow by no more than what comes in. -/
theorem solvency_step (hp : w.percentage ≤ 10000) (hpay : PaymentsExact w) {act : Action}
    (hC : FirstSettlement w act) (h : exec env w act = .ok w') :
    holdings w' + escrow w' + (opDebits w act + withdrawals w act) ≤
      holdings w + escrow w + (deposits w act + opCredits w act + claims w act) := by
  have he := exec_effect h
  obtain ⟨s, hbefore, hafter, hs⟩ := exists_users h
  -- user by user, both accounts change by the quantities of the step
  have haccounts : ∑ u ∈ s, (w'.balance u + w'.credit u) +
        ∑ u ∈ s, (creditOut u w act + balanceOut u w act) =
      ∑ u ∈ s, (w.balance u + w.credit u) + ∑ u ∈ s, creditIn u w act +
        ∑ u ∈ s, paid u w act := by
    rw [← Finset.sum_add_distrib, ← Finset.sum_add_distrib, ← Finset.sum_add_distrib]
    apply Finset.sum_congr rfl
    intro u _
    have hcredit := he.credit u
    have hbalance := he.balance u
    rw [balanceIn] at hbalance
    omega
  -- and the escrow takes the charges in and gives the settled payments out
  have hopen : ∑ u ∈ s, w'.jobTotal Job.openPayment u +
        ∑ u ∈ s, (if subject act = some u then settled w act else 0) ≤
      ∑ u ∈ s, w.jobTotal Job.openPayment u +
        ∑ u ∈ s, (if subject act = some u then charges w act else 0) := by
    rw [← Finset.sum_add_distrib, ← Finset.sum_add_distrib]
    exact Finset.sum_le_sum fun u _ => openPayments_step hpay hC h u
  have hin := sum_of_subject (fun u => (quantities_of_subject w act u).1)
    (fun h => (quantities_of_no_subject h w).1) hs
  have hout := sum_of_subject (fun u => (quantities_of_subject w act u).2)
    (fun h => (quantities_of_no_subject h w).2.1) hs
  have hcharges := sum_of_subject (fun _ => rfl)
    (fun h => (quantities_of_no_subject h w).2.2.1) hs
  have hsettled := sum_of_subject (fun _ => rfl)
    (fun h => (quantities_of_no_subject h w).2.2.2) hs
  have hpaid := sum_paid_le hp s act
  rw [holdings_eq hbefore, holdings_eq hafter, escrow_eq hbefore, escrow_eq hafter]
  omega

/-! ## The run -/

theorem solvency_initial (h : JustInitialised env P treasury pk w) : holdings w + escrow w = 0 := by
  obtain ⟨l, -, rfl⟩ := justInitialised_iff.mp h
  rfl

/-- **Solvency**, along every run that settles no job a second time. -/
theorem solvent (hx : MovesExact env P) {w₀ : World} (h₀ : JustInitialised env P treasury pk w₀)
    (as : List Action) (hC : ∀ e ∈ history env w₀ as, FirstSettlement e.pre e.act) :
    holdings (run env w₀ as) + total opDebits (history env w₀ as) ≤
      (run env w₀ as).vaultUnits env P + total treasuryTransfers (history env w₀ as) +
        total opCredits (history env w₀ as) + total claims (history env w₀ as) := by
  have hlaw : holdings (run env w₀ as) + escrow (run env w₀ as) +
        total (fun w act => opDebits w act + withdrawals w act) (history env w₀ as) ≤
      holdings w₀ + escrow w₀ +
        total (fun w act => deposits w act + opCredits w act + claims w act)
          (history env w₀ as) := by
    refine Transactions.conserved_le (q := fun w => holdings w + escrow w)
      ((paymentsExact_preserved env).and (configured_preserved env P treasury)) ?_
      ⟨paymentsExact_initial h₀, configured_initial h₀⟩ as hC
    rintro w act w' ⟨hpay, hcfg⟩ hfirst h
    exact solvency_step (by rw [hcfg.percentage]; omega) hpay hfirst h
  rw [solvency_initial h₀, Transactions.total_add, Transactions.total_add,
    Transactions.total_add] at hlaw
  have hvault := vault_run hx h₀ as
  omega

theorem solvent_test :
    holdings (run testEnv testWorld settlement) +
        total opDebits (history testEnv testWorld settlement) ≤
      (run testEnv testWorld settlement).vaultUnits testEnv usdt +
        total treasuryTransfers (history testEnv testWorld settlement) +
        total opCredits (history testEnv testWorld settlement) +
        total claims (history testEnv testWorld settlement) :=
  solvent testEnv_movesExact testWorld_justInitialised settlement (by decide)

/-- The same job is settled twice. -/
def repeatedSettlement : List Action :=
  [.txn 0xcafe (.addOperator 0xdad), .txn 0xdad (.opRegisterWorker 0xdead "worker"),
    .txn 0xdad (.opCreateJob 0xdead "job"), .txn 0xdad (.opCreditUser 0xdead 100),
    .txn 0xdad (.opAddTask 0xdead "job" 1 "worker" 100 1),
    .txn 0xdad (.opCompleteJob 0xdead "job"), .txn 0xdad (.opCompleteJob 0xdead "job")]

/-- **Value is created** by a repeated settlement: 100 was issued, and 120 is owed. -/
theorem repeated_settlement_insolvent :
    ¬ (holdings (run testEnv testWorld repeatedSettlement) +
        total opDebits (history testEnv testWorld repeatedSettlement) ≤
      (run testEnv testWorld repeatedSettlement).vaultUnits testEnv usdt +
        total treasuryTransfers (history testEnv testWorld repeatedSettlement) +
        total opCredits (history testEnv testWorld repeatedSettlement) +
        total claims (history testEnv testWorld repeatedSettlement)) := by
  decide

end Pictor
