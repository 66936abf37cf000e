import Pictor.Effect.Tokens

/-!
# The ledger of one user

Each user has two ledgers, credit and balance, and a list of jobs she has been charged for. `Effect`
says what one action adds to and takes from each; here these are totalled over runs.

Job totals need one more step, since an action changes one job out of many: `jobTotal_of_write` is
what rewriting one job does to a total over all of a user's jobs.
-/

namespace Pictor

variable {env : Env} {P : Token} {treasury : Address} {pk : List UInt8} {w w' : World}

/-! ## Totals over a user's jobs -/

namespace World

/-- The jobs of `u`. -/
def jobs (w : World) (u : Address) : Table String Job := (w.account u).jobs

theorem lookup_jobs (w : World) (u : Address) (j : String) : (w.jobs u).lookup j = w.job u j :=
  jobs_account w u j

/-- The total of `f` over all jobs of `u`. -/
def jobTotal (f : Job → ℕ) (w : World) (u : Address) : ℕ := (w.jobs u).sum fun _ job => f job

theorem jobTotal_congr {f : Job → ℕ} {u : Address} (h : ∀ k, w'.job u k = w.job u k) :
    w'.jobTotal f u = w.jobTotal f u := by
  have hjobs : w'.jobs u = w.jobs u := by
    apply Finmap.ext_lookup
    intro k
    rw [lookup_jobs, lookup_jobs, h k]
  rw [jobTotal, jobTotal, hjobs]

/-- **Rewriting one job**: its old value leaves the total, its new one enters. -/
theorem jobTotal_of_write {f : Job → ℕ} {u : Address} {j : String} {job' : Job}
    (hj : w'.job u j = some job') (hne : ∀ k, k ≠ j → w'.job u k = w.job u k) :
    w'.jobTotal f u + (w.job u j).elim 0 f = w.jobTotal f u + f job' := by
  have hjobs : w'.jobs u = Finmap.insert j job' (w.jobs u) := by
    apply Finmap.ext_lookup
    intro k
    rw [Table.lookup_insert_ite, lookup_jobs, lookup_jobs]
    split
    · next hk => rw [hk, hj]
    · next hk => exact hne k hk
  have hsum := Table.sum_insert (w.jobs u) (fun _ job => f job) j job'
  rw [Table.weight, lookup_jobs] at hsum
  rw [jobTotal, hjobs]
  exact hsum

end World

section Step

variable {a u : Address} {j : String} (f : Job → ℕ)

theorem jobTotal_frame {act : Action} (h : exec env w act = .ok w')
    (hu : ∀ j, targetJob act ≠ some (u, j)) : w'.jobTotal f u = w.jobTotal f u := by
  apply World.jobTotal_congr
  intro k
  rw [(exec_effect h).job, jobAfter_of_target_ne (hu k)]

/-- An action that turns job `j` of `u` into `job'`. -/
theorem jobTotal_target {act : Action} {job' : Job} (h : exec env w act = .ok w')
    (ht : targetJob act = some (u, j)) (hj : jobAfter act u j (w.job u j) = some job') :
    w'.jobTotal f u + (w.job u j).elim 0 f = w.jobTotal f u + f job' := by
  have hjob := (exec_effect h).job u
  apply World.jobTotal_of_write
  · rw [hjob j, hj]
  · intro k hk
    rw [hjob k, jobAfter_of_target_ne]
    rw [ht]
    exact fun heq => hk (Prod.mk.inj (Option.some.inj heq)).2.symm

theorem jobTotal_opCreateJob (h : exec env w (.txn a (.opCreateJob u j)) = .ok w') :
    w'.jobTotal f u = w.jobTotal f u + f PictorNetwork.newJob := by
  obtain ⟨-, hnone⟩ := exec_accepted h
  have hstep := jobTotal_target f h rfl (if_pos ⟨rfl, rfl⟩)
  rw [hnone] at hstep
  exact hstep

theorem jobTotal_opAddTask {taskId : UInt64} {id : String} {cost duration : UInt64} {job : Job}
    (h : exec env w (.txn a (.opAddTask u j taskId id cost duration)) = .ok w')
    (hjob : w.job u j = some job) :
    w'.jobTotal f u + f job =
      w.jobTotal f u + f (job.addTask ⟨taskId, id, cost, duration⟩) := by
  have hafter : jobAfter (.txn a (.opAddTask u j taskId id cost duration)) u j (w.job u j) =
      some (job.addTask ⟨taskId, id, cost, duration⟩) := by
    rw [hjob]
    exact if_pos ⟨rfl, rfl⟩
  have hstep := jobTotal_target f h rfl hafter
  rw [hjob] at hstep
  exact hstep

theorem jobTotal_opCompleteJob {job : Job} (h : exec env w (.txn a (.opCompleteJob u j)) = .ok w')
    (hjob : w.job u j = some job) :
    w'.jobTotal f u + f job = w.jobTotal f u + f job.complete := by
  have hafter : jobAfter (.txn a (.opCompleteJob u j)) u j (w.job u j) = some job.complete := by
    rw [hjob]
    exact if_pos ⟨rfl, rfl⟩
  have hstep := jobTotal_target f h rfl hafter
  rw [hjob] at hstep
  exact hstep

end Step

/-! ## What a user has been charged -/

/-- The costs of a job's tasks. -/
def Job.costs (job : Job) : ℕ := (job.tasks.map fun t => t.cost.toNat).sum

/-- Every job's payment is what its tasks cost. -/
def PaymentsExact (w : World) : Prop :=
  ∀ u j job, w.job u j = some job → job.payment.toNat = job.costs

/-- `op_add_task` was accepted, so the new payment is the exact sum. -/
theorem payment_addTask {job : Job} {t : Task}
    (hfits : job.payment.toNat + t.cost.toNat < 2 ^ 64) :
    (job.addTask t).payment.toNat = job.payment.toNat + t.cost.toNat := by
  show (job.payment + t.cost).toNat = _
  rw [UInt64.toNat_add, Nat.mod_eq_of_lt hfits]

theorem paymentsExact_preserved (env : Env) : Transactions.Preserved (exec env) PaymentsExact := by
  intro w act w' hw h u j job' hjob'
  have haccepted := exec_accepted h
  rw [(exec_effect h).job] at hjob'
  rcases jobAfter_cases hjob' with hold | ⟨a, rfl, rfl⟩ | ⟨a, t, job, rfl, hold, rfl⟩ |
    ⟨a, job, rfl, hold, rfl⟩
  · exact hw u j job' hold
  · rfl
  · obtain ⟨-, -, job₀, hjob₀, hfits⟩ := haccepted
    rw [hold] at hjob₀
    cases hjob₀
    rw [payment_addTask hfits, hw u j job hold]
    simp [Job.costs, Job.addTask]
  · exact hw u j job hold

theorem paymentsExact_initial (h : JustInitialised env P treasury pk w) : PaymentsExact w := by
  obtain ⟨l, -, rfl⟩ := justInitialised_iff.mp h
  intro u j job hjob
  cases hjob

theorem Reachable.paymentsExact (hw : Reachable env P w) : PaymentsExact w :=
  hw.induction (fun _ _ _ h₀ => paymentsExact_initial h₀) (paymentsExact_preserved env)

/-- The sum of the payments of `u`'s jobs. -/
def payments (w : World) (u : Address) : ℕ := w.jobTotal (fun job => job.payment.toNat) u

/-- Each charge goes into the payment of one job. -/
theorem payments_step {act : Action} (h : exec env w act = .ok w') (u : Address) :
    payments w' u = payments w u + charged u w act := by
  by_cases hu : ∃ j, targetJob act = some (u, j)
  · obtain ⟨j, hj⟩ := hu
    have haccepted := exec_accepted h
    rcases targetJob_cases hj with ⟨a, rfl⟩ | ⟨a, t, rfl⟩ | ⟨a, rfl⟩
    · exact jobTotal_opCreateJob _ h
    · -- both ledgers of the job grow by the cost: its payment, and what its owner was charged
      obtain ⟨-, -, job, hjob, hfits⟩ := haccepted
      have hstep := jobTotal_opAddTask (fun job => job.payment.toNat) h hjob
      rw [payment_addTask hfits, ← Nat.add_assoc] at hstep
      simp only [charged, if_true]
      exact Nat.add_right_cancel (hstep.trans (Nat.add_right_comm _ _ _))
    · obtain ⟨-, job, hjob, -⟩ := haccepted
      exact Nat.add_right_cancel (jobTotal_opCompleteJob (fun job => job.payment.toNat) h hjob)
  · have hframe : ∀ j, targetJob act ≠ some (u, j) := fun j hj => hu ⟨j, hj⟩
    have hzero : charged u w act = 0 := by
      unfold charged
      split
      · next v j _ _ _ _ =>
        rw [if_neg]
        rintro rfl
        exact hframe j rfl
      · rfl
    rw [payments, payments, jobTotal_frame _ h hframe, hzero, Nat.add_zero]

/-! ## Over a run -/

section Run

variable {w₀ : World}

theorem initial_account (h₀ : JustInitialised env P treasury pk w₀) (u : Address) :
    w₀.credit u = 0 ∧ w₀.balance u = 0 ∧ ∀ k, w₀.job u k = none := by
  obtain ⟨l, -, rfl⟩ := justInitialised_iff.mp h₀
  exact ⟨rfl, rfl, fun _ => rfl⟩

/-- A quantity that is empty at the start and that every step changes by its inflow and outflow. -/
theorem ledger_law (q : World → ℕ) (inflow outflow : World → Action → ℕ) (hq₀ : q w₀ = 0)
    (hq : ∀ w act w', exec env w act = .ok w' → q w' + outflow w act = q w + inflow w act)
    (as : List Action) :
    q (run env w₀ as) + total outflow (history env w₀ as) = total inflow (history env w₀ as) := by
  have hlaw : q (run env w₀ as) + total outflow (history env w₀ as) =
      q w₀ + total inflow (history env w₀ as) :=
    Transactions.conserved (I := fun _ => True) (fun _ _ _ _ _ => trivial)
      (fun w act w' _ h => hq w act w' h) trivial as
  rw [hq₀, Nat.zero_add] at hlaw
  exact hlaw

/-- A quantity that is empty at the start and only grows. -/
theorem growth_law (q : World → ℕ) (inflow : World → Action → ℕ) (hq₀ : q w₀ = 0)
    (hq : ∀ w act w', exec env w act = .ok w' → q w' = q w + inflow w act) (as : List Action) :
    q (run env w₀ as) = total inflow (history env w₀ as) := by
  have hlaw := ledger_law q inflow (fun _ _ => 0) hq₀ hq as
  have hout : total (fun (_ : World) (_ : Action) => 0) (history env w₀ as) = 0 :=
    Transactions.total_eq_zero fun _ _ => rfl
  rw [hout] at hlaw
  exact hlaw

theorem credit_run (h₀ : JustInitialised env P treasury pk w₀) (as : List Action) (u : Address) :
    (run env w₀ as).credit u + total (opDebited u) (history env w₀ as) +
        total (chargedToCredit u) (history env w₀ as) =
      total (deposited u) (history env w₀ as) + total (opCredited u) (history env w₀ as) +
        total (claimed u) (history env w₀ as) := by
  have hstep : ∀ w act w', exec env w act = .ok w' →
      w'.credit u + creditOut u w act = w.credit u + creditIn u w act :=
    fun w act w' h => (exec_effect h).credit u
  have hlaw := ledger_law (fun w => w.credit u) (creditIn u) (creditOut u) (initial_account h₀ u).1
    hstep as
  have hin : total (creditIn u) (history env w₀ as) = total (deposited u) (history env w₀ as) +
      total (opCredited u) (history env w₀ as) + total (claimed u) (history env w₀ as) := by
    rw [← Transactions.total_add, ← Transactions.total_add]
    rfl
  have hout : total (creditOut u) (history env w₀ as) = total (opDebited u) (history env w₀ as) +
      total (chargedToCredit u) (history env w₀ as) := by
    rw [← Transactions.total_add]
    rfl
  rw [hin, hout] at hlaw
  omega

theorem balance_run (h₀ : JustInitialised env P treasury pk w₀) (as : List Action) (u : Address) :
    (run env w₀ as).balance u + total (withdrawn u) (history env w₀ as) +
        total (chargedToBalance u) (history env w₀ as) =
      total (paid u) (history env w₀ as) := by
  have hstep : ∀ w act w', exec env w act = .ok w' →
      w'.balance u + balanceOut u w act = w.balance u + balanceIn u w act :=
    fun w act w' h => (exec_effect h).balance u
  have hlaw := ledger_law (fun w => w.balance u) (balanceIn u) (balanceOut u)
    (initial_account h₀ u).2.1 hstep as
  have hin : total (balanceIn u) (history env w₀ as) = total (paid u) (history env w₀ as) := rfl
  have hout : total (balanceOut u) (history env w₀ as) = total (withdrawn u) (history env w₀ as) +
      total (chargedToBalance u) (history env w₀ as) := by
    rw [← Transactions.total_add]
    rfl
  rw [hin, hout] at hlaw
  omega

theorem payments_run (h₀ : JustInitialised env P treasury pk w₀) (as : List Action) (u : Address) :
    payments (run env w₀ as) u = total (charged u) (history env w₀ as) := by
  have hnil : payments w₀ u = 0 := by
    have hjobs : w₀.jobs u = ∅ := by
      apply Finmap.ext_lookup
      intro k
      rw [World.lookup_jobs, (initial_account h₀ u).2.2 k, Finmap.lookup_empty]
    rw [payments, World.jobTotal, hjobs, Table.sum_empty]
  exact growth_law (fun w => payments w u) (charged u) hnil (fun _ _ _ h => payments_step h u) as

/-- A charge takes `min credit cost` from the credit and the rest from the balance. -/
theorem opAddTask_split {a u : Address} {j : String} {taskId : UInt64} {id : String}
    {cost duration : UInt64}
    (h : exec env w (.txn a (.opAddTask u j taskId id cost duration)) = .ok w') :
    w'.credit u + min (w.credit u) cost.toNat = w.credit u ∧
      w'.balance u + (cost.toNat - min (w.credit u) cost.toNat) = w.balance u := by
  have hcredit := (exec_effect h).credit u
  have hbalance := (exec_effect h).balance u
  rw [creditOut_opAddTask, if_pos rfl] at hcredit
  rw [balanceOut_opAddTask, if_pos rfl] at hbalance
  exact ⟨hcredit, hbalance⟩

/-- **The ledger of a user**, after any run. -/
theorem user_ledger (h₀ : JustInitialised env P treasury pk w₀) (as : List Action) (u : Address) :
    ((run env w₀ as).credit u + total (opDebited u) (history env w₀ as) +
        total (chargedToCredit u) (history env w₀ as) =
      total (deposited u) (history env w₀ as) + total (opCredited u) (history env w₀ as) +
        total (claimed u) (history env w₀ as)) ∧
    ((run env w₀ as).balance u + total (withdrawn u) (history env w₀ as) +
        total (chargedToBalance u) (history env w₀ as) = total (paid u) (history env w₀ as)) ∧
    (∀ e ∈ history env w₀ as, ∀ a j taskId id cost duration,
      e.act = .txn a (.opAddTask u j taskId id cost duration) →
      e.post.credit u + min (e.pre.credit u) cost.toNat = e.pre.credit u ∧
        e.post.balance u + (cost.toNat - min (e.pre.credit u) cost.toNat) = e.pre.balance u) ∧
    payments (run env w₀ as) u = total (charged u) (history env w₀ as) ∧
    (∀ j job, (run env w₀ as).job u j = some job → job.payment.toNat = job.costs) ∧
    total (withdrawn u) (history env w₀ as) ≤ total (paid u) (history env w₀ as) := by
  have hbalance := balance_run h₀ as u
  refine ⟨credit_run h₀ as u, hbalance, ?_, payments_run h₀ as u, ?_, by omega⟩
  · intro e he a j taskId id cost duration hact
    have hstep := exec_of_mem_history he
    rw [hact] at hstep
    exact opAddTask_split hstep
  · intro j job hjob
    exact Transactions.invariant (paymentsExact_preserved env) (paymentsExact_initial h₀) as u j job
      hjob

/-- A job is paid from credit, settled, and its worker's owner withdraws. -/
def settlement : List Action :=
  [.txn 0xcafe (.addOperator 0xdad), .txn 0xdad (.opRegisterWorker 0xdead "worker"),
    .txn 0xdad (.opCreateJob 0xdead "job"), .txn 0xdead (.deposit 100 usdt),
    .txn 0xdad (.opAddTask 0xdead "job" 1 "worker" 100 1),
    .txn 0xdad (.opCompleteJob 0xdead "job"), .txn 0xdead (.withdraw 50 usdt)]

theorem user_ledger_test :
    (run testEnv testWorld settlement).balance 0xdead +
        total (withdrawn 0xdead) (history testEnv testWorld settlement) +
        total (chargedToBalance 0xdead) (history testEnv testWorld settlement) =
      total (paid 0xdead) (history testEnv testWorld settlement) :=
  (user_ledger testWorld_justInitialised settlement 0xdead).2.1

example : (run testEnv testWorld settlement).balance 0xdead = 10 := by decide

end Run

end Pictor
