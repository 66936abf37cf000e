import Pictor.Property.Ledger

/-!
# Charging for tasks

`op_add_task` adds up credit and balance before it compares the cost with them, so it asks for more
than that the user can pay: the sum has to be a `u64`. `opAddTask_cases` lists its outcomes. Where
the sum fits, a list of tasks is accepted or refused by its total cost alone, and charged by it.
-/

namespace Pictor

variable {env : Env} {w w' : World} {a u : Address} {j : String} {job : Job}

/-- The call that adds a task. -/
def addTask (a u : Address) (j : String) (t : Task) : Action :=
  .txn a (.opAddTask u j t.taskId t.workerId t.cost t.duration)

/-! ## One task -/

/-- **The two subtractions of a charge never underflow** for a user who can pay. -/
theorem deduct_returns {info : UserInfo} {cost : UInt64}
    (h : cost.toNat ≤ info.credit.toNat + info.balance.toNat) :
    ∃ info', PictorNetwork.deduct info cost = .ok info' := by
  unfold PictorNetwork.deduct
  split
  · next hle =>
    have hsub := UInt64.le_iff_toNat_le.mp hle
    simp only [Checked.bind_eq_ok, U64.sub_eq_ok, Checked.pure_eq_ok]
    exact ⟨_, info.credit - cost, by rw [UInt64.toNat_sub_of_le _ _ hle]; omega, rfl⟩
  · next hgt =>
    have hlt : info.credit.toNat < cost.toNat := by
      rw [UInt64.le_iff_toNat_le] at hgt
      omega
    have hrest : (cost - info.credit).toNat = cost.toNat - info.credit.toNat :=
      UInt64.toNat_sub_of_le _ _ (UInt64.le_iff_toNat_le.mpr hlt.le)
    have hpay : cost - info.credit ≤ info.balance := by
      rw [UInt64.le_iff_toNat_le, hrest]
      omega
    have hnew := UInt64.toNat_sub_of_le _ _ hpay
    simp only [Checked.bind_eq_ok, U64.sub_eq_ok, Checked.pure_eq_ok]
    refine ⟨_, cost - info.credit, by omega, info.balance - (cost - info.credit), ?_, rfl⟩
    have := UInt64.le_iff_toNat_le.mp hpay
    omega

variable (env) in
/-- **The outcomes of `op_add_task`**, called by an operator for a job that exists. -/
theorem opAddTask_cases (hop : a ∈ w.operators) (hjob : w.job u j = some job) (t : Task) :
    (2 ^ 64 ≤ w.credit u + w.balance u ∧
      exec env w (addTask a u j t) = .error .arithmeticError) ∨
    (w.credit u + w.balance u < t.cost.toNat ∧
      exec env w (addTask a u j t) = .error PictorNetwork.EINSUFFICENT_BALANCE) ∨
    (w.credit u + w.balance u < 2 ^ 64 ∧ t.cost.toNat ≤ w.credit u + w.balance u ∧
      2 ^ 64 ≤ job.payment.toNat + t.cost.toNat ∧
      exec env w (addTask a u j t) = .error .arithmeticError) ∨
    (w.credit u + w.balance u < 2 ^ 64 ∧ t.cost.toNat ≤ w.credit u + w.balance u ∧
      job.payment.toNat + t.cost.toNat < 2 ^ 64 ∧
      ∃ w', exec env w (addTask a u j t) = .ok w') := by
  obtain ⟨info, hinfo, hjob', hread, hcreated⟩ := PictorNetwork.exists_userInfo hjob
  have hassert : PictorNetwork.assertIsOperator w a = .ok () :=
    PictorNetwork.assertIsOperator_eq_ok.mpr hop
  have hc : w.credit u = info.credit.toNat := Users.credit_of_lookup hinfo
  have hb : w.balance u = info.balance.toNat := Users.balance_of_lookup hinfo
  simp only [addTask, exec, execCall, PictorNetwork.opAddTask, hassert, hcreated, hread,
    Checked.ok_bind, hc, hb]
  by_cases hsum : 2 ^ 64 ≤ info.credit.toNat + info.balance.toNat
  · left
    rw [U64.add_eq_error.mpr ⟨hsum, rfl⟩]
    exact ⟨hsum, rfl⟩
  obtain ⟨funds, hfunds⟩ := U64.exists_add.mpr (Nat.not_le.mp hsum)
  rw [hfunds, Checked.ok_bind]
  rw [U64.add_eq_ok] at hfunds
  rw [← hfunds]
  by_cases hle : t.cost ≤ funds
  swap
  · right; left
    rw [Checked.require_eq_error.mpr ⟨hle, rfl⟩]
    rw [UInt64.le_iff_toNat_le] at hle
    exact ⟨Nat.not_le.mp hle, rfl⟩
  -- she can pay, so the subtractions return, and they leave the job to be read as it was
  rw [(Checked.require_eq_ok (u := ())).mpr hle, Checked.ok_bind]
  rw [UInt64.le_iff_toNat_le] at hle
  obtain ⟨info', hdeduct⟩ := deduct_returns (hfunds ▸ hle)
  obtain ⟨hjobs, -, -⟩ := deduct_eq_ok hdeduct
  have hborrow : info'.jobs.borrow tableNotFound j = .ok job := by
    rw [Table.borrow_eq_ok, hjobs, hjob']
  rw [hdeduct, Checked.ok_bind, hborrow, Checked.ok_bind]
  by_cases hpay : 2 ^ 64 ≤ job.payment.toNat + t.cost.toNat
  · right; right; left
    rw [U64.add_eq_error.mpr ⟨hpay, rfl⟩]
    exact ⟨funds.toNat_lt, hle, hpay, rfl⟩
  · right; right; right
    obtain ⟨payment, hpayment⟩ := U64.exists_add.mpr (Nat.not_le.mp hpay)
    rw [hpayment, Checked.ok_bind]
    exact ⟨funds.toNat_lt, hle, Nat.not_le.mp hpay, _,
      PictorNetwork.withUserInfo_eq_ok.mpr
        ⟨World.network_isSome (World.registered_of_job hjob), rfl⟩⟩

variable (env) in
/-- When it aborts for an arithmetic reason. -/
theorem addTask_overflows_iff (hop : a ∈ w.operators) (hjob : w.job u j = some job) (t : Task) :
    exec env w (addTask a u j t) = .error .arithmeticError ↔
      2 ^ 64 ≤ w.credit u + w.balance u ∨
        t.cost.toNat ≤ w.credit u + w.balance u ∧
          2 ^ 64 ≤ job.payment.toNat + t.cost.toNat := by
  have hneither : PictorNetwork.EINSUFFICENT_BALANCE ≠ .arithmeticError := by decide
  rcases opAddTask_cases env hop hjob t with ⟨hsum, h⟩ | ⟨hpoor, h⟩ |
    ⟨hsum, hcan, hpay, h⟩ | ⟨hsum, hcan, hpay, w', h⟩
  · exact ⟨fun _ => .inl hsum, fun _ => h⟩
  · have hcost := t.cost.toNat_lt
    simp only [h, Except.error.injEq, hneither, false_iff]
    omega
  · exact ⟨fun _ => .inr ⟨hcan, hpay⟩, fun _ => h⟩
  · simp only [h, reduceCtorEq, false_iff]
    omega

/-- What the check of `op_add_task` is for, at one call: who can pay is charged, who can not is told
so, and nobody who can pay is stopped by the arithmetic. -/
structure AffordabilityExact (env : Env) (w : World) (a u : Address) (j : String) (job : Job)
    (t : Task) : Prop where
  accepts : t.cost.toNat ≤ w.credit u + w.balance u →
    job.payment.toNat + t.cost.toNat < 2 ^ 64 → ∃ w', exec env w (addTask a u j t) = .ok w'
  refuses : w.credit u + w.balance u < t.cost.toNat →
    exec env w (addTask a u j t) = .error PictorNetwork.EINSUFFICENT_BALANCE
  noOverflow : t.cost.toNat ≤ w.credit u + w.balance u →
    exec env w (addTask a u j t) ≠ .error .arithmeticError
  noUnderflow : t.cost.toNat ≤ w.credit u + w.balance u →
    ∃ info, PictorNetwork.deduct (w.account u) t.cost = .ok info

/-- **When the check is exact**: the sum it forms is a `u64`, and so is the new payment of a task
the user can pay. What goes wrong otherwise is an arithmetic abort. -/
theorem affordability_exact_iff (hop : a ∈ w.operators) (hjob : w.job u j = some job) (t : Task) :
    (AffordabilityExact env w a u j job t ↔
      w.credit u + w.balance u < 2 ^ 64 ∧
        (t.cost.toNat ≤ w.credit u + w.balance u →
          job.payment.toNat + t.cost.toNat < 2 ^ 64)) ∧
    (exec env w (addTask a u j t) = .error .arithmeticError ↔
      2 ^ 64 ≤ w.credit u + w.balance u ∨
        t.cost.toNat ≤ w.credit u + w.balance u ∧
          2 ^ 64 ≤ job.payment.toNat + t.cost.toNat) := by
  have hcost := t.cost.toNat_lt
  have harith := addTask_overflows_iff env hop hjob t
  refine ⟨⟨?_, ?_⟩, harith⟩
  · intro hexact
    by_contra hbad
    -- a sum of both accounts that is no `u64` is more than any cost
    exact hexact.noOverflow (by omega) (harith.mpr (by omega))
  · rintro ⟨hsum, hpayment⟩
    have hdeduct : t.cost.toNat ≤ w.credit u + w.balance u →
        ∃ info, PictorNetwork.deduct (w.account u) t.cost = .ok info := by
      intro hcan
      apply deduct_returns
      rwa [World.credit_account, World.balance_account]
    rcases opAddTask_cases env hop hjob t with ⟨hover, h⟩ | ⟨hpoor, h⟩ |
      ⟨-, hcan, hpay, h⟩ | ⟨-, hcan, hpay, h⟩
    · omega
    · exact ⟨by omega, fun _ => h, by omega, hdeduct⟩
    · exact absurd (hpayment hcan) (by omega)
    · refine ⟨fun _ _ => h, by omega, ?_, hdeduct⟩
      obtain ⟨w', h⟩ := h
      intro _ herr
      rw [h] at herr
      cases herr

/-- The worker's owner has been paid 60, opens a job of her own and is granted the largest credit
there is. -/
def largestCredit : List Action :=
  settlement.take 6 ++ [.txn 0xdad (.opCreateJob 0xdead "second"),
    .txn 0xdad (.opCreditUser 0xdead 18446744073709551615)]

theorem affordability_exact_iff_test :
    exec testEnv (run testEnv testWorld largestCredit)
      (addTask 0xdad 0xdead "second" ⟨2, "worker", 1, 1⟩) = .error .arithmeticError := by
  have hjob : (run testEnv testWorld largestCredit).job 0xdead "second" =
      some PictorNetwork.newJob := by decide
  exact (affordability_exact_iff (by decide) hjob _).2.mpr (.inl (by decide))

/-- **A user with all the credit there is can not be charged 1**: her credit and balance have no sum
to compare it with. -/
theorem affordable_task_aborts :
    (run testEnv testWorld largestCredit).job 0xdead "second" = some PictorNetwork.newJob ∧
      (run testEnv testWorld largestCredit).workerOwner "worker" = some 0xdead ∧
      1 ≤ (run testEnv testWorld largestCredit).credit 0xdead +
        (run testEnv testWorld largestCredit).balance 0xdead ∧
      exec testEnv (run testEnv testWorld largestCredit)
        (addTask 0xdad 0xdead "second" ⟨2, "worker", 1, 1⟩) = .error .arithmeticError ∧
      ¬ AffordabilityExact testEnv (run testEnv testWorld largestCredit) 0xdad 0xdead "second"
        PictorNetwork.newJob ⟨2, "worker", 1, 1⟩ := by
  have hcan : 1 ≤ (run testEnv testWorld largestCredit).credit 0xdead +
      (run testEnv testWorld largestCredit).balance 0xdead := by decide
  have habort : exec testEnv (run testEnv testWorld largestCredit)
      (addTask 0xdad 0xdead "second" ⟨2, "worker", 1, 1⟩) = .error .arithmeticError := by decide
  exact ⟨by decide, by decide, hcan, habort, fun hexact => hexact.noOverflow hcan habort⟩

/-! ## A list of tasks -/

/-- Submit tasks one after the other, each by some operator; the first refusal ends it. -/
def submitTasks (env : Env) (u : Address) (j : String) :
    World → List (Address × Task) → Result World
  | w, [] => .ok w
  | w, (a, t) :: ts => do
    let w ← exec env w (addTask a u j t)
    submitTasks env u j w ts

/-- What a list of submitted tasks costs. -/
def totalCost (ts : List (Address × Task)) : ℕ := (ts.map fun p => p.2.cost.toNat).sum

@[simp] theorem totalCost_nil : totalCost [] = 0 := rfl

@[simp] theorem totalCost_cons (a : Address) (t : Task) (ts : List (Address × Task)) :
    totalCost ((a, t) :: ts) = t.cost.toNat + totalCost ts := by
  simp [totalCost]

/-- What a list of accepted tasks leaves behind: it is charged as one task of the total cost would
be, and appended in order. -/
structure Charged (u : Address) (j : String) (w : World) (job : Job) (ts : List (Address × Task))
    (w' : World) : Prop where
  credit : w'.credit u = w.credit u - min (w.credit u) (totalCost ts)
  balance : w'.balance u = w.balance u - (totalCost ts - min (w.credit u) (totalCost ts))
  job : ∃ job', w'.job u j = some job' ∧ job'.tasks = job.tasks ++ ts.map Prod.snd ∧
    job'.payment.toNat = job.payment.toNat + totalCost ts ∧ job'.isCompleted = job.isCompleted

/-- One accepted task, and what the next one needs to know. -/
theorem addTask_step {t : Task} (h : exec env w (addTask a u j t) = .ok w')
    (hjob : w.job u j = some job) :
    w'.credit u + min (w.credit u) t.cost.toNat = w.credit u ∧
      w'.balance u + (t.cost.toNat - min (w.credit u) t.cost.toNat) = w.balance u ∧
      w'.job u j = some (job.addTask t) ∧
      (job.addTask t).payment.toNat = job.payment.toNat + t.cost.toNat ∧
      w'.operators = w.operators := by
  obtain ⟨hcredit, hbalance⟩ := opAddTask_split h
  obtain ⟨-, -, job', hjob', hfits⟩ := exec_accepted h
  rw [hjob, Option.some.injEq] at hjob'
  subst hjob'
  have hafter : w'.job u j = some (job.addTask t) := by
    rw [(exec_effect h).job, hjob]
    exact if_pos ⟨rfl, rfl⟩
  have hconfig : w'.config = w.config := (exec_effect h).config
  refine ⟨hcredit, hbalance, hafter, payment_addTask hfits, ?_⟩
  rw [World.operators, World.operators, hconfig]

variable (env) in
/-- **Acceptance**: as long as no sum overflows, what decides is the total cost. -/
theorem submitTasks_returns_iff {ts : List (Address × Task)} (hjob : w.job u j = some job)
    (hops : ∀ p ∈ ts, p.1 ∈ w.operators) (hfunds : w.credit u + w.balance u < 2 ^ 64)
    (hpay : job.payment.toNat + totalCost ts < 2 ^ 64) :
    (∃ w', submitTasks env u j w ts = .ok w') ↔ totalCost ts ≤ w.credit u + w.balance u := by
  induction ts generalizing w job with
  | nil =>
    rw [totalCost_nil]
    exact ⟨fun _ => Nat.zero_le _, fun _ => ⟨w, rfl⟩⟩
  | cons p ts ih =>
    obtain ⟨a, t⟩ := p
    rw [totalCost_cons] at hpay ⊢
    have hop : a ∈ w.operators := hops (a, t) List.mem_cons_self
    have hrest : ∀ p ∈ ts, p.1 ∈ w.operators := fun p hp => hops p (List.mem_cons_of_mem _ hp)
    rcases opAddTask_cases env hop hjob t with ⟨hsum, -⟩ | ⟨hpoor, h⟩ |
      ⟨-, -, hover, -⟩ | ⟨-, hcan, -, w₁, h⟩
    · omega
    · -- the first task can not be paid, so neither can all of them
      simp only [submitTasks, h, Checked.error_bind, reduceCtorEq, exists_false, false_iff]
      omega
    · omega
    · obtain ⟨hcredit, hbalance, hjob₁, hpay₁, hops₁⟩ := addTask_step h hjob
      simp only [submitTasks, h, Checked.ok_bind]
      rw [ih hjob₁ (hops₁ ▸ hrest) (by omega) (by omega)]
      omega

/-- **The charge**, whatever the order and the split. -/
theorem charged_of_submitTasks {ts : List (Address × Task)} (hjob : w.job u j = some job)
    (h : submitTasks env u j w ts = .ok w') : Charged u j w job ts w' := by
  induction ts generalizing w job with
  | nil =>
    cases h
    exact ⟨by simp, by simp, job, hjob, by simp, rfl, rfl⟩
  | cons p ts ih =>
    obtain ⟨a, t⟩ := p
    obtain ⟨w₁, h₁, h⟩ := Checked.bind_eq_ok.mp h
    obtain ⟨hcredit, hbalance, hjob₁, hpay₁, -⟩ := addTask_step h₁ hjob
    obtain ⟨hcredit', hbalance', job', hjob', htasks, hpay', hdone⟩ := ih hjob₁ h
    -- credit that one task leaves is there for the next, so the two minima add up
    constructor
    case credit =>
      rw [totalCost_cons]
      omega
    case balance =>
      rw [totalCost_cons]
      omega
    case job =>
      refine ⟨job', hjob', ?_, ?_, hdone⟩
      · rw [htasks]
        simp [Job.addTask]
      · rw [totalCost_cons, hpay', hpay₁, Nat.add_assoc]

/-- **Charging is additive.** -/
theorem charging_additive {ts : List (Address × Task)} (hjob : w.job u j = some job)
    (hops : ∀ p ∈ ts, p.1 ∈ w.operators) (hfunds : w.credit u + w.balance u < 2 ^ 64)
    (hpay : job.payment.toNat + totalCost ts < 2 ^ 64) :
    ((∃ w', submitTasks env u j w ts = .ok w') ↔ totalCost ts ≤ w.credit u + w.balance u) ∧
    ∀ w', submitTasks env u j w ts = .ok w' →
      Charged u j w job ts w' ∧ (w'.balance u ≠ w.balance u → w'.credit u = 0) ∧
      ∀ ts', (∀ p ∈ ts', p.1 ∈ w.operators) → totalCost ts' = totalCost ts →
        ∃ w'', submitTasks env u j w ts' = .ok w'' ∧ w''.credit u = w'.credit u ∧
          w''.balance u = w'.balance u ∧
          (w''.job u j).map Job.payment = (w'.job u j).map Job.payment := by
  have hiff := submitTasks_returns_iff env hjob hops hfunds hpay
  refine ⟨hiff, fun w' h => ?_⟩
  have hcharged := charged_of_submitTasks hjob h
  refine ⟨hcharged, ?_, ?_⟩
  · intro htouched
    have hcredit := hcharged.credit
    have hbalance := hcharged.balance
    omega
  · intro ts' hops' htotal
    have hiff' := submitTasks_returns_iff env hjob hops' hfunds (by rwa [htotal])
    rw [htotal, ← hiff] at hiff'
    obtain ⟨w'', h'⟩ := hiff'.mpr ⟨w', h⟩
    have hcharged' := charged_of_submitTasks hjob h'
    refine ⟨w'', h', ?_, ?_, ?_⟩
    · rw [hcharged'.credit, hcharged.credit, htotal]
    · rw [hcharged'.balance, hcharged.balance, htotal]
    · obtain ⟨job', hjob', -, hpay', -⟩ := hcharged.job
      obtain ⟨job'', hjob'', -, hpay'', -⟩ := hcharged'.job
      rw [hjob', hjob'', Option.map_some, Option.map_some, Option.some.injEq, ← UInt64.toNat_inj,
        hpay'', hpay', htotal]

/-- The worker's owner has been paid 60, opens a job of her own and is granted 10. -/
def smallCredit : List Action :=
  settlement.take 6 ++ [.txn 0xdad (.opCreateJob 0xdead "second"),
    .txn 0xdad (.opCreditUser 0xdead 10)]

/-- 60 of balance and 10 of credit pay for 30 and 40. -/
theorem charging_additive_test :
    ∃ w', submitTasks testEnv 0xdead "second" (run testEnv testWorld smallCredit)
      [(0xdad, ⟨2, "worker", 30, 1⟩), (0xdad, ⟨3, "worker", 40, 1⟩)] = .ok w' := by
  have hjob : (run testEnv testWorld smallCredit).job 0xdead "second" =
      some PictorNetwork.newJob := by decide
  exact (charging_additive hjob (by decide) (by decide) (by decide)).1.mpr (by decide)

end Pictor
