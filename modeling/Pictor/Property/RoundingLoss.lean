import Pictor.Property.WorkerView

/-!
# What rounding costs the workers

Three ways to take the percentage of a job: of each task, as the settlement does; of each worker's
tasks together, as the view does; of the whole payment. They differ only in how often they round
down, and each is the previous one with the tasks grouped more coarsely.
-/

namespace Pictor

variable {env : Env} {P : Token} {w w' : World} {a u : Address} {j : String} {job : Job}

/-- The distinct workers' earnings make up the earnings of their owner. -/
theorem earnings_by_worker (w : World) (x : Address) (tasks : List Task) :
    earnings x w tasks =
      ∑ id ∈ workerIds tasks with w.workerOwner id = some x, workerEarnings w id tasks := by
  rw [earnings, ← Rounding.sum_groups _ mem_workerIds, Finset.sum_filter]
  apply Finset.sum_congr rfl
  intro id _
  -- within a group the owner is the same for all tasks
  have hgroup : ∀ t ∈ Rounding.group Task.workerId id tasks,
      (if w.workerOwner t.workerId = some x then share w t else 0) =
        if w.workerOwner id = some x then share w t else 0 := by
    intro t ht
    rw [of_decide_eq_true (List.mem_filter.mp ht).2]
  rw [List.map_congr_left hgroup]
  split
  · rfl
  · exact List.sum_eq_zero (by simp)

/-! ## View against settlement -/

/-- What `get_job_info_by_worker` reports as the worker's payment is what settling pays for the
tasks that name her. -/
def ViewAgrees (w : World) (u : Address) (j id : String) (job : Job) : Prop :=
  ∃ n pay done, PictorNetwork.getJobInfoByWorker w u j id = .ok (n, pay, done) ∧
    pay.toNat = workerEarnings w id job.tasks

/-- **When the view agrees with the settlement**: it returns, and what rounding drops from the
single tasks does not add up to a unit. -/
theorem view_agrees_iff (hw : Reachable env P w) (hjob : w.job u j = some job)
    (h : exec env w (.txn a (.opCompleteJob u j)) = .ok w') :
    (∀ id, ViewAgrees w u j id job ↔
      (workerTasks id job.tasks).length < 2 ^ 64 ∧
        workerCosts id job.tasks * w.percentage < 2 ^ 64 ∧
        ((workerTasks id job.tasks).map fun t => t.cost.toNat * w.percentage % 10000).sum <
          10000) ∧
    ∀ x, w'.balance x = w.balance x +
      ∑ id ∈ workerIds job.tasks with w.workerOwner id = some x,
        workerEarnings w id job.tasks := by
  refine ⟨?_, ?_⟩
  · intro id
    have hpos := hw.percentage_pos
    have hrounding := Rounding.sum_div_eq_floors_iff (d := 10000)
      (f := fun t : Task => t.cost.toNat * w.percentage) (by decide) (workerTasks id job.tasks)
    rw [sum_scaled] at hrounding
    constructor
    · rintro ⟨n, pay, done, hview, hpay⟩
      obtain ⟨hn, hfits, hval, -⟩ := (getJobInfoByWorker_eq_ok hpos hjob).mp hview
      rw [hval] at hpay
      exact ⟨hn ▸ n.toNat_lt, hfits, hrounding.mp hpay⟩
    · rintro ⟨hcount, hfits, hrem⟩
      obtain ⟨⟨n, pay, done⟩, hview⟩ := (view_returns_iff hpos hjob id).mpr ⟨hcount, hfits⟩
      obtain ⟨-, -, hval, -⟩ := (getJobInfoByWorker_eq_ok hpos hjob).mp hview
      exact ⟨n, pay, done, hview, hval.trans (hrounding.mpr hrem)⟩
  · intro x
    rw [(settled_of_exec h hjob).balance, earnings_by_worker]

/-- The settlement of `settlement`. -/
theorem view_agrees_iff_test :
    ViewAgrees (run testEnv testWorld (settlement.take 5)) 0xdead "job" "worker"
      ⟨[⟨1, "worker", 100, 1⟩], 100, false⟩ := by
  have hsettled : exec testEnv (run testEnv testWorld (settlement.take 5))
      (.txn 0xdad (.opCompleteJob 0xdead "job")) =
        .ok (run testEnv testWorld (settlement.take 6)) := by decide
  exact ((view_agrees_iff (testWorld_reachable _) (by decide) hsettled).1 "worker").mpr
    ⟨by decide, by decide, by decide⟩

/-- Two tasks of cost 1 for the same worker. -/
def twoSmallTasks : List Action :=
  [.txn 0xcafe (.addOperator 0xdad), .txn 0xdad (.opRegisterWorker 0xbad "worker"),
    .txn 0xdad (.opCreateJob 0xdead "job"), .txn 0xdad (.opCreditUser 0xdead 2),
    .txn 0xdad (.opAddTask 0xdead "job" 1 "worker" 1 1),
    .txn 0xdad (.opAddTask 0xdead "job" 2 "worker" 1 1)]

/-- **The view promises more than is paid**: 60 percent of 2 is 1, but of 1 and 1 it is nothing. -/
theorem view_exceeds_settlement :
    PictorNetwork.getJobInfoByWorker (run testEnv testWorld twoSmallTasks) 0xdead "job" "worker" =
        .ok (2, 1, false) ∧
      exec testEnv (run testEnv testWorld twoSmallTasks)
          (.txn 0xdad (.opCompleteJob 0xdead "job")) =
        .ok (run testEnv testWorld (twoSmallTasks ++ [.txn 0xdad (.opCompleteJob 0xdead "job")])) ∧
      (run testEnv testWorld twoSmallTasks).balance 0xbad = 0 ∧
      (run testEnv testWorld (twoSmallTasks ++
        [.txn 0xdad (.opCompleteJob 0xdead "job")])).balance 0xbad = 0 ∧
      ¬ ViewAgrees (run testEnv testWorld twoSmallTasks) 0xdead "job" "worker"
        ⟨[⟨1, "worker", 1, 1⟩, ⟨2, "worker", 1, 1⟩], 2, false⟩ := by
  have hview : PictorNetwork.getJobInfoByWorker (run testEnv testWorld twoSmallTasks) 0xdead "job"
      "worker" = .ok (2, 1, false) := by decide
  refine ⟨hview, by decide, by decide, by decide, ?_⟩
  rintro ⟨n, pay, done, hagain, hpay⟩
  rw [hview] at hagain
  cases hagain
  exact absurd hpay (by decide)

/-! ## How much is lost -/

/-- What the users of `w` have gained in balance from `w` to `w'`. -/
def totalGain (w w' : World) : ℕ := ∑ x ∈ w.users.keys, (w'.balance x - w.balance x)

/-- All owners together earn the shares of all tasks. -/
theorem sum_earnings {tasks : List Task} (hcl : Closed w)
    (howned : ∀ t ∈ tasks, ∃ o, w.workerOwner t.workerId = some o) :
    ∑ x ∈ w.users.keys, earnings x w tasks = (tasks.map (share w)).sum := by
  have hswap : ∑ x ∈ w.users.keys, earnings x w tasks =
      ∑ id ∈ workerIds tasks, ∑ x ∈ w.users.keys,
        if w.workerOwner id = some x then workerEarnings w id tasks else 0 := by
    rw [Finset.sum_comm]
    apply Finset.sum_congr rfl
    intro x _
    rw [earnings_by_worker, Finset.sum_filter]
  have hone : ∀ id ∈ workerIds tasks, (∑ x ∈ w.users.keys,
      if w.workerOwner id = some x then workerEarnings w id tasks else 0) =
        workerEarnings w id tasks := by
    intro id hid
    obtain ⟨t, ht, rfl⟩ := List.mem_map.mp (List.mem_toFinset.mp hid)
    obtain ⟨o, ho⟩ := howned t ht
    have hmem : o ∈ w.users.keys := World.registered_iff_mem_keys.mp (hcl.workers _ o ho)
    simp only [ho, Option.some.injEq]
    rw [Finset.sum_ite_eq, if_pos hmem]
  rw [hswap, Finset.sum_congr rfl hone]
  exact Rounding.sum_groups (share w) mem_workerIds

theorem totalGain_of_settlement (hcl : Closed w)
    (h : exec env w (.txn a (.opCompleteJob u j)) = .ok w') (hjob : w.job u j = some job) :
    totalGain w w' = (job.tasks.map (share w)).sum := by
  obtain ⟨-, job', hjob', howned⟩ := exec_accepted h
  rw [hjob, Option.some.injEq] at hjob'
  subst hjob'
  rw [← sum_earnings hcl howned]
  apply Finset.sum_congr rfl
  intro x _
  rw [(settled_of_exec h hjob).balance, Nat.add_sub_cancel_left]

/-- A worker id is distinct because some task names it. -/
theorem workerTasks_ne_nil {tasks : List Task} {id : String} (hid : id ∈ workerIds tasks) :
    workerTasks id tasks ≠ [] := by
  obtain ⟨t, ht, rfl⟩ := List.mem_map.mp (List.mem_toFinset.mp hid)
  exact List.ne_nil_of_mem (List.mem_filter.mpr ⟨ht, decide_eq_true rfl⟩)

theorem workerIds_nonempty {tasks : List Task} (hne : tasks ≠ []) : (workerIds tasks).Nonempty := by
  rwa [workerIds, List.toFinset_nonempty_iff, ne_eq, List.map_eq_nil_iff]

/-- What the views of all workers report together. -/
def reported (w : World) (tasks : List Task) : ℕ :=
  ∑ id ∈ workerIds tasks, workerCosts id tasks * w.percentage / 10000

/-- The views round once for each worker instead of once. -/
theorem reported_of_pool (w : World) {tasks : List Task} (hne : tasks ≠ []) :
    reported w tasks ≤ (tasks.map fun t => t.cost.toNat).sum * w.percentage / 10000 ∧
      (tasks.map fun t => t.cost.toNat).sum * w.percentage / 10000 <
        reported w tasks + (workerIds tasks).card := by
  have hpool : (tasks.map fun t => t.cost.toNat).sum * w.percentage =
      ∑ id ∈ workerIds tasks, workerCosts id tasks * w.percentage := by
    rw [← Finset.sum_mul]
    exact congrArg (· * w.percentage) (Rounding.sum_groups _ mem_workerIds).symm
  rw [hpool]
  exact ⟨Rounding.sum_floors_le (by decide) _,
    Rounding.div_sum_lt (by decide) (workerIds_nonempty hne)⟩

/-- The settlement rounds once for each task instead of once for each worker. -/
theorem shares_of_reported (w : World) (tasks : List Task) :
    (tasks.map (share w)).sum ≤ reported w tasks ∧
      reported w tasks + (workerIds tasks).card ≤ (tasks.map (share w)).sum + tasks.length := by
  have hgroups : reported w tasks = ∑ id ∈ workerIds tasks, ((Rounding.group Task.workerId id
      tasks).map fun t => t.cost.toNat * w.percentage).sum / 10000 := by
    apply Finset.sum_congr rfl
    intro id _
    rw [sum_scaled]
    rfl
  rw [hgroups]
  exact ⟨Rounding.floors_le_groups (by decide) mem_workerIds,
    Rounding.groups_le_floors (by decide) mem_workerIds fun _ hid => workerTasks_ne_nil hid⟩

/-- What the view reports for each worker of a job whose payment fits. -/
theorem exists_views (hw : Reachable env P w) (hjob : w.job u j = some job)
    (hlen : job.tasks.length < 2 ^ 64) (hfits : job.payment.toNat * w.percentage < 2 ^ 64) :
    ∃ count pay : String → UInt64, ∀ id,
      PictorNetwork.getJobInfoByWorker w u j id = .ok (count id, pay id, job.isCompleted) ∧
        (count id).toNat = (workerTasks id job.tasks).length ∧
        (pay id).toNat = workerCosts id job.tasks * w.percentage / 10000 := by
  have hpos := hw.percentage_pos
  have hview : ∀ id, ∃ n pay, PictorNetwork.getJobInfoByWorker w u j id =
        .ok (n, pay, job.isCompleted) ∧ n.toNat = (workerTasks id job.tasks).length ∧
      pay.toNat = workerCosts id job.tasks * w.percentage / 10000 := by
    intro id
    have hcosts : workerCosts id job.tasks ≤ job.payment.toNat := by
      rw [hw.paymentsExact u j job hjob]
      exact workerCosts_le id job.tasks
    have hproduct := (Nat.mul_le_mul_right w.percentage hcosts).trans_lt hfits
    have hcount := (length_workerTasks_le id job.tasks).trans_lt hlen
    obtain ⟨⟨n, pay, done⟩, hr⟩ := (view_returns_iff hpos hjob id).mpr ⟨hcount, hproduct⟩
    obtain ⟨hn, -, hpay, rfl⟩ := (getJobInfoByWorker_eq_ok hpos hjob).mp hr
    exact ⟨n, pay, hr, hn, hpay⟩
  choose count pay hall using hview
  exact ⟨count, pay, hall⟩

/-- **Rounding is bounded**, in every reachable state: with `n` tasks of `W` distinct workers, what
the views report in total is at most the pool and less than `W` below it, and what a settlement pays
is at most that and at most `n - W` below it. -/
theorem rounding_bounded (hw : Reachable env P w) {n payment : UInt64} {done : Bool}
    (hinfo : PictorNetwork.getJobInfo w u j = .ok (n, payment, done)) (hn : 1 ≤ n.toNat)
    (hfits : payment.toNat * w.percentage < 2 ^ 64) :
    ∃ job, w.job u j = some job ∧ ∃ count pay : String → UInt64,
      (∀ id, PictorNetwork.getJobInfoByWorker w u j id = .ok (count id, pay id, done)) ∧
      ∑ id ∈ workerIds job.tasks, (count id).toNat = n.toNat ∧
      ∑ id ∈ workerIds job.tasks, (pay id).toNat ≤ payment.toNat * w.percentage / 10000 ∧
      payment.toNat * w.percentage / 10000 ≤ payment.toNat ∧
      payment.toNat * w.percentage / 10000 - ∑ id ∈ workerIds job.tasks, (pay id).toNat ≤
        (workerIds job.tasks).card - 1 ∧
      ∀ a w', exec env w (.txn a (.opCompleteJob u j)) = .ok w' →
        totalGain w w' ≤ ∑ id ∈ workerIds job.tasks, (pay id).toNat ∧
        ∑ id ∈ workerIds job.tasks, (pay id).toNat - totalGain w w' ≤
          n.toNat - (workerIds job.tasks).card ∧
        payment.toNat * w.percentage / 10000 - totalGain w w' ≤ n.toNat - 1 := by
  obtain ⟨job, hjob, hlen, rfl, rfl⟩ := getJobInfo_eq_ok.mp hinfo
  obtain ⟨count, pay, hviews⟩ := exists_views hw hjob (by rw [← hlen]; exact n.toNat_lt) hfits
  have hpayment : job.payment.toNat = (job.tasks.map fun t => t.cost.toNat).sum :=
    hw.paymentsExact u j job hjob
  have hreported : ∑ id ∈ workerIds job.tasks, (pay id).toNat = reported w job.tasks :=
    Finset.sum_congr rfl fun id _ => (hviews id).2.2
  have hcounted : ∑ id ∈ workerIds job.tasks, (count id).toNat = n.toNat := by
    rw [hlen, ← Rounding.length_groups mem_workerIds]
    exact Finset.sum_congr rfl fun id _ => (hviews id).2.1
  have hne : job.tasks ≠ [] := List.ne_nil_of_length_pos (by omega)
  obtain ⟨hbelow, hloss⟩ := reported_of_pool w hne
  obtain ⟨hbelow', hloss'⟩ := shares_of_reported w job.tasks
  rw [← hpayment, ← hreported] at hbelow hloss
  rw [← hreported] at hbelow' hloss'
  refine ⟨job, hjob, count, pay, fun id => (hviews id).1, hcounted, hbelow, ?_, by omega, ?_⟩
  · rw [hw.percentage]
    omega
  · intro a w' h
    have hcard := Finset.card_pos.mpr (workerIds_nonempty hne)
    rw [totalGain_of_settlement hw.closed h hjob]
    omega

/-- Four tasks of three workers. -/
theorem rounding_bounded_test :
    (100 : UInt64).toNat * (run testEnv testWorld sharedJob).percentage / 10000 -
        totalGain (run testEnv testWorld sharedJob)
          (run testEnv testWorld (sharedJob ++ [.txn 0xdad (.opCompleteJob 0xdead "job")])) ≤
      (4 : UInt64).toNat - 1 := by
  have hinfo : PictorNetwork.getJobInfo (run testEnv testWorld sharedJob) 0xdead "job" =
      .ok (4, 100, false) := by decide
  obtain ⟨_, _, _, _, _, _, _, _, _, hsettled⟩ :=
    rounding_bounded (testWorld_reachable sharedJob) hinfo (by decide) (by decide)
  exact (hsettled 0xdad _ (by decide)).2.2

end Pictor
