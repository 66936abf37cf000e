import Mathlib.Algebra.BigOperators.Ring.List
import Pictor.Lib.Rounding
import Pictor.Property.Ledger
import Pictor.Property.Settlement

/-!
# The worker's view of a job

`get_job_info_by_worker` adds up the costs of a worker's tasks and takes the percentage once;
`op_complete_job` takes it of each task. Both form their products before they divide. So the view
may report more than is paid, and both may overflow on a payment that has been accepted.
-/

namespace Pictor

variable {env : Env} {P : Token} {w w' : World} {a u : Address} {j : String} {job : Job}

/-! ## The tasks of one worker -/

/-- The tasks that name worker `id`. -/
def workerTasks (id : String) (tasks : List Task) : List Task :=
  Rounding.group Task.workerId id tasks

def workerCosts (id : String) (tasks : List Task) : ℕ :=
  ((workerTasks id tasks).map fun t => t.cost.toNat).sum

/-- What a settlement pays for the tasks that name `id`. -/
def workerEarnings (w : World) (id : String) (tasks : List Task) : ℕ :=
  ((workerTasks id tasks).map (share w)).sum

/-- The distinct worker ids. -/
def workerIds (tasks : List Task) : Finset String := (tasks.map Task.workerId).toFinset

theorem workerTasks_append (id : String) (s t : List Task) :
    workerTasks id (s ++ t) = workerTasks id s ++ workerTasks id t :=
  List.filter_append s t

theorem length_workerTasks_le (id : String) (tasks : List Task) :
    (workerTasks id tasks).length ≤ tasks.length :=
  List.length_filter_le _ _

theorem workerTasks_singleton (id : String) (t : Task) :
    workerTasks id [t] = if t.workerId = id then [t] else [] := by
  unfold workerTasks Rounding.group
  rw [List.filter_singleton]
  simp

theorem workerCosts_append (id : String) (s t : List Task) :
    workerCosts id (s ++ t) = workerCosts id s + workerCosts id t := by
  simp [workerCosts, workerTasks_append]

theorem mem_workerIds {tasks : List Task} : ∀ t ∈ tasks, t.workerId ∈ workerIds tasks :=
  fun _ ht => List.mem_toFinset.mpr (List.mem_map_of_mem ht)

/-- What the percentage is taken of, before the division. -/
theorem sum_scaled (w : World) (tasks : List Task) :
    (tasks.map fun t => t.cost.toNat * w.percentage).sum =
      (tasks.map fun t => t.cost.toNat).sum * w.percentage :=
  List.sum_map_mul_right ..

/-! ## When the view returns -/

/-- **The loop of the view**: it counts and adds up, and the running sums fit if the last ones
do. -/
theorem workerLoop_eq_ok {tasks : List Task} {id : String} {i : ℕ} {n p n' p' : UInt64}
    (hi : i ≤ tasks.length) :
    PictorNetwork.workerLoop tasks id i n p = .ok (n', p') ↔
      n'.toNat = n.toNat + (workerTasks id (tasks.take i)).length ∧
        p'.toNat = p.toNat + workerCosts id (tasks.take i) := by
  induction i generalizing n p with
  | zero =>
    simp only [PictorNetwork.workerLoop, List.take_zero, Except.ok.injEq, Prod.mk.injEq]
    rw [← UInt64.toNat_inj, ← UInt64.toNat_inj, eq_comm, eq_comm (a := p.toNat)]
    rfl
  | succ i ih =>
    have ht : tasks[i]? = some tasks[i] := List.getElem?_eq_getElem hi
    have htake : tasks.take (i + 1) = tasks.take i ++ [tasks[i]] := by
      rw [List.take_add_one, ht]
      rfl
    have hread : MoveVector.borrow tasks i = .ok tasks[i] := MoveVector.borrow_eq_ok.mpr ht
    rw [PictorNetwork.workerLoop, hread, Checked.ok_bind, htake, workerTasks_append,
      workerCosts_append]
    split
    · next hid =>
      have hone : workerTasks id [tasks[i]] = [tasks[i]] := by
        rw [workerTasks_singleton, if_pos hid]
      have hcost : workerCosts id [tasks[i]] = tasks[i].cost.toNat := by
        simp [workerCosts, hone]
      have hn' := n'.toNat_lt
      have hp' := p'.toNat_lt
      simp only [Checked.bind_eq_ok, U64.add_eq_ok, ih (Nat.le_of_succ_le hi), hone, hcost,
        List.length_append, List.length_singleton]
      constructor
      · rintro ⟨n₁, hn₁, p₁, hp₁, hn, hp⟩
        have hunit : (1 : UInt64).toNat = 1 := rfl
        omega
      · rintro ⟨hn, hp⟩
        have hn₁ : n.toNat + 1 < 2 ^ 64 := by omega
        have hp₁ : p.toNat + tasks[i].cost.toNat < 2 ^ 64 := by omega
        obtain ⟨n₁, hn₁⟩ := Checked.exists_toNat_eq.mpr hn₁
        obtain ⟨p₁, hp₁⟩ := Checked.exists_toNat_eq.mpr hp₁
        exact ⟨n₁, hn₁, p₁, hp₁, by omega, by omega⟩
    · next hid =>
      have hnone : workerTasks id [tasks[i]] = [] := by
        rw [workerTasks_singleton, if_neg hid]
      rw [ih (Nat.le_of_succ_le hi)]
      simp [workerCosts, hnone]

theorem getJobInfo_eq_ok {n payment : UInt64} {done : Bool} :
    PictorNetwork.getJobInfo w u j = .ok (n, payment, done) ↔
      ∃ job, w.job u j = some job ∧ n.toNat = job.tasks.length ∧ payment = job.payment ∧
        done = job.isCompleted := by
  simp only [PictorNetwork.getJobInfo, Checked.bind_eq_ok, PictorNetwork.userInfo_eq_ok,
    Checked.require_eq_ok, Table.contains_eq_true, Table.borrow_eq_ok, MoveVector.length_eq_ok,
    Checked.pure_eq_ok, Prod.mk.injEq, exists_const]
  constructor
  · rintro ⟨info, ⟨-, hinfo⟩, -, job, hjob, n', hn, rfl, rfl, rfl⟩
    exact ⟨job, by rw [World.job, Users.job_of_lookup hinfo, hjob], hn, rfl, rfl⟩
  · rintro ⟨job, hjob, hn, rfl, rfl⟩
    obtain ⟨info, -, hjob', hread, -⟩ := PictorNetwork.exists_userInfo hjob
    exact ⟨info, PictorNetwork.userInfo_eq_ok.mp hread, ⟨job, hjob'⟩, job, hjob', n, hn, rfl, rfl,
      rfl⟩

/-- **When the view returns**, and what: the worker's costs have to fit with the percentage
multiplied in. -/
theorem getJobInfoByWorker_eq_ok (hpos : 0 < w.percentage) (hjob : w.job u j = some job)
    {id : String} {n pay : UInt64} {done : Bool} :
    PictorNetwork.getJobInfoByWorker w u j id = .ok (n, pay, done) ↔
      n.toNat = (workerTasks id job.tasks).length ∧
        workerCosts id job.tasks * w.percentage < 2 ^ 64 ∧
        pay.toNat = workerCosts id job.tasks * w.percentage / 10000 ∧ done = job.isCompleted := by
  obtain ⟨info, -, hjob', hread, -⟩ := PictorNetwork.exists_userInfo hjob
  obtain ⟨c, hc⟩ : ∃ c, w.config = some c := by
    cases hcfg : w.config with
    | some c => exact ⟨c, rfl⟩
    | none =>
      rw [World.percentage, hcfg] at hpos
      exact absurd hpos (Nat.lt_irrefl 0)
  have hp := percentage_of_config hc
  have hd : PictorConfig.getDenominator.toNat = 10000 := rfl
  simp only [PictorNetwork.getJobInfoByWorker, hread, Checked.ok_bind, Checked.bind_eq_ok,
    Checked.require_eq_ok, Table.contains_eq_true, hjob', Table.borrow_eq_ok,
    PictorConfig.getWorkerEarningPercentage_eq_ok, hc, Option.some.injEq,
    workerLoop_eq_ok (Nat.le_refl _), List.take_length, U64.mul_eq_ok, U64.div_eq_ok, hd,
    Checked.pure_eq_ok, Prod.mk.injEq, Prod.exists, exists_const, exists_eq', exists_eq_left', hp]
  have hzero : (0 : UInt64).toNat = 0 := rfl
  rw [hzero, Nat.zero_add, Nat.zero_add]
  constructor
  · rintro ⟨-, n', costs, ⟨hn, hcosts⟩, scaled, hscaled, pay', ⟨-, hpay⟩, rfl, rfl, rfl⟩
    rw [hcosts] at hscaled
    rw [hscaled] at hpay
    exact ⟨hn, hscaled ▸ scaled.toNat_lt, hpay, rfl⟩
  · rintro ⟨hn, hfits, hpay, rfl⟩
    obtain ⟨scaled, hscaled⟩ := Checked.exists_toNat_eq.mpr hfits
    -- the percentage is not zero, so the costs fit if their product with it does
    have hsum : workerCosts id job.tasks < 2 ^ 64 :=
      (Nat.le_mul_of_pos_right _ (hp ▸ hpos)).trans_lt hfits
    obtain ⟨costs, hcosts⟩ := Checked.exists_toNat_eq.mpr hsum
    exact ⟨trivial, n, costs, ⟨hn, hcosts⟩, scaled, by rw [hscaled, hcosts], pay,
      ⟨by decide, by rw [hpay, hscaled]⟩, rfl, rfl, rfl⟩

/-- The product can overflow, and the count, although no vector on the chain is that long. -/
theorem view_returns_iff (hpos : 0 < w.percentage) (hjob : w.job u j = some job) (id : String) :
    (∃ r, PictorNetwork.getJobInfoByWorker w u j id = .ok r) ↔
      (workerTasks id job.tasks).length < 2 ^ 64 ∧
        workerCosts id job.tasks * w.percentage < 2 ^ 64 := by
  constructor
  · rintro ⟨⟨n, pay, done⟩, h⟩
    obtain ⟨hn, hfits, -⟩ := (getJobInfoByWorker_eq_ok hpos hjob).mp h
    exact ⟨hn ▸ n.toNat_lt, hfits⟩
  · rintro ⟨hcount, hfits⟩
    obtain ⟨n, hn⟩ := Checked.exists_toNat_eq.mpr hcount
    obtain ⟨pay, hpay⟩ := Checked.exists_toNat_eq.mpr
      ((Nat.div_le_self (workerCosts id job.tasks * w.percentage) 10000).trans_lt hfits)
    exact ⟨(n, pay, job.isCompleted),
      (getJobInfoByWorker_eq_ok hpos hjob).mpr ⟨hn, hfits, hpay, rfl⟩⟩

/-! ## Which payments can be paid out -/

/-- What may be multiplied with the percentage. -/
theorem Reachable.product_fits_iff (hw : Reachable env P w) (n : ℕ) :
    n * w.percentage < 2 ^ 64 ↔ n ≤ 3074457345618258 := by
  rw [hw.percentage]
  omega

theorem cost_le_workerCosts {t : Task} {tasks : List Task} (ht : t ∈ tasks) :
    t.cost.toNat ≤ workerCosts t.workerId tasks := by
  have hmem : t ∈ workerTasks t.workerId tasks :=
    List.mem_filter.mpr ⟨ht, decide_eq_true rfl⟩
  exact List.le_sum_of_mem (List.mem_map_of_mem hmem)

theorem workerCosts_le (id : String) (tasks : List Task) :
    workerCosts id tasks ≤ (tasks.map fun t => t.cost.toNat).sum :=
  (List.filter_sublist.map _).sum_le_sum fun _ _ => Nat.zero_le _

/-- What has been charged for a job can be paid out: no product that its settlement or a worker's
view forms overflows. -/
structure PayoutFits (env : Env) (w : World) (u : Address) (j : String) (job : Job) : Prop where
  shares : ∀ t ∈ job.tasks, ∃ p s, PictorConfig.getWorkerEarningPercentage w = .ok p ∧
    U64.mul t.cost p = .ok s
  views : ∀ id, ∃ r, PictorNetwork.getJobInfoByWorker w u j id = .ok r
  /-- Then nothing but the balances can overflow in a settlement. -/
  settles : ∀ a ∈ w.operators, (∀ x, w.balance x + earnings x w job.tasks < 2 ^ 64) →
    ∃ w', exec env w (.txn a (.opCompleteJob u j)) = .ok w'

/-- **When a payment can be paid out**: each worker's part of it is at most
`⌊(2 ^ 64 - 1) / 6000⌋`. That her tasks can be counted holds of every vector on the chain. -/
theorem payout_fits_iff (hw : Reachable env P w) (hjob : w.job u j = some job)
    (howned : ∀ t ∈ job.tasks, ∃ o, w.workerOwner t.workerId = some o) :
    PayoutFits env w u j job ↔ ∀ id, (workerTasks id job.tasks).length < 2 ^ 64 ∧
      workerCosts id job.tasks ≤ 3074457345618258 := by
  have hview := view_returns_iff hw.percentage_pos hjob
  constructor
  · intro hfits id
    obtain ⟨hcount, hproduct⟩ := (hview id).mp (hfits.views id)
    exact ⟨hcount, (hw.product_fits_iff _).mp hproduct⟩
  · intro hbound
    have hproducts : ∀ t ∈ job.tasks, t.cost.toNat * w.percentage < 2 ^ 64 := by
      intro t ht
      exact (hw.product_fits_iff _).mpr ((cost_le_workerCosts ht).trans (hbound t.workerId).2)
    obtain ⟨treasury, c, hc, -⟩ := hw.configured
    constructor
    case shares =>
      intro t ht
      have hproduct := hproducts t ht
      rw [percentage_of_config hc] at hproduct
      obtain ⟨s, hs⟩ := U64.exists_mul.mpr hproduct
      exact ⟨c.workerEarningPercentage, s,
        PictorConfig.getWorkerEarningPercentage_eq_ok.mpr ⟨c, hc, rfl⟩, hs⟩
    case views =>
      intro id
      obtain ⟨hcount, hcosts⟩ := hbound id
      exact (hview id).mpr ⟨hcount, (hw.product_fits_iff _).mpr hcosts⟩
    case settles =>
      intro a hop hbalance
      exact (opCompleteJob_returns_iff hw.closed hop hjob).mpr ⟨howned, hproducts, hbalance⟩

/-- The job of `settlement` is small enough. -/
theorem payout_fits_iff_test :
    PayoutFits testEnv (run testEnv testWorld (settlement.take 5)) 0xdead "job"
      ⟨[⟨1, "worker", 100, 1⟩], 100, false⟩ :=
  (payout_fits_iff (testWorld_reachable (settlement.take 5)) (by decide)
    (fun _ ht => ⟨0xdead, by rw [List.mem_singleton.mp ht]; decide⟩)).mpr fun id =>
      ⟨(length_workerTasks_le id _).trans_lt (by decide), (workerCosts_le id _).trans (by decide)⟩

/-- A task of cost `2 ^ 63`, paid from granted credit. -/
def largeTask : List Action :=
  [.txn 0xcafe (.addOperator 0xdad), .txn 0xdad (.opRegisterWorker 0xdead "worker"),
    .txn 0xdad (.opCreateJob 0xdead "job"),
    .txn 0xdad (.opCreditUser 0xdead 9223372036854775808),
    .txn 0xdad (.opAddTask 0xdead "job" 1 "worker" 9223372036854775808 1)]

/-- **A charged task that can not be paid out**: settlement and view both overflow. -/
theorem large_task_stuck :
    (run testEnv testWorld largeTask).job 0xdead "job" =
        some ⟨[⟨1, "worker", 9223372036854775808, 1⟩], 9223372036854775808, false⟩ ∧
      (run testEnv testWorld largeTask).workerOwner "worker" = some 0xdead ∧
      exec testEnv (run testEnv testWorld largeTask) (.txn 0xdad (.opCompleteJob 0xdead "job")) =
        .error .arithmeticError ∧
      PictorNetwork.getJobInfoByWorker (run testEnv testWorld largeTask) 0xdead "job" "worker" =
        .error .arithmeticError ∧
      ¬ PayoutFits testEnv (run testEnv testWorld largeTask) 0xdead "job"
        ⟨[⟨1, "worker", 9223372036854775808, 1⟩], 9223372036854775808, false⟩ := by
  have hview : PictorNetwork.getJobInfoByWorker (run testEnv testWorld largeTask) 0xdead "job"
      "worker" = .error .arithmeticError := by decide
  refine ⟨by decide, by decide, by decide, hview, fun hfits => ?_⟩
  obtain ⟨r, hr⟩ := hfits.views "worker"
  rw [hview] at hr
  cases hr

end Pictor
