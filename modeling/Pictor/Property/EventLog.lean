import Mathlib.Algebra.BigOperators.Group.Finset.Piecewise
import Pictor.Contract.Events
import Pictor.Property.Registry
import Pictor.Property.Ledger

/-!
# What the event log tells

An indexer that replays the log has, for every job id that one user only has used, that user's job,
up to the durations that are not logged; and if no id is shared, she has what every worker owner
was ever paid. When ids are shared she can not tell whose task is whose, but their costs still add
up to the payments.
-/

namespace Pictor

variable {env : Env} {P : Token} {treasury : Address} {pk : List UInt8} {w w' w₀ : World}

def Task.logged (t : Task) : LoggedTask := ⟨t.taskId, t.workerId, t.cost⟩

def Job.indexed (job : Job) (u : Address) : IndexedJob :=
  ⟨u, job.tasks.map Task.logged, job.isCompleted⟩

/-- At most one user has a job with the id `j`. -/
def SoleUser (w : World) (j : String) : Prop := ∀ u v, w.job u j ≠ none → w.job v j ≠ none → u = v

/-- The indexer knows the job `j`, or knows that there is none. -/
structure Knows (w : World) (ix : Indexer) (j : String) : Prop where
  found : ∀ u job, w.job u j = some job → ix.jobs j = some (job.indexed u)
  absent : (∀ u, w.job u j = none) → ix.jobs j = none

/-! ## One action -/

theorem SoleUser.of_extends {j : String} (he : Extends w w') (h : SoleUser w' j) :
    SoleUser w j := by
  have hkept : ∀ u, w.job u j ≠ none → w'.job u j ≠ none := by
    intro u hu
    obtain ⟨job, hjob⟩ := Option.ne_none_iff_exists'.mp hu
    obtain ⟨job', hjob', -⟩ := he.job u j job hjob
    rw [hjob']
    exact Option.some_ne_none _
  exact fun u v hu hv => h u v (hkept u hu) (hkept v hv)

/-- What an action emits is about its target. -/
theorem replay_emits_of_target_ne (owner : String → Option Address) (ix : Indexer) {act : Action}
    {j : String} (h : ∀ u, targetJob act ≠ some (u, j)) :
    (ix.replay owner (emits act)).jobs j = ix.jobs j := by
  unfold emits
  split
  · next u k => exact Function.update_of_ne (fun hk => h u (by rw [hk]; rfl)) ..
  · next u k _ _ _ _ => exact Function.update_of_ne (fun hk => h u (by rw [hk]; rfl)) ..
  · next u k => exact Function.update_of_ne (fun hk => h u (by rw [hk]; rfl)) ..
  · rfl
  · rfl

theorem knows_step (owner : String → Option Address) {ix : Indexer} {act : Action} {j : String}
    (h : exec env w act = .ok w') (hsole : SoleUser w' j) (hix : Knows w ix j) :
    Knows w' (ix.replay owner (emits act)) j := by
  have he := exec_effect h
  by_cases ht : ∃ u, targetJob act = some (u, j)
  · obtain ⟨u, ht⟩ := ht
    have haccepted := exec_accepted h
    -- nobody else has a job of that id
    have hself : ∀ job, w'.job u j = some job →
        (ix.replay owner (emits act)).jobs j = some (job.indexed u) →
        Knows w' (ix.replay owner (emits act)) j := by
      intro job hjob hknown
      refine ⟨fun v job' hjob' => ?_, fun hnone => absurd (hnone u) (by simp [hjob])⟩
      obtain rfl := hsole u v (by simp [hjob]) (by simp [hjob'])
      rw [hjob, Option.some.injEq] at hjob'
      exact hjob' ▸ hknown
    rcases targetJob_cases ht with ⟨a, rfl⟩ | ⟨a, t, rfl⟩ | ⟨a, rfl⟩
    · have hnew : w'.job u j = some PictorNetwork.newJob := (he.job u j).trans (if_pos ⟨rfl, rfl⟩)
      exact hself _ hnew (Function.update_self ..)
    · obtain ⟨-, -, job, hjob, -⟩ := haccepted
      have hgrown : w'.job u j = some (job.addTask t) := by
        rw [he.job, hjob]
        exact if_pos ⟨rfl, rfl⟩
      refine hself _ hgrown ((Function.update_self ..).trans ?_)
      rw [hix.found u job hjob]
      simp [Job.indexed, Job.addTask, Task.logged]
    · obtain ⟨-, job, hjob, -⟩ := haccepted
      have hdone : w'.job u j = some job.complete := by
        rw [he.job, hjob]
        exact if_pos ⟨rfl, rfl⟩
      refine hself _ hdone ((Function.update_self ..).trans ?_)
      rw [show (ix.pay owner j).jobs j = ix.jobs j from rfl, hix.found u job hjob]
      rfl
  · have hframe : ∀ u, targetJob act ≠ some (u, j) := fun u hu => ht ⟨u, hu⟩
    have hjobs : ∀ u, w'.job u j = w.job u j := by
      intro u
      rw [he.job, jobAfter_of_target_ne (hframe u)]
    have hix' := replay_emits_of_target_ne owner ix hframe
    refine ⟨fun u job hjob => ?_, fun hnone => ?_⟩
    · rw [hix']
      exact hix.found u job (hjobs u ▸ hjob)
    · rw [hix']
      exact hix.absent fun u => (hjobs u).symm.trans (hnone u)

/-! ## What completions pay -/

/-- The log does not say who owns a worker, but whoever is paid is still its owner later. -/
theorem loggedEarnings_eq {owner : String → Option Address} (hp : w.percentage = 6000)
    (howner : ∀ id o, w.workerOwner id = some o → owner id = some o) (x : Address)
    {tasks : List Task} (howned : ∀ t ∈ tasks, ∃ o, w.workerOwner t.workerId = some o) :
    loggedEarnings owner x (tasks.map Task.logged) = earnings x w tasks := by
  unfold loggedEarnings earnings share
  rw [List.map_map, hp]
  refine congrArg List.sum (List.map_congr_left fun t ht => ?_)
  obtain ⟨o, ho⟩ := howned t ht
  show (if owner t.workerId = some x then _ else 0) = _
  rw [howner _ o ho, ho]
  rfl

theorem earned_step {owner : String → Option Address} {ix : Indexer} {act : Action}
    (h : exec env w act = .ok w') (hp : w.percentage = 6000)
    (howner : ∀ id o, w.workerOwner id = some o → owner id = some o) (hix : ∀ j, Knows w ix j)
    (x : Address) :
    (ix.replay owner (emits act)).earned x = ix.earned x + paid x w act := by
  have haccepted := exec_accepted h
  unfold paid
  split
  · next v j =>
    obtain ⟨-, job, hjob, howned⟩ := haccepted
    rw [hjob, Option.elim_some, ← loggedEarnings_eq hp howner x howned]
    show ix.earned x + (ix.jobs j).elim 0 _ = _
    rw [(hix j).found v job hjob]
    rfl
  · next hother =>
    -- nothing but a completion pays
    unfold emits
    split
    · rfl
    · rfl
    · next a v j => exact absurd rfl (hother a v j)
    · rfl
    · rfl

/-! ## Over a run -/

theorem knows_run (h₀ : JustInitialised env P treasury pk w₀) (owner : String → Option Address)
    (as : List Action) {j : String} (hsole : SoleUser (run env w₀ as) j) :
    Knows (run env w₀ as) (Indexer.empty.replay owner (eventLog env w₀ as)) j := by
  refine Transactions.run_induction
    (I := fun h s => SoleUser s j → Knows s (Indexer.empty.replay owner (logged h)) j) ?_ ?_ as
    hsole
  · refine fun _ => ⟨fun u job hjob => ?_, fun _ => rfl⟩
    rw [(initial_account h₀ u).2.2 j] at hjob
    cases hjob
  · intro h s act s' hs hstep hsole'
    rw [logged_concat, Indexer.replay_append]
    exact knows_step owner hstep hsole' (hs (hsole'.of_extends (exec_extends hstep)))

theorem earned_run (h₀ : JustInitialised env P treasury pk w₀) (as : List Action)
    (hsole : ∀ j, SoleUser (run env w₀ as) j) (x : Address) :
    (Indexer.empty.replay (run env w₀ as).workerOwner (eventLog env w₀ as)).earned x =
      total (paid x) (history env w₀ as) := by
  -- the registry is the one at the end, whatever prefix of the log has been read
  suffices hgen : ∀ owner : String → Option Address,
      Configured env P treasury (run env w₀ as) ∧
      ((∀ id o, (run env w₀ as).workerOwner id = some o → owner id = some o) →
        (∀ j, SoleUser (run env w₀ as) j) →
        (∀ j, Knows (run env w₀ as) (Indexer.empty.replay owner (eventLog env w₀ as)) j) ∧
        (Indexer.empty.replay owner (eventLog env w₀ as)).earned x =
          total (paid x) (history env w₀ as)) from
    ((hgen _).2 (fun _ _ ho => ho) hsole).2
  intro owner
  refine Transactions.run_induction (I := fun h s => Configured env P treasury s ∧
      ((∀ id o, s.workerOwner id = some o → owner id = some o) → (∀ j, SoleUser s j) →
        (∀ j, Knows s (Indexer.empty.replay owner (logged h)) j) ∧
        (Indexer.empty.replay owner (logged h)).earned x = total (paid x) h)) ?_ ?_ as
  · refine ⟨configured_initial h₀, fun _ _ => ⟨fun j => ⟨fun u job hjob => ?_, fun _ => rfl⟩, rfl⟩⟩
    rw [(initial_account h₀ u).2.2 j] at hjob
    cases hjob
  · rintro h s act s' ⟨hc, hs⟩ hstep
    refine ⟨configured_preserved env P treasury s act s' hc hstep, fun howner' hsole' => ?_⟩
    have hext := exec_extends hstep
    have howner : ∀ id o, s.workerOwner id = some o → owner id = some o :=
      fun id o ho => howner' id o (hext.workerOwner id o ho)
    obtain ⟨hknows, hearned⟩ := hs howner fun j => (hsole' j).of_extends hext
    rw [logged_concat, Indexer.replay_append, Transactions.total_append,
      Transactions.total_singleton]
    exact ⟨fun j => knows_step owner hstep (hsole' j) (hknows j),
      (earned_step hstep hc.percentage howner hknows x).trans (congrArg (· + _) hearned)⟩

/-- **The log rebuilds the jobs.** Under an id that only one user has used, the indexer has that
user's job, with the payment as the sum of the logged costs, and no other job. -/
theorem log_rebuilds_jobs (h₀ : JustInitialised env P treasury pk w₀)
    (owner : String → Option Address) (as : List Action) {j : String}
    (hsole : SoleUser (run env w₀ as) j) (known : IndexedJob) :
    (Indexer.empty.replay owner (eventLog env w₀ as)).jobs j = some known ↔
      ∃ u job, (run env w₀ as).job u j = some job ∧ known.userAddr = u ∧
        known.tasks = job.tasks.map Task.logged ∧ known.isCompleted = job.isCompleted ∧
        job.payment.toNat = (known.tasks.map fun t => t.cost.toNat).sum := by
  have hknows := knows_run h₀ owner as hsole
  have hexact : PaymentsExact (run env w₀ as) :=
    Transactions.invariant (paymentsExact_preserved env) (paymentsExact_initial h₀) as
  constructor
  · intro hfound
    -- somebody has the job, or it would not be known
    obtain ⟨u, hu⟩ : ∃ u, (run env w₀ as).job u j ≠ none := by
      by_contra hnone
      have habsent := hknows.absent fun u => not_not.mp fun hu => hnone ⟨u, hu⟩
      rw [habsent] at hfound
      cases hfound
    obtain ⟨job, hjob⟩ := Option.ne_none_iff_exists'.mp hu
    rw [hknows.found u job hjob, Option.some.injEq] at hfound
    subst hfound
    refine ⟨u, job, hjob, rfl, rfl, rfl, ?_⟩
    rw [hexact u j job hjob, Job.costs, Job.indexed, List.map_map]
    rfl
  · rintro ⟨u, job, hjob, huser, htasks, hdone, -⟩
    rw [hknows.found u job hjob, Job.indexed]
    cases known
    cases huser
    cases htasks
    cases hdone
    rfl

/-- **The log rebuilds the earnings.** If no job id is shared, the indexer has what every worker
owner still has, plus what she withdrew or spent on tasks of her own. -/
theorem log_rebuilds_earnings (h₀ : JustInitialised env P treasury pk w₀) (as : List Action)
    (hsole : ∀ j, SoleUser (run env w₀ as) j) (x : Address) :
    (Indexer.empty.replay (run env w₀ as).workerOwner (eventLog env w₀ as)).earned x =
      (run env w₀ as).balance x + total (withdrawn x) (history env w₀ as) +
        total (chargedToBalance x) (history env w₀ as) := by
  rw [earned_run h₀ as hsole, balance_run h₀ as x]

/-- In the settlement of the tests there is one user. -/
theorem soleUser_settlement (j : String) : SoleUser (run testEnv testWorld settlement) j := by
  have hkeys : (run testEnv testWorld settlement).users.keys = {0xdead} := by decide
  have honly : ∀ u, (run testEnv testWorld settlement).job u j ≠ none → u = 0xdead := by
    intro u hu
    obtain ⟨job, hjob⟩ := Option.ne_none_iff_exists'.mp hu
    have hmem := World.registered_iff_mem_keys.mp (World.registered_of_job hjob)
    rw [hkeys] at hmem
    exact Finset.mem_singleton.mp hmem
  intro u v hu hv
  rw [honly u hu, honly v hv]

theorem log_rebuilds_jobs_test :
    (Indexer.empty.replay (fun _ => none) (eventLog testEnv testWorld settlement)).jobs "job" =
        some ⟨0xdead, [⟨1, "worker", 100⟩], true⟩ ↔
      ∃ u job, (run testEnv testWorld settlement).job u "job" = some job ∧ 0xdead = u ∧
        [⟨1, "worker", 100⟩] = job.tasks.map Task.logged ∧ true = job.isCompleted ∧
        job.payment.toNat = 100 :=
  log_rebuilds_jobs testWorld_justInitialised (fun _ => none) settlement
    (soleUser_settlement "job") ⟨0xdead, [⟨1, "worker", 100⟩], true⟩

theorem log_rebuilds_earnings_test :
    (Indexer.empty.replay (run testEnv testWorld settlement).workerOwner
        (eventLog testEnv testWorld settlement)).earned 0xdead =
      (run testEnv testWorld settlement).balance 0xdead +
        total (withdrawn 0xdead) (history testEnv testWorld settlement) +
        total (chargedToBalance 0xdead) (history testEnv testWorld settlement) :=
  log_rebuilds_earnings testWorld_justInitialised settlement soleUser_settlement 0xdead

/-! ## Ids that are shared -/

/-- The payments of all users' jobs with the id `j`. -/
def sharedPayments (w : World) (j : String) : ℕ :=
  ∑ u ∈ w.users.keys, (w.job u j).elim 0 fun job => job.payment.toNat

/-- The cost an event logs for `j`. -/
def loggedCost (j : String) : ContractEvent → ℕ
  | .taskAdded k _ _ cost => if k = j then cost.toNat else 0
  | _ => 0

/-- The costs a log has for `j`. -/
def loggedCosts (j : String) (log : List ContractEvent) : ℕ := (log.map (loggedCost j)).sum

/-- What an action adds to the payment of `u`'s job `j`. -/
def addedTo (u : Address) (j : String) : Action → ℕ
  | .txn _ (.opAddTask v k _ _ cost _) => if v = u ∧ k = j then cost.toNat else 0
  | _ => 0

theorem payment_step {act : Action} (h : exec env w act = .ok w') (u : Address) (j : String) :
    (w'.job u j).elim 0 (fun job => job.payment.toNat) =
      (w.job u j).elim 0 (fun job => job.payment.toNat) + addedTo u j act := by
  have haccepted := exec_accepted h
  rw [(exec_effect h).job]
  by_cases ht : targetJob act = some (u, j)
  · rcases targetJob_cases ht with ⟨a, rfl⟩ | ⟨a, t, rfl⟩ | ⟨a, rfl⟩
    · rw [haccepted.2]
      simp [jobAfter, addedTo, PictorNetwork.newJob]
    · obtain ⟨-, -, job, hjob, hfits⟩ := haccepted
      rw [hjob]
      simp [jobAfter, addedTo, payment_addTask hfits]
    · obtain ⟨-, job, hjob, -⟩ := haccepted
      rw [hjob]
      simp [jobAfter, addedTo, Job.complete]
  · have hzero : addedTo u j act = 0 := by
      unfold addedTo
      split
      · rw [if_neg]
        rintro ⟨rfl, rfl⟩
        exact ht rfl
      · rfl
    rw [jobAfter_of_target_ne ht, hzero, Nat.add_zero]

theorem sharedPayments_step {act : Action} (h : exec env w act = .ok w') (j : String) :
    sharedPayments w' j = sharedPayments w j + loggedCosts j (emits act) := by
  have hsub : w.users.keys ⊆ w'.users.keys := by
    intro u hu
    exact World.registered_iff_mem_keys.mp
      ((exec_extends h).registered u (World.registered_iff_mem_keys.mpr hu))
  have hold : sharedPayments w j =
      ∑ u ∈ w'.users.keys, (w.job u j).elim 0 fun job => job.payment.toNat := by
    refine Finset.sum_subset hsub fun u _ hu => ?_
    have hnone : w.job u j = none := by
      by_contra hjob
      obtain ⟨job, hjob⟩ := Option.ne_none_iff_exists'.mp hjob
      exact hu (World.registered_iff_mem_keys.mp (World.registered_of_job hjob))
    rw [hnone]
    rfl
  have hadded : ∑ u ∈ w'.users.keys, addedTo u j act = loggedCosts j (emits act) := by
    have haccepted := exec_accepted h
    unfold addedTo
    split
    · next v k _ _ cost _ =>
      obtain ⟨-, -, job, hjob, -⟩ := haccepted
      have hv : v ∈ w'.users.keys :=
        hsub (World.registered_iff_mem_keys.mp (World.registered_of_job hjob))
      by_cases hk : k = j
      · simp [hk, hv, emits, loggedCosts, loggedCost]
      · simp [hk, emits, loggedCosts, loggedCost]
    · next hother =>
      rw [Finset.sum_const_zero]
      unfold emits
      split
      · rfl
      · next a u k t id c d => exact absurd rfl (hother a u k t id c d)
      · rfl
      · rfl
      · rfl
  rw [sharedPayments, hold, ← hadded, ← Finset.sum_add_distrib]
  exact Finset.sum_congr rfl fun u _ => payment_step h u j

theorem mem_emits_jobCreated {act : Action} {u : Address} {j : String} :
    .jobCreated u j ∈ emits act ↔ ∃ a, act = .txn a (.opCreateJob u j) := by
  unfold emits
  split <;> simp_all [eq_comm]

theorem mem_emits_jobCompleted {act : Action} {j : String} :
    .jobCompleted j ∈ emits act ↔ ∃ a u, act = .txn a (.opCompleteJob u j) := by
  unfold emits
  split <;> simp_all [eq_comm]

theorem job_exists_step {act : Action} (h : exec env w act = .ok w') (u : Address) (j : String) :
    (∃ job, w'.job u j = some job) ↔
      (∃ job, w.job u j = some job) ∨ .jobCreated u j ∈ emits act := by
  have he := exec_effect h
  rw [mem_emits_jobCreated]
  constructor
  · rintro ⟨job', hjob'⟩
    rw [he.job] at hjob'
    rcases jobAfter_cases hjob' with hold | ⟨a, rfl, -⟩ | ⟨a, t, job, -, hold, -⟩ |
      ⟨a, job, -, hold, -⟩
    · exact .inl ⟨job', hold⟩
    · exact .inr ⟨a, rfl⟩
    · exact .inl ⟨job, hold⟩
    · exact .inl ⟨job, hold⟩
  · rintro (⟨job, hjob⟩ | ⟨a, rfl⟩)
    · obtain ⟨job', hjob', -⟩ := (exec_extends h).job u j job hjob
      exact ⟨job', hjob'⟩
    · exact ⟨PictorNetwork.newJob, (he.job u j).trans (if_pos ⟨rfl, rfl⟩)⟩

theorem completed_step {act : Action} (h : exec env w act = .ok w') (j : String) :
    (∃ u job, w'.job u j = some job ∧ job.isCompleted = true) ↔
      (∃ u job, w.job u j = some job ∧ job.isCompleted = true) ∨ .jobCompleted j ∈ emits act := by
  have he := exec_effect h
  rw [mem_emits_jobCompleted]
  constructor
  · rintro ⟨u, job', hjob', hdone⟩
    rw [he.job] at hjob'
    rcases jobAfter_cases hjob' with hold | ⟨a, -, rfl⟩ | ⟨a, t, job, -, hold, rfl⟩ |
      ⟨a, job, rfl, -, -⟩
    · exact .inl ⟨u, job', hold, hdone⟩
    · cases hdone
    · exact .inl ⟨u, job, hold, hdone⟩
    · exact .inr ⟨a, u, rfl⟩
  · rintro (⟨u, job, hjob, hdone⟩ | ⟨a, u, rfl⟩)
    · obtain ⟨job', hjob', -, hkept⟩ := (exec_extends h).job u j job hjob
      exact ⟨u, job', hjob', hkept hdone⟩
    · obtain ⟨-, job, hjob, -⟩ := exec_accepted h
      refine ⟨u, job.complete, ?_, rfl⟩
      rw [he.job, hjob]
      exact if_pos ⟨rfl, rfl⟩

theorem loggedCosts_append (j : String) (log log' : List ContractEvent) :
    loggedCosts j (log ++ log') = loggedCosts j log + loggedCosts j log' := by
  simp [loggedCosts]

/-- **The log accounts for every job id**, shared or not: who has a job of this id, whether one has
been settled, and what all of them cost. -/
theorem log_accounts_for_ids (h₀ : JustInitialised env P treasury pk w₀) (as : List Action)
    (j : String) :
    (∀ u, (∃ job, (run env w₀ as).job u j = some job) ↔ .jobCreated u j ∈ eventLog env w₀ as) ∧
    ((∃ u job, (run env w₀ as).job u j = some job ∧ job.isCompleted = true) ↔
      .jobCompleted j ∈ eventLog env w₀ as) ∧
    sharedPayments (run env w₀ as) j = loggedCosts j (eventLog env w₀ as) := by
  refine Transactions.run_induction (I := fun h s =>
    (∀ u, (∃ job, s.job u j = some job) ↔ .jobCreated u j ∈ logged h) ∧
    ((∃ u job, s.job u j = some job ∧ job.isCompleted = true) ↔ .jobCompleted j ∈ logged h) ∧
    sharedPayments s j = loggedCosts j (logged h)) ?_ ?_ as
  · have hnone : ∀ u, w₀.job u j = none := fun u => (initial_account h₀ u).2.2 j
    have husers : w₀.users.keys = ∅ := by
      obtain ⟨l, -, rfl⟩ := justInitialised_iff.mp h₀
      rfl
    refine ⟨fun u => ?_, ?_, ?_⟩
    · simp [hnone, logged]
    · simp [hnone, logged]
    · rw [sharedPayments, husers]
      rfl
  · rintro h s act s' ⟨hcreated, hcompleted, hcosts⟩ hstep
    rw [logged_concat]
    refine ⟨fun u => ?_, ?_, ?_⟩
    · rw [job_exists_step hstep, hcreated, List.mem_append]
    · rw [completed_step hstep, hcompleted, List.mem_append]
    · rw [sharedPayments_step hstep, hcosts, loggedCosts_append]

theorem log_accounts_for_ids_test :
    (∀ u, (∃ job, (run testEnv testWorld settlement).job u "job" = some job) ↔
      .jobCreated u "job" ∈ eventLog testEnv testWorld settlement) ∧
    ((∃ u job, (run testEnv testWorld settlement).job u "job" = some job ∧
        job.isCompleted = true) ↔
      .jobCompleted "job" ∈ eventLog testEnv testWorld settlement) ∧
    sharedPayments (run testEnv testWorld settlement) "job" =
      loggedCosts "job" (eventLog testEnv testWorld settlement) :=
  log_accounts_for_ids testWorld_justInitialised settlement "job"

end Pictor
