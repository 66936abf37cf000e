import Pictor.Property.Registry

/-!
# Who is paid for a task

A task names its worker by id, and the owner of the id is looked up when the job is settled. Worker
ownership never changes, so the beneficiary is fixed when the task is added, *provided* the id has
an owner at that moment. `op_add_task` does not ask (the error code `EWORKER_NOT_REGISTERED` is
declared and never raised): a task with an unknown id can be added, keeps its job from being
settled, and goes to whoever registers the id first.
-/

namespace Pictor

variable {env : Env} {P : Token} {treasury : Address} {pk : List UInt8} {w w' : World}

/-- The worker id of the task an action adds. -/
def addedWorker : Action → Option String
  | .txn _ (.opAddTask _ _ _ id _ _) => some id
  | _ => none

/-- A task that is added names a worker registered at that moment. -/
def NamesRegisteredWorker (w : World) (act : Action) : Prop :=
  ∀ id ∈ addedWorker act, (w.workerOwner id).isSome = true

instance (w : World) (act : Action) : Decidable (NamesRegisteredWorker w act) :=
  inferInstanceAs (Decidable (∀ id ∈ addedWorker act, (w.workerOwner id).isSome = true))

/-- Every task of every job has an owner to pay. -/
def TasksOwned (w : World) : Prop :=
  ∀ u j job, w.job u j = some job → ∀ t ∈ job.tasks, ∃ o, w.workerOwner t.workerId = some o

/-- The tasks after an action are those before, and the one it adds. -/
theorem mem_tasks_of_jobAfter {act : Action} {x : Address} {k : String} {old : Option Job}
    {job' : Job} (h : jobAfter act x k old = some job') {t : Task} (ht : t ∈ job'.tasks) :
    (∃ job, old = some job ∧ t ∈ job.tasks) ∨ addedWorker act = some t.workerId := by
  rcases jobAfter_cases h with hold | ⟨a, rfl, rfl⟩ | ⟨a, t', job, rfl, hold, rfl⟩ |
    ⟨a, job, rfl, hold, rfl⟩
  · exact .inl ⟨job', hold, ht⟩
  · cases ht
  · rcases List.mem_append.mp ht with ht | ht
    · exact .inl ⟨job, hold, ht⟩
    · rw [List.mem_singleton.mp ht]
      exact .inr rfl
  · exact .inl ⟨job, hold, ht⟩

theorem tasksOwned_step {act : Action} (hw : TasksOwned w) (hC : NamesRegisteredWorker w act)
    (h : exec env w act = .ok w') : TasksOwned w' := by
  intro u j job' hjob' t ht
  rw [(exec_effect h).job] at hjob'
  have howner : ∃ o, w.workerOwner t.workerId = some o := by
    rcases mem_tasks_of_jobAfter hjob' ht with ⟨job, hjob, ht⟩ | hadded
    · exact hw u j job hjob t ht
    · exact Option.isSome_iff_exists.mp (hC _ hadded)
  obtain ⟨o, ho⟩ := howner
  exact ⟨o, (exec_extends h).workerOwner _ o ho⟩

theorem tasksOwned_initial (h : JustInitialised env P treasury pk w) : TasksOwned w := by
  obtain ⟨l, -, rfl⟩ := justInitialised_iff.mp h
  intro u j job hjob
  cases hjob

/-- What an accepted addition leaves in the job. -/
theorem mem_tasks_of_opAddTask {a u : Address} {j : String} {taskId : UInt64} {id : String}
    {cost duration : UInt64}
    (h : exec env w (.txn a (.opAddTask u j taskId id cost duration)) = .ok w') :
    ∃ job, w'.job u j = some job ∧ ⟨taskId, id, cost, duration⟩ ∈ job.tasks := by
  obtain ⟨-, -, job, hjob, -⟩ := exec_accepted h
  refine ⟨job.addTask ⟨taskId, id, cost, duration⟩, ?_, ?_⟩
  · rw [(exec_effect h).job, hjob]
    simp [jobAfter]
  · exact List.mem_append_right _ (List.mem_singleton.mpr rfl)

/-- **The beneficiary is fixed when the task is added**, along every run in which tasks only name
registered workers. -/
theorem beneficiary_fixed {w₀ : World} (h₀ : JustInitialised env P treasury pk w₀)
    (as bs : List Action)
    (hC : ∀ e ∈ history env w₀ (as ++ bs), NamesRegisteredWorker e.pre e.act) :
    (∀ e ∈ history env w₀ as, ∀ a u j taskId id cost duration,
      e.act = .txn a (.opAddTask u j taskId id cost duration) →
      ∃ o, e.pre.workerOwner id = some o ∧
        ∀ e' ∈ history env (run env w₀ as) bs, ∀ a', e'.act = .txn a' (.opCompleteJob u j) →
          e'.pre.workerOwner id = some o ∧
          ∃ job, e'.pre.job u j = some job ∧ ⟨taskId, id, cost, duration⟩ ∈ job.tasks ∧
            ∀ x, e'.post.balance x = e'.pre.balance x + earnings x e'.pre job.tasks) ∧
    (∀ u j job, (run env w₀ as).job u j = some job → ∀ t ∈ job.tasks,
      ∃ o, (run env w₀ as).workerOwner t.workerId = some o ∧
        (run env w₀ (as ++ bs)).workerOwner t.workerId = some o) ∧
    ∀ a u j job e, a ∈ (run env w₀ as).operators → (run env w₀ as).job u j = some job →
      PictorNetwork.opCompleteJob (run env w₀ as) a u j = .error e → e = .arithmeticError := by
  have hC' := forall_mem_history_left hC
  have howned : TasksOwned (run env w₀ as) :=
    Transactions.invariant_of (fun _ _ _ => tasksOwned_step) (tasksOwned_initial h₀) as hC'
  refine ⟨?_, ?_, ?_⟩
  · intro e he a u j taskId id cost duration hact
    have hreg := hC' e he id (by rw [hact]; rfl)
    obtain ⟨o, ho⟩ := Option.isSome_iff_exists.mp hreg
    have hstep := exec_of_mem_history he
    refine ⟨o, ho, ?_⟩
    intro e' he' a' hact'
    have hstep' := exec_of_mem_history he'
    -- from the addition to the settlement the registries only grow
    have hbetween : Extends e.post e'.pre := (extends_post he).trans (extends_pre he')
    have howner : Extends e.pre e'.pre := (exec_extends hstep).trans hbetween
    rw [hact] at hstep
    rw [hact'] at hstep'
    obtain ⟨job, hjob, ht⟩ := mem_tasks_of_opAddTask hstep
    obtain ⟨job', hjob', htasks, -⟩ := hbetween.job u j job hjob
    refine ⟨howner.workerOwner id o ho, job', hjob', htasks.subset ht, ?_⟩
    intro x
    have hbalance := (exec_effect hstep').balance x
    rw [balanceIn_opCompleteJob x a' hjob'] at hbalance
    exact hbalance
  · intro u j job hjob t ht
    obtain ⟨o, ho⟩ := howned u j job hjob t ht
    refine ⟨o, ho, ?_⟩
    rw [run_append]
    exact (run_extends env _ bs).workerOwner _ o ho
  · intro a u j job e hop hjob herr
    exact opCompleteJob_error (closed_run h₀ as) hop hjob (howned u j job hjob) herr

/-- A run that meets the condition: the worker is registered before its task is added. -/
def earlyRegistration : List Action :=
  [.txn 0xcafe (.addOperator 0xdad), .txn 0xdad (.opRegisterWorker 0xdead "worker"),
    .txn 0xdad (.opCreateJob 0xdead "job"), .txn 0xdad (.opCreditUser 0xdead 100),
    .txn 0xdad (.opAddTask 0xdead "job" 1 "worker" 100 1)]

theorem beneficiary_fixed_test :
    ∃ o, (run testEnv testWorld earlyRegistration).workerOwner "worker" = some o ∧
      (run testEnv testWorld
        (earlyRegistration ++ [.txn 0xbad (.registerWorker "worker")])).workerOwner "worker" =
          some o :=
  (beneficiary_fixed testWorld_justInitialised earlyRegistration
    [.txn 0xbad (.registerWorker "worker")] (by decide)).2.1 0xdead "job"
    ⟨[⟨1, "worker", 100, 1⟩], 100, false⟩ (by decide) ⟨1, "worker", 100, 1⟩ (by decide)

/-- The task comes first, and somebody else registers its worker before the settlement. -/
def lateRegistration : List Action :=
  [.txn 0xcafe (.addOperator 0xdad), .txn 0xdad (.opCreateJob 0xdead "job"),
    .txn 0xdad (.opCreditUser 0xdead 100), .txn 0xdad (.opAddTask 0xdead "job" 1 "worker" 100 1),
    .txn 0xbad (.registerWorker "worker"), .txn 0xdad (.opCompleteJob 0xdead "job")]

/-- **The beneficiary is not fixed in general**: a task is added whose worker nobody owns, the job
can not be settled until the id is registered, and who registers it is paid. -/
theorem beneficiary_open :
    (¬ ∀ e ∈ history testEnv testWorld lateRegistration, NamesRegisteredWorker e.pre e.act) ∧
      PictorNetwork.opCompleteJob (run testEnv testWorld (lateRegistration.take 4)) 0xdad 0xdead
        "job" = .error tableNotFound ∧
      (run testEnv testWorld lateRegistration).balance 0xbad = 60 := by
  decide

end Pictor
