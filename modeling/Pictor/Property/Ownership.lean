import Pictor.Property.Registry

/-!
# Who owns a worker

The first successful registration of an id makes its user the owner, for good. A later one for
another user succeeds too: `register_worker_internal` skips the write and returns (the error code
`EWORKER_REGISTERED` is declared and never raised). So success says who owns the worker only if the
id was free, or the same user's already.
-/

namespace Pictor

variable {env : Env} {w w' : World} {u : Address} {id : String}

/-- The registration an action makes: a worker id on behalf of a user. -/
def registersWorker : Action → Option (Address × String)
  | .txn a (.registerWorker id) => some (a, id)
  | .txn _ (.opRegisterWorker u id) => some (u, id)
  | _ => none

/-- The id that is registered has no owner, or the user it is registered for. -/
def FreshRegistration (w : World) (act : Action) : Prop :=
  ∀ p ∈ registersWorker act, w.workerOwner p.2 = none ∨ w.workerOwner p.2 = some p.1

instance (w : World) (act : Action) : Decidable (FreshRegistration w act) :=
  inferInstanceAs (Decidable
    (∀ p ∈ registersWorker act, w.workerOwner p.2 = none ∨ w.workerOwner p.2 = some p.1))

theorem getWorkerOwner_eq_ok {o : Address} :
    PictorNetwork.getWorkerOwner w id = .ok o ↔ w.workerOwner id = some o := by
  simp only [PictorNetwork.getWorkerOwner, Checked.bind_eq_ok, PictorNetwork.globalData_eq_ok,
    Table.borrow_eq_ok, World.workerOwner, World.workers]
  cases w.network with
  | none => simp
  | some g => simp

theorem newWorker_of_registersWorker {act : Action} (h : registersWorker act = some (u, id)) :
    newWorker act id = some u := by
  unfold registersWorker at h
  split at h
  · cases h
    exact if_pos rfl
  · cases h
    exact if_pos rfl
  · cases h

/-- **One registration**: it makes its user the owner exactly if nobody else was. -/
theorem owner_of_registration {act : Action} (h : exec env w act = .ok w')
    (hreg : registersWorker act = some (u, id)) :
    w'.workerOwner id = some u ↔ FreshRegistration w act := by
  have howner := (exec_effect h).workerOwner id
  rw [newWorker_of_registersWorker hreg] at howner
  have hfresh : FreshRegistration w act ↔
      w.workerOwner id = none ∨ w.workerOwner id = some u := by
    rw [FreshRegistration, hreg]
    simp
  rw [hfresh, howner]
  cases w.workerOwner id with
  | none => simp
  | some o => simp

/-- **When a registration confers ownership**, now and in every later state, and that then the users
of successful registrations of one id are the same. -/
theorem registration_confers_ownership (w₀ : World) (as : List Action) :
    (∀ e ∈ history env w₀ as, ∀ u id, registersWorker e.act = some (u, id) →
      ((∀ bs, PictorNetwork.getWorkerOwner (run env e.post bs) id = .ok u) ↔
        FreshRegistration e.pre e.act)) ∧
    ((∀ e ∈ history env w₀ as, FreshRegistration e.pre e.act) →
      ∀ e ∈ history env w₀ as, ∀ e' ∈ history env w₀ as, ∀ u u' id,
        registersWorker e.act = some (u, id) → registersWorker e'.act = some (u', id) →
          u = u') := by
  refine ⟨?_, ?_⟩
  · intro e he u id hreg
    rw [← owner_of_registration (exec_of_mem_history he) hreg]
    constructor
    · intro hall
      exact getWorkerOwner_eq_ok.mp (hall [])
    · intro howner bs
      exact getWorkerOwner_eq_ok.mpr ((run_extends env e.post bs).workerOwner id u howner)
  · intro hC e he e' he' u u' id hreg hreg'
    have howner := (owner_of_registration (exec_of_mem_history he) hreg).mpr (hC e he)
    have howner' := (owner_of_registration (exec_of_mem_history he') hreg').mpr (hC e' he')
    -- both are the owner when the run ends
    have hend := (extends_post he).workerOwner id u howner
    rw [(extends_post he').workerOwner id u' howner'] at hend
    exact (Option.some.inj hend).symm

/-- Registered twice, through both entry points, for the same user. -/
def repeatedRegistration : List Action :=
  [.txn 0xcafe (.addOperator 0xdad), .txn 0xdead (.registerWorker "worker"),
    .txn 0xdad (.opRegisterWorker 0xdead "worker")]

theorem registration_confers_ownership_test :
    ∀ e ∈ history testEnv testWorld repeatedRegistration,
      ∀ e' ∈ history testEnv testWorld repeatedRegistration, ∀ u u' id,
        registersWorker e.act = some (u, id) → registersWorker e'.act = some (u', id) → u = u' :=
  (registration_confers_ownership testWorld repeatedRegistration).2 (by decide)

/-- **A registration of a taken id succeeds** and confers nothing. -/
theorem taken_registration_succeeds :
    ∃ w', exec testEnv (run testEnv testWorld [.txn 0xdead (.registerWorker "worker")])
        (.txn 0xbad (.registerWorker "worker")) = .ok w' ∧
      PictorNetwork.getWorkerOwner w' "worker" = .ok 0xdead ∧
      ¬ PictorNetwork.getWorkerOwner w' "worker" = .ok 0xbad := by
  refine ⟨run testEnv testWorld [.txn 0xdead (.registerWorker "worker"),
    .txn 0xbad (.registerWorker "worker")], by decide, by decide, by decide⟩

end Pictor
