import Pictor.Contract.System

/-!
# Events

What the contract tells the world outside the chain. Four functions emit an event each, as the last
thing they do and from their own arguments, so an aborted call leaves none. Only two of the events
name a user: a task and a completion are logged under the job id alone, which is unique per user
and not otherwise.
-/

namespace Pictor

/-- The event structs of `pictor_network`. -/
inductive ContractEvent where
  | jobCreated (userAddr : Address) (jobId : String)
  | taskAdded (jobId : String) (taskId : UInt64) (workerId : String) (cost : UInt64)
  | jobCompleted (jobId : String)
  | creditClaimed (userAddr : Address) (amount requestId : UInt64)
  deriving DecidableEq, Repr

/-- What an action emits if it succeeds. -/
def emits : Action → List ContractEvent
  | .txn _ (.opCreateJob u j) => [.jobCreated u j]
  | .txn _ (.opAddTask _ j taskId id cost _) => [.taskAdded j taskId id cost]
  | .txn _ (.opCompleteJob _ j) => [.jobCompleted j]
  | .txn a (.claimCredit amount r _) => [.creditClaimed a amount r]
  | _ => []

/-- The events of a history, in the order of emission. -/
def logged (h : List (Transactions.Event World Action)) : List ContractEvent :=
  h.flatMap fun e => emits e.act

/-- The event log of a run. -/
def eventLog (env : Env) (w : World) (as : List Action) : List ContractEvent :=
  logged (history env w as)

theorem logged_concat (h : List (Transactions.Event World Action))
    (e : Transactions.Event World Action) : logged (h ++ [e]) = logged h ++ emits e.act := by
  simp [logged]

/-! ## An indexer

Somebody who reads the log and keeps what it says about each job id. To know what completions pay
she needs the owners of the workers; she asks `get_worker_owner`, at any later time. -/

structure LoggedTask where
  taskId : UInt64
  workerId : String
  cost : UInt64
  deriving DecidableEq, Repr

structure IndexedJob where
  userAddr : Address
  tasks : List LoggedTask
  isCompleted : Bool
  deriving DecidableEq, Repr

structure Indexer where
  jobs : String → Option IndexedJob
  earned : Address → ℕ

/-- What an owner earns from logged tasks, at the percentage of every deployment. -/
def loggedEarnings (owner : String → Option Address) (x : Address) (tasks : List LoggedTask) : ℕ :=
  (tasks.map fun t => if owner t.workerId = some x then t.cost.toNat * 6000 / 10000 else 0).sum

namespace Indexer

variable (owner : String → Option Address)

def empty : Indexer := ⟨fun _ => none, fun _ => 0⟩

/-- Change what is known of a job. -/
def modify (ix : Indexer) (j : String) (f : IndexedJob → IndexedJob) : Indexer :=
  { ix with jobs := Function.update ix.jobs j ((ix.jobs j).map f) }

/-- What a completion pays, as far as is known. -/
def pay (ix : Indexer) (j : String) : Indexer :=
  { ix with earned := fun x =>
      ix.earned x + (ix.jobs j).elim 0 fun job => loggedEarnings owner x job.tasks }

def apply (ix : Indexer) : ContractEvent → Indexer
  | .jobCreated u j => { ix with jobs := Function.update ix.jobs j (some ⟨u, [], false⟩) }
  | .taskAdded j taskId id cost =>
    ix.modify j fun job => { job with tasks := job.tasks ++ [⟨taskId, id, cost⟩] }
  | .jobCompleted j => (ix.pay owner j).modify j fun job => { job with isCompleted := true }
  | .creditClaimed _ _ _ => ix

/-- Read on. -/
def replay (ix : Indexer) (log : List ContractEvent) : Indexer := log.foldl (apply owner) ix

theorem replay_append (ix : Indexer) (log log' : List ContractEvent) :
    ix.replay owner (log ++ log') = (ix.replay owner log).replay owner log' :=
  List.foldl_append ..

end Indexer

end Pictor
