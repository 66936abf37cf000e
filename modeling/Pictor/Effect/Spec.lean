import Pictor.Contract.System

/-!
# What each action does: the abstract ledger

The contract's purpose, said without its tables and loops. An action that succeeds

* moves *quantities*: what it adds to and takes from each user's credit and balance, named after
  the reason (`deposited`, `opDebited`, `chargedToCredit`, `paid`, …);
* may register a user, a worker or a credit request, or change one job or the configuration.

`Effect w act w'` says that `w'` differs from `w` by exactly this. Each field gives one observer of
`w'` as a function of the same observer of `w` and of the action, for every key, so it contains its
own frame condition. `Accepted w act` collects what must have held for the action to succeed. The
modules below `Pictor.Effect` prove both of every successful `exec`; everything said about runs is
derived from them, and no later proof looks into an entry function again.
-/

namespace Pictor

/-! ## Quantities, per user -/

section Quantities

variable (u : Address)

def deposited (_ : World) : Action → ℕ
  | .txn a (.deposit amount _) => if a = u then amount.toNat else 0
  | _ => 0

def withdrawn (_ : World) : Action → ℕ
  | .txn a (.withdraw amount _) => if a = u then amount.toNat else 0
  | _ => 0

def claimed (_ : World) : Action → ℕ
  | .txn a (.claimCredit amount _ _) => if a = u then amount.toNat else 0
  | _ => 0

def opCredited (_ : World) : Action → ℕ
  | .txn _ (.opCreditUser v amount) => if v = u then amount.toNat else 0
  | _ => 0

def opDebited (_ : World) : Action → ℕ
  | .txn _ (.opDebitUser v amount) => if v = u then amount.toNat else 0
  | _ => 0

/-- The cost of a task added to one of `u`'s jobs. -/
def charged (_ : World) : Action → ℕ
  | .txn _ (.opAddTask v _ _ _ cost _) => if v = u then cost.toNat else 0
  | _ => 0

/-- The part of the cost that credit covers. -/
def chargedToCredit (w : World) : Action → ℕ
  | .txn _ (.opAddTask v _ _ _ cost _) => if v = u then min (w.credit u) cost.toNat else 0
  | _ => 0

/-- The rest of the cost. -/
def chargedToBalance (w : World) : Action → ℕ
  | .txn _ (.opAddTask v _ _ _ cost _) =>
    if v = u then cost.toNat - min (w.credit u) cost.toNat else 0
  | _ => 0

/-- The worker's share of a task's cost. -/
def share (w : World) (t : Task) : ℕ := t.cost.toNat * w.percentage / 10000

/-- What `u` earns from a list of tasks: the shares of those whose worker she owns. -/
def earnings (w : World) (tasks : List Task) : ℕ :=
  (tasks.map fun t => if w.workerOwner t.workerId = some u then share w t else 0).sum

/-- What a settlement pays `u`. -/
def paid (w : World) : Action → ℕ
  | .txn _ (.opCompleteJob v j) => (w.job v j).elim 0 (fun job => earnings u w job.tasks)
  | _ => 0

def creditIn (w : World) (act : Action) : ℕ :=
  deposited u w act + opCredited u w act + claimed u w act
def creditOut (w : World) (act : Action) : ℕ := opDebited u w act + chargedToCredit u w act
def balanceIn (w : World) (act : Action) : ℕ := paid u w act
def balanceOut (w : World) (act : Action) : ℕ := withdrawn u w act + chargedToBalance u w act

theorem charged_split (w : World) (act : Action) :
    chargedToCredit u w act + chargedToBalance u w act = charged u w act := by
  unfold chargedToCredit chargedToBalance charged
  split
  · split
    · omega
    · rfl
  · rfl

/-! Each call has at most one entry on each side of an account. -/

section Calls

variable (w : World) (a v : Address) (amount : UInt64)

@[simp] theorem creditIn_deposit (token : Token) :
    creditIn u w (.txn a (.deposit amount token)) = if a = u then amount.toNat else 0 :=
  rfl

@[simp] theorem creditIn_opCreditUser :
    creditIn u w (.txn a (.opCreditUser v amount)) = if v = u then amount.toNat else 0 :=
  Nat.zero_add _

@[simp] theorem creditIn_claimCredit (r : UInt64) (signature : List UInt8) :
    creditIn u w (.txn a (.claimCredit amount r signature)) = if a = u then amount.toNat else 0 :=
  Nat.zero_add _

@[simp] theorem creditOut_opDebitUser :
    creditOut u w (.txn a (.opDebitUser v amount)) = if v = u then amount.toNat else 0 :=
  rfl

@[simp] theorem balanceOut_withdraw (token : Token) :
    balanceOut u w (.txn a (.withdraw amount token)) = if a = u then amount.toNat else 0 :=
  rfl

variable (j : String) (taskId : UInt64) (id : String) (cost duration : UInt64)

@[simp] theorem creditOut_opAddTask :
    creditOut u w (.txn a (.opAddTask v j taskId id cost duration)) =
      if v = u then min (w.credit u) cost.toNat else 0 :=
  Nat.zero_add _

@[simp] theorem balanceOut_opAddTask :
    balanceOut u w (.txn a (.opAddTask v j taskId id cost duration)) =
      if v = u then cost.toNat - min (w.credit u) cost.toNat else 0 :=
  Nat.zero_add _

variable {w v j} in
theorem balanceIn_opCompleteJob {job : Job} (h : w.job v j = some job) :
    balanceIn u w (.txn a (.opCompleteJob v j)) = earnings u w job.tasks := by
  rw [balanceIn, paid, h, Option.elim_some]

end Calls

end Quantities

/-! ## Quantities, whoever the user is -/

def deposits (_ : World) : Action → ℕ
  | .txn _ (.deposit amount _) => amount.toNat
  | _ => 0

def withdrawals (_ : World) : Action → ℕ
  | .txn _ (.withdraw amount _) => amount.toNat
  | _ => 0

def treasuryTransfers (_ : World) : Action → ℕ
  | .txn _ (.withdrawToTreasury amount _) => amount.toNat
  | _ => 0

def claims (_ : World) : Action → ℕ
  | .txn _ (.claimCredit amount _ _) => amount.toNat
  | _ => 0

def opCredits (_ : World) : Action → ℕ
  | .txn _ (.opCreditUser _ amount) => amount.toNat
  | _ => 0

def opDebits (_ : World) : Action → ℕ
  | .txn _ (.opDebitUser _ amount) => amount.toNat
  | _ => 0

def charges (_ : World) : Action → ℕ
  | .txn _ (.opAddTask _ _ _ _ cost _) => cost.toNat
  | _ => 0

/-! ## Registries, jobs and configuration -/

/-- The user an action names: the signer of a user call, `user_addr` of an operator call. -/
def subject : Action → Option Address
  | .txn a .registerUser => some a
  | .txn a (.registerWorker _) => some a
  | .txn _ (.opRegisterWorker u _) => some u
  | .txn _ (.opCreateJob u _) => some u
  | .txn _ (.opAddTask u _ _ _ _ _) => some u
  | .txn _ (.opCompleteJob u _) => some u
  | .txn _ (.opCreditUser u _) => some u
  | .txn _ (.opDebitUser u _) => some u
  | .txn a (.deposit _ _) => some a
  | .txn a (.withdraw _ _) => some a
  | .txn a (.claimCredit _ _ _) => some a
  | _ => none

/-- The user an action registers, if she is not yet. -/
def registers : Action → Option Address
  | .txn a .registerUser => some a
  | .txn a (.registerWorker _) => some a
  | .txn _ (.opRegisterWorker u _) => some u
  | .txn _ (.opCreateJob u _) => some u
  | .txn _ (.opCreditUser u _) => some u
  | .txn a (.deposit _ _) => some a
  | .txn a (.claimCredit _ _ _) => some a
  | _ => none

/-- The owner an action gives to a worker id that has none. -/
def newWorker : Action → String → Option Address
  | .txn a (.registerWorker id), k => if k = id then some a else none
  | .txn _ (.opRegisterWorker u id), k => if k = id then some u else none
  | _, _ => none

/-- The entry an action makes in the table of credit requests. -/
def newRequest : Action → UInt64 → Option CreditRequest
  | .txn a (.claimCredit amount r _), k => if k = r then some ⟨a, amount⟩ else none
  | _, _ => none

/-- Append a task. The payment can not wrap: the action is only accepted if the sum fits. -/
def Job.addTask (job : Job) (t : Task) : Job :=
  { job with tasks := job.tasks ++ [t], payment := job.payment + t.cost }

def Job.complete (job : Job) : Job := { job with isCompleted := true }

/-- A job after an action, given the job before. -/
def jobAfter : Action → Address → String → Option Job → Option Job
  | .txn _ (.opCreateJob u j), x, k, old =>
    if x = u ∧ k = j then some PictorNetwork.newJob else old
  | .txn _ (.opAddTask u j taskId id cost duration), x, k, old =>
    if x = u ∧ k = j then old.map (·.addTask ⟨taskId, id, cost, duration⟩) else old
  | .txn _ (.opCompleteJob u j), x, k, old =>
    if x = u ∧ k = j then old.map Job.complete else old
  | _, _, _, old => old

/-- The job an action creates, extends or settles. -/
def targetJob : Action → Option (Address × String)
  | .txn _ (.opCreateJob u j) => some (u, j)
  | .txn _ (.opAddTask u j _ _ _ _) => some (u, j)
  | .txn _ (.opCompleteJob u j) => some (u, j)
  | _ => none

theorem targetJob_cases {act : Action} {u : Address} {j : String}
    (h : targetJob act = some (u, j)) :
    (∃ a, act = .txn a (.opCreateJob u j)) ∨
    (∃ a, ∃ t : Task, act = .txn a (.opAddTask u j t.taskId t.workerId t.cost t.duration)) ∨
    (∃ a, act = .txn a (.opCompleteJob u j)) := by
  unfold targetJob at h
  split at h
  · next a _ _ =>
    cases h
    exact .inl ⟨a, rfl⟩
  · next a _ _ taskId id cost duration =>
    cases h
    exact .inr (.inl ⟨a, ⟨taskId, id, cost, duration⟩, rfl⟩)
  · next a _ _ =>
    cases h
    exact .inr (.inr ⟨a, rfl⟩)
  · cases h

/-- The configuration after an action, given the configuration before. -/
def configAfter (env : Env) : Action → Option Config → Option Config
  | .txn _ (.initializeConfig token treasury pk), _ => some (initialConfig env token treasury pk)
  | .txn _ (.setAdminPubkey pk), c => c.map fun c => { c with adminPubkey := pk }
  | .txn _ (.addOperator a), c => c.map fun c =>
    { c with operators := if a ∈ c.operators then c.operators else c.operators ++ [a] }
  | .txn _ (.removeOperator a), c => c.map fun c => { c with operators := c.operators.erase a }
  | _, c => c

section Frame

variable {act : Action} {u x : Address}

theorem subject_ne (h : subject act = some u) (hx : x ≠ u) : subject act ≠ some x := by
  rw [h]
  exact fun heq => hx (Option.some.inj heq).symm

/-- Who is registered by an action is the user it names. -/
theorem subject_of_registers (h : registers act = some u) : subject act = some u := by
  unfold registers at h
  split at h
  all_goals first
    | exact h
    | cases h

/-- A new worker's owner is the user the same action registers. -/
theorem registers_of_newWorker {id : String} (h : newWorker act id = some u) :
    registers act = some u := by
  unfold newWorker at h
  split at h
  · split at h
    · exact h
    · cases h
  · split at h
    · exact h
    · cases h
  · cases h

theorem registers_of_newRequest {r : UInt64} {c : CreditRequest}
    (h : newRequest act r = some c) : registers act = some c.userAddr := by
  unfold newRequest at h
  split at h
  · split at h
    · cases h
      rfl
    · cases h
  · cases h

/-- **An action that names nobody** has no account to register, to enter or to pay. -/
theorem registries_of_no_subject (h : subject act = none) :
    registers act = none ∧ (∀ id, newWorker act id = none) ∧ ∀ r, newRequest act r = none := by
  have hnobody : ∀ u, registers act ≠ some u := by
    intro u hu
    rw [subject_of_registers hu] at h
    cases h
  refine ⟨?_, ?_, ?_⟩
  · exact Option.eq_none_iff_forall_ne_some.mpr hnobody
  · intro id
    exact Option.eq_none_iff_forall_ne_some.mpr fun u hu => hnobody u (registers_of_newWorker hu)
  · intro r
    exact Option.eq_none_iff_forall_ne_some.mpr fun c hc => hnobody _ (registers_of_newRequest hc)

theorem balanceIn_of_no_subject (h : subject act = none) (w : World) : balanceIn x w act = 0 := by
  unfold balanceIn paid
  split
  · cases h
  · rfl

/-- Nobody's credit is touched but the named user's. -/
theorem credit_frame (hx : subject act ≠ some x) (w : World) :
    creditIn x w act = 0 ∧ creditOut x w act = 0 := by
  unfold subject at hx
  split at hx <;>
    simp_all [creditIn, creditOut, deposited, opCredited, claimed, opDebited, chargedToCredit]

/-- Others can only be paid. -/
theorem balanceOut_frame (hx : subject act ≠ some x) (w : World) : balanceOut x w act = 0 := by
  unfold subject at hx
  split at hx <;> simp_all [balanceOut, withdrawn, chargedToBalance]

theorem jobAfter_frame (hx : subject act ≠ some x) (k : String) (old : Option Job) :
    jobAfter act x k old = old := by
  unfold subject at hx
  split at hx <;> simp_all [jobAfter, eq_comm]

theorem jobAfter_of_target_ne {k : String} (hk : targetJob act ≠ some (x, k)) (old : Option Job) :
    jobAfter act x k old = old := by
  unfold jobAfter
  split
  · rw [if_neg]
    rintro ⟨rfl, rfl⟩
    exact hk rfl
  · rw [if_neg]
    rintro ⟨rfl, rfl⟩
    exact hk rfl
  · rw [if_neg]
    rintro ⟨rfl, rfl⟩
    exact hk rfl
  · rfl

/-- **Where a job comes from**: it was there, or the action created, extended or settled it. -/
theorem jobAfter_cases {k : String} {old : Option Job} {job' : Job}
    (h : jobAfter act x k old = some job') :
    old = some job' ∨
    (∃ a, act = .txn a (.opCreateJob x k) ∧ job' = PictorNetwork.newJob) ∨
    (∃ a t job, act = .txn a (.opAddTask x k t.taskId t.workerId t.cost t.duration) ∧
      old = some job ∧ job' = job.addTask t) ∨
    (∃ a job, act = .txn a (.opCompleteJob x k) ∧ old = some job ∧ job' = job.complete) := by
  unfold jobAfter at h
  split at h
  · split at h
    · next heq =>
      obtain ⟨rfl, rfl⟩ := heq
      exact .inr (.inl ⟨_, rfl, (Option.some.inj h).symm⟩)
    · exact .inl h
  · split at h
    · next heq =>
      obtain ⟨rfl, rfl⟩ := heq
      obtain ⟨job, hjob, rfl⟩ := Option.map_eq_some_iff.mp h
      exact .inr (.inr (.inl ⟨_, _, job, rfl, hjob, rfl⟩))
    · exact .inl h
  · split at h
    · next heq =>
      obtain ⟨rfl, rfl⟩ := heq
      obtain ⟨job, hjob, rfl⟩ := Option.map_eq_some_iff.mp h
      exact .inr (.inr (.inr ⟨_, job, rfl, hjob, rfl⟩))
    · exact .inl h
  · exact .inl h

end Frame

/-- The actions that may change a fungible store. -/
def touchesStores : Action → Bool
  | .outside _ => true
  | .txn _ (.initializeConfig _ _ _) => true
  | .txn _ (.withdrawToTreasury _ _) => true
  | .txn _ (.deposit _ _) => true
  | .txn _ (.withdraw _ _) => true
  | _ => false

/-! ## The two relations -/

/-- `w'` is `w` changed by the successful action `act`. -/
structure Effect (env : Env) (w : World) (act : Action) (w' : World) : Prop where
  registered : ∀ x, w'.registered x ↔ w.registered x ∨ registers act = some x
  credit : ∀ x, w'.credit x + creditOut x w act = w.credit x + creditIn x w act
  balance : ∀ x, w'.balance x + balanceOut x w act = w.balance x + balanceIn x w act
  job : ∀ x k, w'.job x k = jobAfter act x k (w.job x k)
  workerOwner : ∀ k, w'.workerOwner k = (w.workerOwner k).or (newWorker act k)
  creditRequest : ∀ k, w'.creditRequest k = (w.creditRequest k).or (newRequest act k)
  config : w'.config = configAfter env act w.config
  stores : touchesStores act = false → w'.stores = w.stores

/-- What held when `act` succeeded in `w`. -/
def Accepted (env : Env) (w : World) : Action → Prop
  | .outside l' => w.VaultKept l'
  | .txn a call =>
    match call with
    | .initializeConfig _ _ _ => a = env.deployer ∧ w.config = none
    | .setAdminPubkey _ => a = env.deployer
    | .addOperator _ => a = env.deployer
    | .removeOperator _ => a = env.deployer
    | .withdrawToTreasury _ token => a ∈ w.operators ∧ ∃ s, w.vault.lookup token = some s
    | .initializeNetwork => a = env.deployer ∧ w.network = none
    | .registerUser => True
    | .registerWorker _ => True
    | .opRegisterWorker _ _ => a ∈ w.operators
    | .opCreateJob u j => a ∈ w.operators ∧ w.job u j = none
    | .opAddTask u j _ _ cost _ => a ∈ w.operators ∧ cost.toNat ≤ w.credit u + w.balance u ∧
        ∃ job, w.job u j = some job ∧ job.payment.toNat + cost.toNat < 2 ^ 64
    | .opCompleteJob u j => a ∈ w.operators ∧ ∃ job, w.job u j = some job ∧
        ∀ t ∈ job.tasks, ∃ o, w.workerOwner t.workerId = some o
    | .opCreditUser _ _ => a ∈ w.operators
    | .opDebitUser u amount => a ∈ w.operators ∧ amount.toNat ≤ w.credit u
    | .deposit _ token => ∃ s, w.vault.lookup token = some s
    | .withdraw amount token => amount.toNat ≤ w.balance a ∧ ∃ s, w.vault.lookup token = some s
    | .claimCredit amount r signature => w.creditRequest r = none ∧
        env.signatureVerifyStrict signature w.adminPubkey (claimMessage amount r a) = true

end Pictor
