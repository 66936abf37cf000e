import Pictor.Refinement.Ledger
import Pictor.Property.Operators
import Pictor.Property.Settlement
import Pictor.Property.Charging

/-!
# The contract is the ledger

`World.ledger` forgets the tables of users, workers, jobs and requests, that balances are machine
words, the order of the operators and the payment a job has recorded. `exec_refines` is the
simulation: in a `Sound` state, an action seen through `World.ledger` is the step of the ledger,
aborts and their codes included. It is proved call by call, taking the `do` block of the contract
and that of the ledger apart side by side, so the order in which a call checks its conditions is
the ledger's too. The settlement loop is `payLoop_ledger`.
-/

namespace Pictor

def Job.order (job : Job) : Order := ⟨job.tasks, job.isCompleted⟩

namespace World

def treasury (w : World) : Address := (w.config.map Config.treasuryAddr).getD 0

/-- The ledger a state of the contract stands for. -/
def ledger (w : World) : Ledger where
  operators := {x | x ∈ w.operators}
  adminPubkey := w.adminPubkey
  treasury := w.treasury
  percentage := w.percentage
  vault := w.vault.lookup
  users := {u | w.registered u}
  credit := w.credit
  balance := w.balance
  order u j := (w.job u j).map Job.order
  workerOwner := w.workerOwner
  request := w.creditRequest
  stores := w.stores

end World

/-- What the ledger relies on: both modules are initialised, no operator is entered twice, the
tables refer to users only, and a job's payment is what its tasks cost. -/
structure Sound (env : Env) (P : Token) (treasury : Address) (w : World) : Prop where
  configured : Configured env P treasury w
  initialized : PictorNetwork.isInitialized w = true
  operators : w.operators.Nodup
  closed : Closed w
  payments : PaymentsExact w

variable {env : Env} {P : Token} {treasury : Address} {w w' : World} {a u : Address}

/-! ## Writing an account -/

section Write

variable (w u)

theorem ledger_setUser (info : UserInfo) :
    (w.setUser u info).ledger =
      { w.ledger with
        users := insert u w.ledger.users
        credit := Function.update w.credit u info.credit.toNat
        balance := Function.update w.balance u info.balance.toNat
        order := fun x k => (if x = u then info.jobs.lookup k else w.job x k).map Job.order } := by
  apply Ledger.ext
  case users =>
    ext x
    exact Finmap.mem_insert
  case credit =>
    funext x
    exact (Users.credit_insert w.users u x info).trans (Function.update_apply ..).symm
  case balance =>
    funext x
    exact (Users.balance_insert w.users u x info).trans (Function.update_apply ..).symm
  case order =>
    funext x k
    exact congrArg (Option.map Job.order) (Users.job_insert w.users u x info k)
  all_goals rfl

/-- A write that keeps the jobs. -/
theorem ledger_setUser_amounts (b c : UInt64) :
    (w.setUser u { w.account u with balance := b, credit := c }).ledger =
      ((w.ledger.enrol u).withBalance u b.toNat).withCredit u c.toNat := by
  rw [ledger_setUser]
  apply Ledger.ext
  case order =>
    funext x k
    show ((if x = u then (w.account u).jobs.lookup k else w.job x k).map Job.order) =
      (w.job x k).map Job.order
    split
    · next hx => rw [w.jobs_account u k, hx]
    · rfl
  all_goals rfl

/-- **Registration.** -/
theorem ledger_enrol : (w.setUser u (w.account u)).ledger = w.ledger.enrol u := by
  have h := ledger_setUser_amounts w u (w.account u).balance (w.account u).credit
  rw [w.balance_account, w.credit_account] at h
  refine h.trans ?_
  apply Ledger.ext
  case credit => exact Function.update_eq_self u w.credit
  case balance => exact Function.update_eq_self u w.balance
  all_goals rfl

theorem ledger_credit (c : UInt64) :
    (w.setUser u { w.account u with credit := c }).ledger =
      (w.ledger.enrol u).withCredit u c.toNat := by
  have h := ledger_setUser_amounts w u (w.account u).balance c
  rw [w.balance_account] at h
  refine h.trans ?_
  apply Ledger.ext
  case balance => exact Function.update_eq_self u w.balance
  all_goals rfl

/-- Whoever has an account need not be enrolled. -/
theorem enrol_of_registered {w : World} {u : Address} (h : w.registered u) :
    w.ledger.enrol u = w.ledger := by
  apply Ledger.ext
  case users => exact Set.insert_eq_of_mem h
  all_goals rfl

theorem ledger_balance (h : w.registered u) (b : UInt64) :
    (w.setUser u { w.account u with balance := b }).ledger = w.ledger.withBalance u b.toNat := by
  have h' := ledger_setUser_amounts w u b (w.account u).credit
  rw [w.credit_account, enrol_of_registered h] at h'
  refine h'.trans ?_
  apply Ledger.ext
  case credit => exact Function.update_eq_self u w.credit
  all_goals rfl

/-- A write that enters a job. -/
theorem ledger_setUser_job (b c : UInt64) (j : String) (job : Job) :
    (w.setUser u ⟨b, c, (w.account u).jobs.insert j job⟩).ledger =
      (((w.ledger.enrol u).withBalance u b.toNat).withCredit u c.toNat).withOrder u j job.order := by
  rw [ledger_setUser]
  apply Ledger.ext
  case order =>
    funext x k
    show ((if x = u then Finmap.lookup k (Finmap.insert j job (w.account u).jobs)
        else w.job x k).map Job.order) =
      if x = u ∧ k = j then some job.order else (w.job x k).map Job.order
    by_cases hx : x = u
    · simp only [hx, if_true, true_and, Table.lookup_insert_ite, w.jobs_account]
      split <;> rfl
    · simp only [hx, if_false, false_and]
  all_goals rfl

end Write

/-! ## The helpers -/

theorem refine_add {α β : Type} {g : α → β} {x y : UInt64} {n : ℕ} {f : UInt64 → Result α}
    {h : Unit → Result β} (hn : n = x.toNat + y.toNat)
    (hstep : ∀ z : UInt64, z.toNat = n → (f z).map g = h ()) :
    (U64.add x y >>= f).map g = Ledger.fits n >>= h := by
  by_cases hfit : n < 2 ^ 64
  · obtain ⟨z, hz⟩ := U64.exists_add.mpr (hn ▸ hfit)
    rw [hz, Ledger.fits, Checked.require_of hfit]
    exact hstep z ((U64.add_eq_ok.mp hz).trans hn.symm)
  · rw [U64.add_eq_error.mpr ⟨hn ▸ Nat.not_lt.mp hfit, rfl⟩, Ledger.fits,
      Checked.require_of_not hfit]
    rfl

theorem refine_mul {α β : Type} {g : α → β} {x y : UInt64} {n : ℕ} {f : UInt64 → Result α}
    {h : Unit → Result β} (hn : n = x.toNat * y.toNat)
    (hstep : ∀ z : UInt64, z.toNat = n → (f z).map g = h ()) :
    (U64.mul x y >>= f).map g = Ledger.fits n >>= h := by
  by_cases hfit : n < 2 ^ 64
  · obtain ⟨z, hz⟩ := U64.exists_mul.mpr (hn ▸ hfit)
    rw [hz, Ledger.fits, Checked.require_of hfit]
    exact hstep z ((U64.mul_eq_ok.mp hz).trans hn.symm)
  · obtain ⟨e, he⟩ : ∃ e, U64.mul x y = .error e :=
      Checked.exists_error_of_not_ok fun z hz => hfit (hn ▸ U64.exists_mul.mp ⟨z, hz⟩)
    rw [he, U64.error_of_mul he, Ledger.fits, Checked.require_of_not hfit]
    rfl

/-- Reading an account that a write has just made, and writing it again. -/
theorem userInfo_setUser (info : UserInfo) :
    PictorNetwork.userInfo (w.setUser u info) u = .ok info :=
  PictorNetwork.userInfo_registered.mpr rfl

theorem withUserInfo_setUser (info info' : UserInfo) :
    PictorNetwork.withUserInfo (w.setUser u info) u info' = .ok (w.setUser u info') :=
  PictorNetwork.withUserInfo_eq_ok.mpr ⟨rfl, w.setUser_setUser u info info'⟩

section Helpers

variable (hs : Sound env P treasury w)

include hs

open Classical in
theorem forOperator_ledger (a : Address) (e : Abort) :
    (do
      let authorized ← PictorConfig.isOperator w a
      Checked.require (authorized = true) e) = w.ledger.forOperator a e := by
  rw [isOperator_eq hs.configured, Checked.ok_bind]
  by_cases ha : a ∈ w.operators
  · have ha' : a ∈ w.ledger.operators := ha
    rw [Checked.require_of (decide_eq_true ha), Ledger.forOperator, Checked.require_of ha']
  · have ha' : a ∉ w.ledger.operators := ha
    rw [Checked.require_of_not fun h => ha (of_decide_eq_true h), Ledger.forOperator,
      Checked.require_of_not ha']

theorem assertIsOperator_ledger (a : Address) :
    PictorNetwork.assertIsOperator w a = w.ledger.forOperator a PictorNetwork.ENOT_AUTHORIZED :=
  forOperator_ledger hs a _

theorem findVault_ledger (token : Token) :
    PictorConfig.getVaultStore w token = w.ledger.findVault token := by
  cases h : w.vault.lookup token with
  | some s =>
    rw [PictorConfig.getVaultStore_eq_ok.mpr h, Ledger.findVault]
    exact (Checked.getOrAbort_eq_ok.mpr h).symm
  | none =>
    obtain ⟨c, hc, -⟩ := hs.configured
    have hv : w.vault = c.vault := by rw [World.vault, hc]; rfl
    have hno : ¬ c.vault.contains token = true := by
      rw [← hv, Table.contains_eq_false.mpr h]
      exact Bool.false_ne_true
    rw [PictorConfig.getVaultStore, PictorConfig.getConfig_eq_ok.mpr hc, Checked.ok_bind,
      Checked.require_of_not hno, Ledger.findVault]
    show _ = Checked.getOrAbort (w.vault.lookup token) _
    rw [h]
    rfl

theorem registerUserInternal_ledger (u : Address) :
    PictorNetwork.registerUserInternal w u = .ok (w.setUser u (w.account u)) :=
  PictorNetwork.registerUserInternal_eq_ok.mpr ⟨hs.initialized, rfl⟩

theorem withUserInfo_ledger (info : UserInfo) :
    PictorNetwork.withUserInfo w u info = .ok (w.setUser u info) :=
  PictorNetwork.withUserInfo_eq_ok.mpr ⟨hs.initialized, rfl⟩

theorem userInfo_ledger (u : Address) :
    PictorNetwork.userInfo w u = Checked.getOrAbort (w.users.lookup u) tableNotFound := by
  obtain ⟨g, hg⟩ := Option.isSome_iff_exists.mp hs.initialized
  have husers : w.users = g.users := by simp [World.users, hg]
  rw [PictorNetwork.userInfo, PictorNetwork.globalData_eq_ok.mpr hg, husers]
  rfl

open Classical in
theorem assertUserRegistered_ledger {α β : Type} {g : α → β} {f : Unit → Result α}
    {h : Unit → Result β}
    (hstep : ∀ info, w.users.lookup u = some info → PictorNetwork.userInfo w u = .ok info →
      (f ()).map g = h ()) :
    (PictorNetwork.assertUserRegistered w u >>= f).map g =
      Checked.require (u ∈ w.ledger.users) PictorNetwork.EUSER_NOT_REGISTERED >>= h := by
  have hread : PictorNetwork.isRegistered w u = .ok (decide (w.registered u)) :=
    PictorNetwork.isRegistered_eq_ok.mpr ⟨hs.initialized, decide_eq_true_iff⟩
  rw [PictorNetwork.assertUserRegistered, hread, Checked.ok_bind]
  refine Checked.refine_require decide_eq_true_iff fun hr => ?_
  obtain ⟨info, hinfo⟩ := World.registered_iff.mp (of_decide_eq_true hr)
  exact hstep info hinfo (PictorNetwork.userInfo_eq_ok.mpr ⟨hs.initialized, hinfo⟩)

open Classical in
theorem assertJobCreated_ledger {α β : Type} {g : α → β} {j : String} {f : Unit → Result α}
    {h : Order → Result β} (hstep : ∀ job, w.job u j = some job → (f ()).map g = h job.order) :
    (PictorNetwork.assertJobCreated w u j >>= f).map g = w.ledger.findOrder u j >>= h := by
  rw [PictorNetwork.assertJobCreated, userInfo_ledger hs, Ledger.findOrder]
  cases hinfo : w.users.lookup u with
  | none =>
    have hno : u ∉ w.ledger.users := Finmap.lookup_eq_none.mp hinfo
    rw [Checked.require_of_not hno]
    rfl
  | some info =>
    have hyes : u ∈ w.ledger.users := World.registered_iff.mpr ⟨info, hinfo⟩
    have hj : w.job u j = info.jobs.lookup j := Users.job_of_lookup hinfo j
    have horder : w.ledger.order u j = (w.job u j).map Job.order := rfl
    rw [Checked.require_of hyes, Checked.ok_bind, horder]
    show ((Checked.require (info.jobs.contains j = true) _ >>= f).map g) = _
    cases hjob : info.jobs.lookup j with
    | none =>
      have hcontains : ¬ info.jobs.contains j = true := by
        rw [Table.contains_eq_false.mpr hjob]
        exact Bool.false_ne_true
      rw [Checked.require_of_not hcontains, hj, hjob]
      rfl
    | some job =>
      rw [Checked.require_of (Table.contains_eq_true.mpr ⟨job, hjob⟩), hj, hjob]
      exact hstep job (hj.trans hjob)

end Helpers

/-! ## The calls -/

/-- What an action does to the contract it does to the ledger, and refuses with the same code. -/
def Refines (env : Env) (w : World) (act : Action) : Prop :=
  (exec env w act).map World.ledger = w.ledger.step env act

section Config

variable (hs : Sound env P treasury w)

include hs

theorem initializeConfig_refines (token : Token) (t : Address) (pk : List UInt8) :
    Refines env w (.txn a (.initializeConfig token t pk)) := by
  obtain ⟨c, hc, -⟩ := hs.configured
  refine Checked.refine_require Iff.rfl fun _ => ?_
  have hno : ¬ ¬ PictorConfig.isInitialized w = true := by
    rw [not_not, PictorConfig.isInitialized, hc]
    rfl
  rw [Checked.require_of_not hno]
  rfl

theorem initializeNetwork_refines : Refines env w (.txn a .initializeNetwork) := by
  refine Checked.refine_require Iff.rfl fun _ => ?_
  rw [Checked.require_of_not (not_not.mpr hs.initialized)]
  rfl

theorem setAdminPubkey_refines (pk : List UInt8) :
    Refines env w (.txn a (.setAdminPubkey pk)) := by
  obtain ⟨c, hc, -⟩ := hs.configured
  refine Checked.refine_require Iff.rfl fun _ => ?_
  rw [PictorConfig.getConfig_eq_ok.mpr hc]
  obtain ⟨config, network, stores⟩ := w
  cases hc
  rfl

/-- Any other vector of operators changes the set of operators only. -/
theorem ledger_withOperators {c : Config} (hc : w.config = some c) (ops : List Address) :
    World.ledger { w with config := some { c with operators := ops } } =
      { w.ledger with operators := {x | x ∈ ops} } := by
  obtain ⟨config, network, stores⟩ := w
  cases hc
  rfl

theorem addOperator_refines (x : Address) : Refines env w (.txn a (.addOperator x)) := by
  obtain ⟨c, hc, -⟩ := hs.configured
  rw [Refines, exec, execCall, PictorConfig.addOperator, PictorConfig.getConfig_eq_ok.mpr hc,
    Checked.ok_bind]
  refine Checked.refine_require Iff.rfl fun _ => ?_
  have hops : w.operators = c.operators := by rw [World.operators, hc]; rfl
  split
  · refine congrArg Except.ok ((ledger_withOperators hs hc _).trans ?_)
    apply Ledger.ext
    case operators =>
      ext y
      show y ∈ c.operators ++ [x] ↔ y = x ∨ y ∈ w.operators
      rw [hops, List.mem_append, List.mem_singleton, or_comm]
    all_goals rfl
  · next hx =>
    rw [not_not, MoveVector.contains_iff, ← hops] at hx
    refine congrArg Except.ok (Ledger.ext ?_ rfl rfl rfl rfl rfl rfl rfl rfl rfl rfl rfl)
    exact (Set.insert_eq_of_mem (s := w.ledger.operators) hx).symm

theorem removeOperator_refines (x : Address) : Refines env w (.txn a (.removeOperator x)) := by
  obtain ⟨c, hc, -⟩ := hs.configured
  rw [Refines, exec, execCall, PictorConfig.removeOperator, PictorConfig.getConfig_eq_ok.mpr hc,
    Checked.ok_bind]
  refine Checked.refine_require Iff.rfl fun _ => ?_
  have hops : w.operators = c.operators := by rw [World.operators, hc]; rfl
  rw [MoveVector.indexOf_eq]
  by_cases hx : x ∈ c.operators
  · have hremove : MoveVector.remove c.operators (c.operators.idxOf x) =
        .ok (x, c.operators.erase x) := by
      rw [MoveVector.remove_eq_ok, List.erase_eq_eraseIdx_of_idxOf rfl]
      exact ⟨List.getElem?_idxOf hx, rfl⟩
    simp only [if_pos hx, if_true, hremove, Checked.ok_bind]
    refine congrArg Except.ok ((ledger_withOperators hs hc _).trans ?_)
    apply Ledger.ext
    case operators =>
      ext y
      -- the one occurrence that goes is the only one
      show y ∈ c.operators.erase x ↔ y ∈ w.operators ∧ y ≠ x
      rw [← hops, hs.operators.mem_erase_iff, and_comm]
    all_goals rfl
  · simp only [if_neg hx, Bool.false_eq_true, if_false]
    rw [← hops] at hx
    refine congrArg Except.ok (Ledger.ext ?_ rfl rfl rfl rfl rfl rfl rfl rfl rfl rfl rfl)
    exact (Set.sdiff_singleton_eq_self (s := w.ledger.operators) hx).symm

omit hs in
/-- The store of a token is looked up with the check that has just been made. -/
theorem assertTokenSupported_bind {α : Type} (token : Token) (f : Store → Result α) :
    (do
      PictorConfig.assertTokenSupported w token
      let s ← PictorConfig.getVaultStore w token
      f s) =
    (do
      let s ← PictorConfig.getVaultStore w token
      f s) := by
  rw [PictorConfig.assertTokenSupported, PictorConfig.getVaultStore]
  cases PictorConfig.getConfig w with
  | error e => rfl
  | ok c =>
    rw [Checked.ok_bind, Checked.ok_bind]
    by_cases h : c.vault.contains token = true
    · rw [Checked.require_of h]
      rfl
    · rw [Checked.require_of_not h]
      rfl

open Classical in
theorem withdrawToTreasury_refines (amount : UInt64) (token : Token) :
    Refines env w (.txn a (.withdrawToTreasury amount token)) := by
  obtain ⟨c, hc, -⟩ := hs.configured
  have htreasury : PictorConfig.getTreasuryAddress w = .ok w.treasury := by
    rw [PictorConfig.getTreasuryAddress_eq_ok, World.treasury, hc]
    exact ⟨c, rfl, rfl⟩
  rw [Refines, exec, execCall, PictorConfig.withdrawToTreasury, isOperator_eq hs.configured,
    Checked.ok_bind]
  refine Checked.refine_require decide_eq_true_iff fun _ => ?_
  rw [assertTokenSupported_bind, findVault_ledger hs]
  refine Checked.refine_bind fun s _ => ?_
  refine Checked.refine_bind fun taken _ => ?_
  obtain ⟨fa, l⟩ := taken
  show (PictorConfig.getTreasuryAddress { w with stores := l } >>= _).map World.ledger = _
  rw [show PictorConfig.getTreasuryAddress { w with stores := l } = .ok w.treasury from htreasury,
    Checked.ok_bind]
  exact Checked.refine_bind fun l _ => rfl

end Config

section Accounts

variable (hs : Sound env P treasury w)

include hs

theorem registerUser_refines : Refines env w (.txn a .registerUser) := by
  rw [Refines, exec, execCall, PictorNetwork.registerUser, Checked.require_of hs.initialized,
    Checked.ok_bind, registerUserInternal_ledger hs]
  exact congrArg Except.ok (ledger_enrol w a)

theorem registerWorkerInternal_ledger (id : String) :
    (PictorNetwork.registerWorkerInternal w u id).map World.ledger =
      .ok ((w.ledger.enrol u).withWorker id u) := by
  have hok : ∃ w', PictorNetwork.registerWorkerInternal w u id = .ok w' := by
    rw [PictorNetwork.registerWorkerInternal, registerUserInternal_ledger hs, Checked.ok_bind,
      show PictorNetwork.globalData (w.setUser u (w.account u)) =
        .ok ⟨w.workers, w.users.insert u (w.account u), w.creditRequests⟩ from rfl, Checked.ok_bind]
    split
    · next hfree =>
      have hnone := Table.contains_eq_false.mp (Bool.not_eq_true _ ▸ hfree)
      exact ⟨_, Checked.bind_eq_ok.mpr ⟨_, Table.add_eq_ok.mpr ⟨hnone, rfl⟩, rfl⟩⟩
    · exact ⟨_, rfl⟩
  obtain ⟨w', h⟩ := hok
  obtain ⟨workers, hworkers, rfl⟩ := registerWorkerInternal_eq_ok h
  rw [h]
  refine congrArg Except.ok ?_
  calc World.ledger ⟨w.config, some ⟨workers, w.users.insert u (w.account u), w.creditRequests⟩,
        w.stores⟩
      = { (w.setUser u (w.account u)).ledger with workerOwner := fun k => workers.lookup k } := rfl
    _ = (w.ledger.enrol u).withWorker id u := by rw [ledger_enrol, funext hworkers]; rfl

theorem registerWorker_refines (id : String) : Refines env w (.txn a (.registerWorker id)) := by
  rw [Refines, exec, execCall, PictorNetwork.registerWorker, Checked.require_of hs.initialized,
    Checked.ok_bind]
  exact registerWorkerInternal_ledger hs id

theorem opRegisterWorker_refines (u : Address) (id : String) :
    Refines env w (.txn a (.opRegisterWorker u id)) := by
  rw [Refines, exec, execCall, PictorNetwork.opRegisterWorker, assertIsOperator_ledger hs]
  exact Checked.refine_bind fun _ _ => registerWorkerInternal_ledger hs id

theorem opCreditUser_refines (u : Address) (amount : UInt64) :
    Refines env w (.txn a (.opCreditUser u amount)) := by
  rw [Refines, exec, execCall, PictorNetwork.opCreditUser, assertIsOperator_ledger hs]
  refine Checked.refine_bind fun _ _ => ?_
  rw [registerUserInternal_ledger hs, Checked.ok_bind, userInfo_setUser, Checked.ok_bind]
  refine refine_add (by rw [w.credit_account]; rfl) fun c hc => ?_
  rw [withUserInfo_setUser]
  refine congrArg Except.ok ((ledger_credit w u c).trans ?_)
  rw [hc]

open Classical in
theorem opDebitUser_refines (u : Address) (amount : UInt64) :
    Refines env w (.txn a (.opDebitUser u amount)) := by
  rw [Refines, exec, execCall, PictorNetwork.opDebitUser, assertIsOperator_ledger hs]
  refine Checked.refine_bind fun _ _ => ?_
  refine assertUserRegistered_ledger hs fun info hinfo hread => ?_
  have hc : w.credit u = info.credit.toNat := Users.credit_of_lookup hinfo
  rw [hread, Checked.ok_bind]
  refine Checked.refine_require (by rw [UInt64.le_iff_toNat_le, ← hc]; rfl) fun hle => ?_
  obtain ⟨c, hsub⟩ := U64.exists_sub.mpr (UInt64.le_iff_toNat_le.mp hle)
  rw [hsub, Checked.ok_bind, withUserInfo_ledger hs, ← w.account_of_lookup hinfo]
  refine congrArg Except.ok ((ledger_credit w u c).trans ?_)
  rw [enrol_of_registered (World.registered_iff.mpr ⟨info, hinfo⟩)]
  rw [U64.sub_eq_ok, ← hc] at hsub
  refine congrArg (w.ledger.withCredit u) ?_
  show c.toNat = w.credit u - amount.toNat
  omega

end Accounts

section Jobs

variable (hs : Sound env P treasury w)

include hs

theorem opCreateJob_refines (u : Address) (j : String) :
    Refines env w (.txn a (.opCreateJob u j)) := by
  rw [Refines, exec, execCall, PictorNetwork.opCreateJob, assertIsOperator_ledger hs]
  refine Checked.refine_bind fun _ _ => ?_
  rw [registerUserInternal_ledger hs, Checked.ok_bind, userInfo_setUser, Checked.ok_bind]
  have hfree : (¬ (w.account u).jobs.contains j = true) ↔ (w.ledger.order u j).isNone = true := by
    rw [Bool.not_eq_true, Table.contains_eq_false, w.jobs_account]
    show _ ↔ ((w.job u j).map Job.order).isNone = true
    rw [Option.isNone_map, Option.isNone_iff_eq_none]
  refine Checked.refine_require hfree fun hnew => ?_
  have hadd : (w.account u).jobs.add tableAlreadyExists j PictorNetwork.newJob =
      .ok ((w.account u).jobs.insert j PictorNetwork.newJob) :=
    Table.add_eq_ok.mpr ⟨Table.contains_eq_false.mp (Bool.not_eq_true _ ▸ hnew), rfl⟩
  rw [hadd, Checked.ok_bind, withUserInfo_setUser]
  refine congrArg Except.ok ((ledger_setUser_job w u _ _ j _).trans ?_)
  rw [w.balance_account, w.credit_account]
  apply Ledger.ext
  case credit => exact Function.update_eq_self u w.credit
  case balance => exact Function.update_eq_self u w.balance
  all_goals rfl

/-- What a job has cost is the price of the order. -/
theorem price_order {j : String} {job : Job} (hjob : w.job u j = some job) :
    job.order.price = job.payment.toNat :=
  (hs.payments u j job hjob).symm

open Classical in
theorem opAddTask_refines (u : Address) (j : String) (taskId : UInt64) (id : String)
    (cost duration : UInt64) : Refines env w (.txn a (.opAddTask u j taskId id cost duration)) := by
  rw [Refines, exec, execCall, PictorNetwork.opAddTask, assertIsOperator_ledger hs]
  refine Checked.refine_bind fun _ _ => ?_
  refine assertJobCreated_ledger hs fun job hjob => ?_
  obtain ⟨info, hinfo, hjob', hread, -⟩ := PictorNetwork.exists_userInfo hjob
  have hc : w.credit u = info.credit.toNat := Users.credit_of_lookup hinfo
  have hb : w.balance u = info.balance.toNat := Users.balance_of_lookup hinfo
  rw [hread, Checked.ok_bind]
  refine refine_add (by rw [← hc, ← hb]; rfl) fun funds hfunds => ?_
  refine Checked.refine_require (by rw [UInt64.le_iff_toNat_le, hfunds]) fun hle => ?_
  -- who can pay is charged without an underflow
  have hpays : cost.toNat ≤ w.credit u + w.balance u := hfunds ▸ UInt64.le_iff_toNat_le.mp hle
  rw [hc, hb] at hpays
  obtain ⟨info', hdeduct⟩ := deduct_returns hpays
  obtain ⟨hjobs, hcredit, hbalance⟩ := deduct_eq_ok hdeduct
  rw [hdeduct, Checked.ok_bind, hjobs, Table.borrow_eq_ok.mpr hjob', Checked.ok_bind]
  refine refine_add (congrArg (· + cost.toNat) (price_order hs hjob)) fun payment _ => ?_
  rw [withUserInfo_ledger hs]
  have haccount : w.account u = info := w.account_of_lookup hinfo
  rw [← hc] at hcredit
  rw [← hc, ← hb] at hbalance
  have hcredit' : info'.credit.toNat = w.credit u - cost.toNat := by omega
  have hbalance' : info'.balance.toNat = w.balance u - (cost.toNat - w.credit u) := by omega
  have hwrite := ledger_setUser_job w u info'.balance info'.credit j
    ⟨job.tasks ++ [⟨taskId, id, cost, duration⟩], payment, job.isCompleted⟩
  rw [haccount, enrol_of_registered (World.registered_iff.mpr ⟨info, hinfo⟩), hcredit',
    hbalance'] at hwrite
  exact congrArg Except.ok hwrite

omit hs in
/-- **The settlement loop** pays for the tasks below `n`, from the last one down. -/
theorem payLoop_ledger {L : Ledger} {p d : UInt64} {j : String} {job : Job} {n : ℕ}
    {g : GlobalData} (hworkers : L.workerOwner = fun k => g.workers.lookup k)
    (hp : p.toNat = L.percentage) (hd : d.toNat = 10000)
    (hclosed : ∀ id o, g.workers.lookup id = some o → o ∈ g.users)
    (hjob : Users.job g.users u j = some job) (hn : n ≤ job.tasks.length) :
    (PictorNetwork.payLoop u j p d n g).map (fun g' => Users.balance g'.users) =
      L.payAll (job.tasks.take n).reverse (Users.balance g.users) := by
  induction n generalizing g with
  | zero => rfl
  | succ i ih =>
    have ht : job.tasks[i]? = some job.tasks[i] := List.getElem?_eq_getElem hn
    have htake : (job.tasks.take (i + 1)).reverse =
        job.tasks[i] :: (job.tasks.take i).reverse := by
      rw [List.take_add_one, ht, List.reverse_append]
      rfl
    obtain ⟨info, hinfo, hjob'⟩ := Option.bind_eq_some_iff.mp hjob
    rw [htake, PictorNetwork.payLoop, Table.borrow_eq_ok.mpr hinfo, Checked.ok_bind,
      Table.borrow_eq_ok.mpr hjob', Checked.ok_bind, MoveVector.borrow_eq_ok.mpr ht,
      Checked.ok_bind, Ledger.payAll, hworkers]
    refine Checked.refine_bind fun o ho => ?_
    have ho' : g.workers.lookup job.tasks[i].workerId = some o := Checked.getOrAbort_eq_ok.mp ho
    obtain ⟨oinfo, hoinfo⟩ := Finmap.mem_iff.mp (hclosed _ o ho')
    rw [Table.borrow_eq_ok.mpr hoinfo, Checked.ok_bind]
    refine refine_mul (by rw [hp]) fun scaled hscaled => ?_
    obtain ⟨share, hshare⟩ : ∃ share, U64.div scaled d = .ok share :=
      ⟨scaled / d, U64.div_eq_ok.mpr ⟨by omega, UInt64.toNat_div ..⟩⟩
    rw [hshare, Checked.ok_bind]
    rw [U64.div_eq_ok, hscaled, hd] at hshare
    refine refine_add (by rw [Users.balance_of_lookup hoinfo, hshare.2]) fun b hb => ?_
    -- the table the next round reads the job from is the one this round has written
    have hround : Settles p d [job.tasks[i]] g
        { g with users := g.users.insert o { oinfo with balance := b } } := by
      refine settles_one ho' hoinfo ?_
      rw [hb, Users.balance_of_lookup hoinfo, hp, hd]
    have hnext := ih (g := { g with users := g.users.insert o { oinfo with balance := b } })
      hworkers (fun id o h => (hround.registered o).mpr (hclosed id o h))
      ((hround.job u j).trans hjob) (Nat.le_of_succ_le hn)
    rw [hnext]
    refine congrArg (L.payAll _) (funext fun x => ?_)
    rw [Users.balance_insert, hb, Function.update_apply]

open Classical in
theorem opCompleteJob_refines (u : Address) (j : String) :
    Refines env w (.txn a (.opCompleteJob u j)) := by
  obtain ⟨c, hc, -⟩ := hs.configured
  obtain ⟨g, hg⟩ := Option.isSome_iff_exists.mp hs.initialized
  have husers : w.users = g.users := by simp [World.users, hg]
  have hread : PictorConfig.getWorkerEarningPercentage w = .ok c.workerEarningPercentage :=
    PictorConfig.getWorkerEarningPercentage_eq_ok.mpr ⟨c, hc, rfl⟩
  rw [Refines, exec, execCall, PictorNetwork.opCompleteJob, assertIsOperator_ledger hs]
  refine Checked.refine_bind fun _ _ => ?_
  refine assertJobCreated_ledger hs fun job hjob => ?_
  obtain ⟨info, hinfo, hjob', -, -⟩ := PictorNetwork.exists_userInfo hjob
  rw [PictorNetwork.globalData_eq_ok.mpr hg, Checked.ok_bind, ← husers,
    Table.borrow_eq_ok.mpr hinfo, Checked.ok_bind, Table.borrow_eq_ok.mpr hjob', Checked.ok_bind,
    hread, Checked.ok_bind]
  have hmark := markedGlobal_eq hg u j info job
  rw [← husers] at hmark
  show (PictorNetwork.payLoop u j c.workerEarningPercentage PictorConfig.getDenominator
    job.tasks.length { g with users := w.users.insert u { info with
      jobs := info.jobs.insert j job.complete } } >>= _).map World.ledger = _
  rw [← hmark]
  have hself := markedGlobal_job_self w u j info job
  have hloop := payLoop_ledger (L := w.ledger) (p := c.workerEarningPercentage)
    (d := PictorConfig.getDenominator) (g := markedGlobal w u j info job) rfl
    (percentage_of_config hc).symm rfl
    (fun id o h => (markedGlobal_registered hinfo o).mpr (hs.closed.workers id o h)) hself le_rfl
  rw [show Users.balance (markedGlobal w u j info job).users = w.ledger.balance from
    funext (markedGlobal_balance hinfo), List.take_length] at hloop
  refine Checked.refine_map hloop fun g' hg' => ?_
  have hpaid := payLoop_settles hself hg'
  refine congrArg Except.ok ?_
  apply Ledger.ext
  case users =>
    ext x
    exact (hpaid.registered x).trans (markedGlobal_registered hinfo x)
  case credit => exact funext fun x => (hpaid.credit x).trans (markedGlobal_credit hinfo x)
  case order =>
    funext x k
    show (Users.job g'.users x k).map Job.order =
      if x = u ∧ k = j then some ⟨job.order.tasks, true⟩ else (w.job x k).map Job.order
    rw [hpaid.job, markedGlobal_job hinfo]
    split <;> rfl
  case workerOwner => exact congrArg (fun t k => Finmap.lookup k t) hpaid.workers
  case request => exact congrArg (fun t k => Finmap.lookup k t) hpaid.creditRequests
  all_goals rfl

end Jobs

section Tokens

variable (hs : Sound env P treasury w)

include hs

theorem deposit_refines (amount : UInt64) (token : Token) :
    Refines env w (.txn a (.deposit amount token)) := by
  rw [Refines, exec, execCall, PictorNetwork.deposit, registerUserInternal_ledger hs,
    Checked.ok_bind, userInfo_setUser, Checked.ok_bind]
  refine refine_add (by rw [w.credit_account]; rfl) fun c hc => ?_
  rw [withUserInfo_setUser, Checked.ok_bind]
  refine Checked.refine_bind fun taken _ => ?_
  obtain ⟨fa, l⟩ := taken
  show (PictorConfig.getVaultStore w token >>= _).map World.ledger = _
  rw [findVault_ledger hs]
  refine Checked.refine_bind fun s _ => ?_
  refine Checked.refine_bind fun l' _ => ?_
  refine congrArg Except.ok ?_
  have hcredit := ledger_credit w a c
  rw [hc] at hcredit
  exact congrArg (fun L : Ledger => { L with stores := l' }) hcredit

open Classical in
theorem withdraw_refines (amount : UInt64) (token : Token) :
    Refines env w (.txn a (.withdraw amount token)) := by
  rw [Refines, exec, execCall, PictorNetwork.withdraw]
  refine assertUserRegistered_ledger hs fun info hinfo hread => ?_
  have hb : w.balance a = info.balance.toNat := Users.balance_of_lookup hinfo
  rw [hread, Checked.ok_bind]
  refine Checked.refine_require (by rw [UInt64.le_iff_toNat_le, ← hb]; rfl) fun hle => ?_
  obtain ⟨b, hsub⟩ := U64.exists_sub.mpr (UInt64.le_iff_toNat_le.mp hle)
  rw [hsub, Checked.ok_bind, withUserInfo_ledger hs, Checked.ok_bind, PictorConfig.withdrawVault]
  show ((PictorConfig.getVaultStore w token >>= _) >>= _).map World.ledger = _
  rw [findVault_ledger hs, bind_assoc]
  refine Checked.refine_bind fun s _ => ?_
  rw [bind_assoc]
  refine Checked.refine_bind fun taken _ => ?_
  obtain ⟨fa, l⟩ := taken
  show (PrimaryFungibleStore.deposit env l a fa >>= _).map World.ledger =
    PrimaryFungibleStore.deposit env l a fa >>= _
  refine Checked.refine_bind fun l' _ => ?_
  refine congrArg Except.ok ?_
  rw [U64.sub_eq_ok, ← hb] at hsub
  have hbalance := ledger_balance w a (World.registered_iff.mpr ⟨info, hinfo⟩) b
  rw [w.account_of_lookup hinfo, show b.toNat = w.balance a - amount.toNat by omega] at hbalance
  exact congrArg (fun L : Ledger => { L with stores := l' }) hbalance

theorem claimCredit_refines (amount r : UInt64) (signature : List UInt8) :
    Refines env w (.txn a (.claimCredit amount r signature)) := by
  obtain ⟨c, hc, -⟩ := hs.configured
  have hpk : w.ledger.adminPubkey = c.adminPubkey := by
    show w.adminPubkey = _
    rw [World.adminPubkey, hc]
    rfl
  have hread : PictorConfig.getAdminPubkey (w.setUser a (w.account a)) = .ok c.adminPubkey := by
    rw [PictorConfig.getAdminPubkey,
      (PictorConfig.getConfig_eq_ok (w := w.setUser a (w.account a))).mpr hc]
    rfl
  rw [Refines, exec, execCall, PictorNetwork.claimCredit, registerUserInternal_ledger hs,
    Checked.ok_bind, show PictorNetwork.globalData (w.setUser a (w.account a)) =
      .ok ⟨w.workers, w.users.insert a (w.account a), w.creditRequests⟩ from rfl, Checked.ok_bind]
  have hfree : (¬ w.creditRequests.contains r = true) ↔
      (w.ledger.request r).isNone = true := by
    rw [Bool.not_eq_true, Table.contains_eq_false, Option.isNone_iff_eq_none]
    rfl
  refine Checked.refine_require hfree fun hnew => ?_
  rw [hread, Checked.ok_bind, Ed25519.newUnvalidatedPublicKeyFromBytes, bind_assoc]
  refine Checked.refine_require (by rw [hpk]) fun _ => ?_
  rw [pure_bind, Ed25519.newSignatureFromBytes, bind_assoc]
  refine Checked.refine_require Iff.rfl fun _ => ?_
  refine Checked.refine_require (by rw [hpk]) fun _ => ?_
  have hborrow : Table.borrow (w.users.insert a (w.account a)) tableNotFound a =
      .ok (w.account a) :=
    Table.borrow_eq_ok.mpr (Finmap.lookup_insert _)
  rw [hborrow, Checked.ok_bind]
  refine refine_add (by rw [w.credit_account]; rfl) fun credit hcredit => ?_
  have hadd : w.creditRequests.add tableAlreadyExists r ⟨a, amount⟩ =
      .ok (w.creditRequests.insert r ⟨a, amount⟩) :=
    Table.add_eq_ok.mpr ⟨Table.contains_eq_false.mp (Bool.not_eq_true _ ▸ hnew), rfl⟩
  rw [hadd, Checked.ok_bind]
  refine congrArg Except.ok ?_
  have hledger := ledger_credit w a credit
  rw [hcredit] at hledger
  have hwrite : (w.users.insert a (w.account a)).insert a { w.account a with credit } =
      w.users.insert a { w.account a with credit } := Finmap.insert_insert ..
  have hrequest : (fun k => Finmap.lookup k (w.creditRequests.insert r ⟨a, amount⟩)) =
      Function.update w.creditRequest r (some ⟨a, amount⟩) := by
    funext k
    rw [Table.lookup_insert_ite, Function.update_apply]
    rfl
  calc World.ledger _
      = { (w.setUser a { w.account a with credit }).ledger with
          request := fun k => Finmap.lookup k (w.creditRequests.insert r ⟨a, amount⟩) } := by
        rw [hwrite]; rfl
    _ = _ := by rw [hledger, hrequest]; rfl

omit hs in
theorem outside_refines (l' : Stores) : Refines env w (.outside l') := by
  have hkept : w.VaultKept l' ↔ ∀ token s, w.ledger.vault token = some s →
      units w.ledger.stores s ≤ units l' s := by
    constructor
    · intro h token s hs
      exact h ⟨token, s⟩ (Finmap.mem_lookup_iff.mp hs)
    · rintro h ⟨token, s⟩ hmem
      exact h token s (Finmap.mem_lookup_iff.mpr hmem)
  rw [Refines, exec, Ledger.step]
  by_cases h : w.VaultKept l'
  · rw [if_pos h, if_pos (hkept.mp h)]
    rfl
  · rw [if_neg h, if_neg fun h' => h (hkept.mpr h')]
    rfl

end Tokens

/-! ## Every action, and every run -/

/-- **The simulation step.** -/
theorem exec_refines (hs : Sound env P treasury w) (act : Action) : Refines env w act := by
  cases act with
  | outside l' => exact outside_refines l'
  | txn a call =>
    cases call with
    | initializeConfig => exact initializeConfig_refines hs _ _ _
    | initializeNetwork => exact initializeNetwork_refines hs
    | setAdminPubkey => exact setAdminPubkey_refines hs _
    | addOperator => exact addOperator_refines hs _
    | removeOperator => exact removeOperator_refines hs _
    | withdrawToTreasury => exact withdrawToTreasury_refines hs _ _
    | registerUser => exact registerUser_refines hs
    | registerWorker => exact registerWorker_refines hs _
    | opRegisterWorker => exact opRegisterWorker_refines hs _ _
    | opCreateJob => exact opCreateJob_refines hs _ _
    | opAddTask => exact opAddTask_refines hs _ _ _ _ _ _
    | opCompleteJob => exact opCompleteJob_refines hs _ _
    | opCreditUser => exact opCreditUser_refines hs _ _
    | opDebitUser => exact opDebitUser_refines hs _ _
    | deposit => exact deposit_refines hs _ _
    | withdraw => exact withdraw_refines hs _ _
    | claimCredit => exact claimCredit_refines hs _ _ _

theorem sound_preserved (env : Env) (P : Token) (treasury : Address) :
    Transactions.Preserved (exec env) (Sound env P treasury) := by
  intro w act w' hs h
  obtain ⟨hc, hn⟩ := operators_preserved env P treasury w act w' ⟨hs.configured, hs.operators⟩ h
  exact ⟨hc, initialized_of_exec h hs.initialized, hn, closed_preserved env w act w' hs.closed h,
    paymentsExact_preserved env w act w' hs.payments h⟩

theorem sound_initial {pk : List UInt8} (h : JustInitialised env P treasury pk w) :
    Sound env P treasury w := by
  have hinit : PictorNetwork.isInitialized w = true := by
    obtain ⟨l, -, rfl⟩ := justInitialised_iff.mp h
    rfl
  have hops : w.operators.Nodup := by
    rw [(operators_initial h).2]
    exact List.nodup_nil
  exact ⟨configured_initial h, hinit, hops, closed_initial h, paymentsExact_initial h⟩

theorem ledger_initial {pk : List UInt8} (h : JustInitialised env P treasury pk w) :
    w.ledger = Ledger.initial env P treasury pk w.stores := by
  obtain ⟨l, -, rfl⟩ := justInitialised_iff.mp h
  apply Ledger.ext
  case operators => exact Set.eq_empty_iff_forall_notMem.mpr fun x hx => List.not_mem_nil hx
  case users => exact Set.eq_empty_iff_forall_notMem.mpr fun x hx => Finmap.notMem_empty hx
  case vault => exact funext fun token => Table.lookup_insert_ite ∅ P token _
  all_goals rfl

/-- **The contract is the ledger**: along every run it goes through the states the ledger goes
through, accepts what the ledger accepts, and refuses the rest with the ledger's codes. -/
theorem run_refines_ledger {pk : List UInt8} (h₀ : JustInitialised env P treasury pk w)
    (as : List Action) :
    (run env w as).ledger =
        Transactions.run (Ledger.step env) (Ledger.initial env P treasury pk w.stores) as ∧
      Transactions.aborts (exec env) w as =
        Transactions.aborts (Ledger.step env) (Ledger.initial env P treasury pk w.stores) as := by
  rw [← ledger_initial h₀]
  exact Transactions.run_refines (sound_preserved env P treasury)
    (fun _ act hs => exec_refines hs act) (sound_initial h₀) as

/-- In the world of the tests: an operator is appointed and credits a user, who is then refused
what only an operator may do. -/
theorem run_refines_ledger_test :
    (run testEnv testWorld [.txn 0xcafe (.addOperator 0xbeef), .txn 0xbeef (.opCreditUser 0xdead 5),
        .txn 0xdead (.opCreditUser 0xdead 5)]).ledger =
      Transactions.run (Ledger.step testEnv)
        (Ledger.initial testEnv usdt 0xcafe testAdminPubkey testWorld.stores)
        [.txn 0xcafe (.addOperator 0xbeef), .txn 0xbeef (.opCreditUser 0xdead 5),
          .txn 0xdead (.opCreditUser 0xdead 5)] ∧
    Transactions.aborts (exec testEnv) testWorld
        [.txn 0xcafe (.addOperator 0xbeef), .txn 0xbeef (.opCreditUser 0xdead 5),
          .txn 0xdead (.opCreditUser 0xdead 5)] =
      Transactions.aborts (Ledger.step testEnv)
        (Ledger.initial testEnv usdt 0xcafe testAdminPubkey testWorld.stores)
        [.txn 0xcafe (.addOperator 0xbeef), .txn 0xbeef (.opCreditUser 0xdead 5),
          .txn 0xdead (.opCreditUser 0xdead 5)] :=
  run_refines_ledger testWorld_justInitialised _

end Pictor
