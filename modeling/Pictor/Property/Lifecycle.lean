import Pictor.Property.Charging
import Pictor.Property.Settlement
import Pictor.Property.Solvency

/-!
# The life of a job

A job is created, extended and settled. That settling ends it is the caller's discipline, not the
contract's: neither `op_add_task` nor `op_complete_job` looks at `is_completed`. `Reopens` says
which calls take a settled job up again. A run in which none of them is submitted, and only such a
run, leaves settled jobs as they are and pays each task's share once.
-/

namespace Pictor

open Transactions (AllSubmitted)

variable {env : Env} {P : Token} {treasury : Address} {pk : List UInt8} {w w' : World}
  {u : Address} {j : String} {job : Job} {act : Action}

/-- The job an action extends or settles. -/
def changesJob : Action → Option (Address × String)
  | .txn _ (.opAddTask u j _ _ _ _) => some (u, j)
  | .txn _ (.opCompleteJob u j) => some (u, j)
  | _ => none

theorem changesJob_cases (h : changesJob act = some (u, j)) :
    (∃ a t, act = addTask a u j t) ∨ ∃ a, act = .txn a (.opCompleteJob u j) := by
  unfold changesJob at h
  split at h
  · next a _ _ taskId id cost duration =>
    cases h
    exact .inl ⟨a, ⟨taskId, id, cost, duration⟩, rfl⟩
  · next a _ _ =>
    cases h
    exact .inr ⟨a, rfl⟩
  · cases h

theorem settlesJob_eq_some (h : settlesJob act = some (u, j)) :
    ∃ a, act = .txn a (.opCompleteJob u j) := by
  unfold settlesJob at h
  split at h
  · next a _ _ =>
    cases h
    exact ⟨a, rfl⟩
  · cases h

/-! ## Calls on settled jobs -/

/-- Each task has a worker, its product is a `u64`, and so is the balance its owner ends with. -/
def SettlementFits (w : World) (job : Job) : Prop :=
  ∀ t ∈ job.tasks, t.cost.toNat * w.percentage < 2 ^ 64 ∧
    ∃ o ∈ w.workerOwner t.workerId, w.balance o + earnings o w job.tasks < 2 ^ 64

/-- The user can pay, and the two sums are `u64`s. -/
def ChargeFits (w : World) (u : Address) (job : Job) (cost : UInt64) : Prop :=
  w.credit u + w.balance u < 2 ^ 64 ∧ cost.toNat ≤ w.credit u + w.balance u ∧
    job.payment.toNat + cost.toNat < 2 ^ 64

/-- An operator's call that extends or settles a settled job, with sums that fit. -/
def Reopens (w : World) : Action → Prop
  | .txn a (.opAddTask u j _ _ cost _) => a ∈ w.operators ∧ w.jobCompleted u j = true ∧
    ∀ job ∈ w.job u j, ChargeFits w u job cost
  | .txn a (.opCompleteJob u j) => a ∈ w.operators ∧ w.jobCompleted u j = true ∧
    ∀ job ∈ w.job u j, SettlementFits w job
  | _ => False

instance (w : World) (job : Job) : Decidable (SettlementFits w job) :=
  inferInstanceAs (Decidable (∀ t ∈ job.tasks, _))

instance (w : World) (u : Address) (job : Job) (cost : UInt64) :
    Decidable (ChargeFits w u job cost) :=
  inferInstanceAs (Decidable (_ ∧ _))

instance (w : World) : (act : Action) → Decidable (Reopens w act)
  | .txn a (.opAddTask u j _ _ cost _) => inferInstanceAs (Decidable (a ∈ w.operators ∧
    w.jobCompleted u j = true ∧ ∀ job ∈ w.job u j, ChargeFits w u job cost))
  | .txn a (.opCompleteJob u j) => inferInstanceAs (Decidable (a ∈ w.operators ∧
    w.jobCompleted u j = true ∧ ∀ job ∈ w.job u j, SettlementFits w job))
  | .outside _ | .txn _ (.initializeConfig ..) | .txn _ (.setAdminPubkey _)
  | .txn _ (.addOperator _) | .txn _ (.removeOperator _) | .txn _ (.withdrawToTreasury ..)
  | .txn _ .initializeNetwork | .txn _ .registerUser | .txn _ (.registerWorker _)
  | .txn _ (.opRegisterWorker ..) | .txn _ (.opCreateJob ..) | .txn _ (.opCreditUser ..)
  | .txn _ (.opDebitUser ..) | .txn _ (.deposit ..) | .txn _ (.withdraw ..)
  | .txn _ (.claimCredit ..) => instDecidableFalse

theorem jobCompleted_iff : w.jobCompleted u j = true ↔
    ∃ job, w.job u j = some job ∧ job.isCompleted = true :=
  Option.any_eq_true _ _

/-- Who owns none of the workers earns nothing. -/
theorem earnings_eq_zero {x : Address} {tasks : List Task}
    (h : ∀ t ∈ tasks, w.workerOwner t.workerId ≠ some x) : earnings x w tasks = 0 := by
  rw [earnings, List.sum_eq_zero]
  intro n hn
  obtain ⟨t, ht, rfl⟩ := List.mem_map.mp hn
  exact if_neg (h t ht)

theorem settlementFits_iff : SettlementFits w job ↔
    (∀ t ∈ job.tasks, ∃ o, w.workerOwner t.workerId = some o) ∧
    (∀ t ∈ job.tasks, t.cost.toNat * w.percentage < 2 ^ 64) ∧
    ∀ x, w.balance x + earnings x w job.tasks < 2 ^ 64 := by
  constructor
  · intro h
    refine ⟨fun t ht => ?_, fun t ht => (h t ht).1, fun x => ?_⟩
    · obtain ⟨-, o, ho, -⟩ := h t ht
      exact ⟨o, ho⟩
    · by_cases hx : ∃ t ∈ job.tasks, w.workerOwner t.workerId = some x
      · obtain ⟨t, ht, hx⟩ := hx
        obtain ⟨-, o, ho, hbalance⟩ := h t ht
        rw [Option.mem_def, hx, Option.some.injEq] at ho
        exact ho ▸ hbalance
      · rw [earnings_eq_zero fun t ht howner => hx ⟨t, ht, howner⟩]
        exact w.balance_lt x
  · rintro ⟨howned, hproduct, hbalance⟩ t ht
    obtain ⟨o, ho⟩ := howned t ht
    exact ⟨hproduct t ht, o, ho, hbalance o⟩

/-- **What becomes of a call on a settled job.** -/
theorem returns_iff_reopens (env : Env) (hcl : Closed w) (hact : changesJob act = some (u, j))
    (hjob : w.job u j = some job) (hdone : job.isCompleted = true) :
    (∃ w', exec env w act = .ok w') ↔ Reopens w act := by
  have hflag : w.jobCompleted u j = true := jobCompleted_iff.mpr ⟨job, hjob, hdone⟩
  rcases changesJob_cases hact with ⟨a, t, rfl⟩ | ⟨a, rfl⟩
  · constructor
    · rintro ⟨w', h⟩
      have hop : a ∈ w.operators := (exec_accepted h).1
      refine ⟨hop, hflag, fun job' hjob' => ?_⟩
      rw [Option.mem_def, hjob, Option.some.injEq] at hjob'
      subst hjob'
      rcases opAddTask_cases env hop hjob t with ⟨-, herr⟩ | ⟨-, herr⟩ | ⟨-, -, -, herr⟩ |
        ⟨hsum, hcan, hpay, -⟩
      · rw [h] at herr
        cases herr
      · rw [h] at herr
        cases herr
      · rw [h] at herr
        cases herr
      · exact ⟨hsum, hcan, hpay⟩
    · rintro ⟨hop, -, hfits⟩
      obtain ⟨hsum, hcan, hpay⟩ := hfits job hjob
      rcases opAddTask_cases env hop hjob t with ⟨hover, -⟩ | ⟨hpoor, -⟩ | ⟨-, -, hover, -⟩ |
        ⟨-, -, -, h⟩
      · omega
      · omega
      · omega
      · exact h
  · constructor
    · rintro ⟨w', h⟩
      have hop : a ∈ w.operators := (exec_accepted h).1
      refine ⟨hop, hflag, fun job' hjob' => ?_⟩
      rw [Option.mem_def, hjob, Option.some.injEq] at hjob'
      subst hjob'
      exact settlementFits_iff.mpr ((opCompleteJob_returns_iff hcl hop hjob).mp ⟨w', h⟩)
    · rintro ⟨hop, -, hfits⟩
      exact (opCompleteJob_returns_iff hcl hop hjob).mpr (settlementFits_iff.mp (hfits job hjob))

/-- Such a call is about a settled job. -/
theorem Reopens.exists_job (h : Reopens w act) :
    ∃ u j, changesJob act = some (u, j) ∧ w.jobCompleted u j = true := by
  unfold Reopens at h
  split at h
  · next u j _ _ _ _ => exact ⟨u, j, rfl, h.2.1⟩
  · next u j => exact ⟨u, j, rfl, h.2.1⟩
  · cases h

/-! ## The flag -/

/-- A settlement sets the flag. -/
theorem jobCompleted_of_settles (h : exec env w act = .ok w')
    (hact : settlesJob act = some (u, j)) : w'.jobCompleted u j = true := by
  obtain ⟨a, rfl⟩ := settlesJob_eq_some hact
  obtain ⟨-, job, hjob, -⟩ := exec_accepted h
  exact jobCompleted_iff.mpr ⟨job.complete, (settled_of_exec h hjob).job, rfl⟩

/-- Nothing else does. -/
theorem jobCompleted_step (h : exec env w act = .ok w') (hflag : w'.jobCompleted u j = true) :
    w.jobCompleted u j = true ∨ settlesJob act = some (u, j) := by
  obtain ⟨job', hjob', hdone⟩ := jobCompleted_iff.mp hflag
  rw [(exec_effect h).job] at hjob'
  rcases jobAfter_cases hjob' with hold | ⟨a, rfl, rfl⟩ | ⟨a, t, job, rfl, hold, rfl⟩ |
    ⟨a, job, rfl, hold, rfl⟩
  · exact .inl (jobCompleted_iff.mpr ⟨job', hold, hdone⟩)
  · cases hdone
  · exact .inl (jobCompleted_iff.mpr ⟨job, hold, hdone⟩)
  · exact .inr rfl

/-- The flag is never taken back. -/
theorem Extends.jobCompleted (h : Extends w w') (hdone : w.jobCompleted u j = true) :
    w'.jobCompleted u j = true := by
  obtain ⟨job, hjob, hflag⟩ := jobCompleted_iff.mp hdone
  obtain ⟨job', hjob', -, hflag'⟩ := h.job u j job hjob
  exact jobCompleted_iff.mpr ⟨job', hjob', hflag' hflag⟩

/-- A settled job has been settled by a step of the run. -/
theorem exists_settlement {w₀ : World} (h₀ : JustInitialised env P treasury pk w₀)
    (as : List Action) (hflag : (run env w₀ as).jobCompleted u j = true) :
    ∃ e ∈ history env w₀ as, settlesJob e.act = some (u, j) := by
  refine Transactions.run_induction (I := fun h (w : World) => w.jobCompleted u j = true →
    ∃ e ∈ h, settlesJob e.act = some (u, j)) ?_ ?_ as hflag
  · obtain ⟨l, -, rfl⟩ := justInitialised_iff.mp h₀
    intro hflag
    cases hflag
  · intro h w act w' ih hstep hflag
    rcases jobCompleted_step hstep hflag with hbefore | hact
    · obtain ⟨e, he, hact⟩ := ih hbefore
      exact ⟨e, List.mem_append_left _ he, hact⟩
    · exact ⟨⟨w, act, w'⟩, List.mem_append_right _ (List.mem_singleton.mpr rfl), hact⟩

/-! ## Steps that leave settled jobs alone -/

/-- A step extends or settles no job that has been settled. -/
def KeepsCompleted (w : World) (act : Action) : Prop :=
  ∀ p ∈ changesJob act, w.jobCompleted p.1 p.2 = false

/-- A step that succeeds and does not reopen a settled job is not about one. -/
theorem keepsCompleted_of_exec (hcl : Closed w) (hact : ¬ Reopens w act)
    (h : exec env w act = .ok w') : KeepsCompleted w act := by
  rintro ⟨u, j⟩ hchanges
  by_contra hflag
  obtain ⟨job, hjob, hdone⟩ := jobCompleted_iff.mp ((Bool.not_eq_false _).mp hflag)
  exact hact ((returns_iff_reopens env hcl hchanges hjob hdone).mp ⟨w', h⟩)

/-- **A settled job is left alone.** -/
theorem completedJob_step (hdone : job.isCompleted = true) (hjob : w.job u j = some job)
    (hC : KeepsCompleted w act) (h : exec env w act = .ok w') : w'.job u j = some job := by
  have hflag : w.jobCompleted u j = true := jobCompleted_iff.mpr ⟨job, hjob, hdone⟩
  rw [(exec_effect h).job, jobAfter_of_target_ne, hjob]
  intro htarget
  -- it can not be created again, and the condition rules out the other two
  rcases targetJob_cases htarget with ⟨a, rfl⟩ | ⟨a, t, rfl⟩ | ⟨a, rfl⟩
  · obtain ⟨-, hnone⟩ := exec_accepted h
    rw [hjob] at hnone
    cases hnone
  · have hopen := hC (u, j) rfl
    rw [hflag] at hopen
    cases hopen
  · have hopen := hC (u, j) rfl
    rw [hflag] at hopen
    cases hopen

/-! ## What is paid for a job -/

section Shares

variable (u j) (x : Address)

/-- What `x`'s balance grows by in the settlements of job `j` of `u`. -/
def gained (h : List (Transactions.Event World Action)) : ℕ :=
  ((h.filter fun e => settlesJob e.act = some (u, j)).map fun e =>
    e.post.balance x - e.pre.balance x).sum

/-- The shares of `x` in job `j` of `u`, each task's once, if the job is settled. -/
def settledShares (w : World) : ℕ :=
  (w.job u j).elim 0 fun job => if job.isCompleted then earnings x w job.tasks else 0

/-- What an action charges `u` for job `j`. -/
def chargedFor (_ : World) : Action → ℕ
  | .txn _ (.opAddTask v k _ _ cost _) => if v = u ∧ k = j then cost.toNat else 0
  | _ => 0

variable {u j x}

theorem settledShares_of_open (h : w.jobCompleted u j = false) : settledShares u j x w = 0 := by
  unfold settledShares
  cases hjob : w.job u j with
  | none => rfl
  | some job =>
    rw [World.jobCompleted, hjob] at h
    exact if_neg (by simpa using h)

theorem settledShares_of_settled (hjob : w.job u j = some job) (hdone : job.isCompleted = true) :
    settledShares u j x w = earnings x w job.tasks := by
  rw [settledShares, hjob, Option.elim_some, if_pos hdone]

/-- The tasks of the job have owners, if it is settled. -/
def SettledOwned (u : Address) (j : String) (w : World) : Prop :=
  ∀ job, w.job u j = some job → job.isCompleted = true →
    ∀ t ∈ job.tasks, ∃ o, w.workerOwner t.workerId = some o

/-- **The settlement pays each task's share**, … -/
theorem shares_of_settlement (hC : KeepsCompleted w act) (h : exec env w act = .ok w')
    (hact : settlesJob act = some (u, j)) : SettledOwned u j w' ∧
      settledShares u j x w' = settledShares u j x w + (w'.balance x - w.balance x) := by
  obtain ⟨a, rfl⟩ := settlesJob_eq_some hact
  obtain ⟨-, job, hjob, howned⟩ := exec_accepted h
  have hsettled := settled_of_exec h hjob
  have hext := exec_extends h
  have hp : w'.percentage = w.percentage := by
    rw [World.percentage, hsettled.config]
    rfl
  constructor
  · intro job' hjob' _ t ht
    rw [hsettled.job, Option.some.injEq] at hjob'
    subst hjob'
    obtain ⟨o, ho⟩ := howned t ht
    exact ⟨o, hext.workerOwner _ o ho⟩
  · have hshares : earnings x w' job.complete.tasks = earnings x w job.tasks :=
      hext.earnings hp x howned
    rw [settledShares_of_open (hC (u, j) rfl), settledShares_of_settled hsettled.job rfl,
      hsettled.balance, hshares]
    omega

/-- … and no other step that leaves settled jobs alone changes what they are. -/
theorem shares_of_other (hp : w'.percentage = w.percentage) (howned : SettledOwned u j w)
    (hC : KeepsCompleted w act) (h : exec env w act = .ok w')
    (hact : settlesJob act ≠ some (u, j)) : SettledOwned u j w' ∧
      settledShares u j x w' = settledShares u j x w := by
  cases hflag : w.jobCompleted u j with
  | true =>
    obtain ⟨job, hjob, hdone⟩ := jobCompleted_iff.mp hflag
    have hjob' := completedJob_step hdone hjob hC h
    have hext := exec_extends h
    constructor
    · intro job'' hjob'' _ t ht
      rw [hjob', Option.some.injEq] at hjob''
      subst hjob''
      obtain ⟨o, ho⟩ := howned job hjob hdone t ht
      exact ⟨o, hext.workerOwner _ o ho⟩
    · rw [settledShares_of_settled hjob hdone, settledShares_of_settled hjob' hdone,
        hext.earnings hp x (howned job hjob hdone)]
  | false =>
    have hopen : w'.jobCompleted u j = false := by
      by_contra hne
      rcases jobCompleted_step h ((Bool.not_eq_false _).mp hne) with hbefore | hsettles
      · rw [hflag] at hbefore
        cases hbefore
      · exact hact hsettles
    constructor
    · intro job' hjob' hdone
      rw [jobCompleted_iff.mpr ⟨job', hjob', hdone⟩] at hopen
      cases hopen
    · rw [settledShares_of_open hflag, settledShares_of_open hopen]

theorem gained_append (h : List (Transactions.Event World Action))
    (e : Transactions.Event World Action) :
    gained u j x (h ++ [e]) = gained u j x h +
      if settlesJob e.act = some (u, j) then e.post.balance x - e.pre.balance x else 0 := by
  unfold gained
  rw [List.filter_append, List.map_append, List.sum_append]
  by_cases hact : settlesJob e.act = some (u, j)
  · simp [hact]
  · simp [hact]

/-- **Each share is paid once**, along a run whose steps leave settled jobs alone. -/
theorem gained_run {w₀ : World} (h₀ : JustInitialised env P treasury pk w₀) (as : List Action)
    (hC : ∀ e ∈ history env w₀ as, KeepsCompleted e.pre e.act) :
    gained u j x (history env w₀ as) = settledShares u j x (run env w₀ as) := by
  have key : Configured env P treasury (run env w₀ as) ∧
      ((∀ e ∈ history env w₀ as, KeepsCompleted e.pre e.act) →
        SettledOwned u j (run env w₀ as) ∧
          gained u j x (history env w₀ as) = settledShares u j x (run env w₀ as)) := by
    refine Transactions.run_induction (I := fun h w => Configured env P treasury w ∧
      ((∀ e ∈ h, KeepsCompleted e.pre e.act) →
        SettledOwned u j w ∧ gained u j x h = settledShares u j x w)) ?_ ?_ as
    · refine ⟨configured_initial h₀, fun _ => ?_⟩
      obtain ⟨l, -, rfl⟩ := justInitialised_iff.mp h₀
      refine ⟨fun job hjob => ?_, rfl⟩
      cases hjob
    · rintro h w act w' ⟨hcfg, ih⟩ hstep
      have hcfg' := configured_preserved env P treasury w act w' hcfg hstep
      refine ⟨hcfg', fun hkeeps => ?_⟩
      obtain ⟨howned, hgained⟩ := ih fun e he => hkeeps e (List.mem_append_left _ he)
      have hkeep : KeepsCompleted w act :=
        hkeeps ⟨w, act, w'⟩ (List.mem_append_right _ (List.mem_singleton.mpr rfl))
      rw [gained_append, hgained]
      by_cases hact : settlesJob act = some (u, j)
      · obtain ⟨howned', hshares⟩ := shares_of_settlement (x := x) hkeep hstep hact
        rw [if_pos hact]
        exact ⟨howned', hshares.symm⟩
      · have hp : w'.percentage = w.percentage := by rw [hcfg'.percentage, hcfg.percentage]
        obtain ⟨howned', hshares⟩ := shares_of_other (x := x) hp howned hkeep hstep hact
        rw [if_neg hact]
        exact ⟨howned', hshares.symm⟩
  exact (key.2 hC).2

end Shares

/-! ## Over a run -/

/-- Settling job `j` of `u` ends it: after a settlement it is neither settled nor extended again, it
stays what it was, and its owner is charged nothing more for it. Over the whole run each of its
tasks' shares is added once to the balance of whoever owns the worker. -/
structure PaysOnce (env : Env) (w₀ : World) (as : List Action) (u : Address) (j : String) :
    Prop where
  terminal : ∀ h e h', history env w₀ as = h ++ e :: h' → settlesJob e.act = some (u, j) →
    (∀ e' ∈ h', changesJob e'.act ≠ some (u, j) ∧ e'.post.job u j = e.post.job u j) ∧
      total (chargedFor u j) h' = 0
  shares : ∀ x, gained u j x (history env w₀ as) = settledShares u j x (run env w₀ as)

/-- What calls on the settled job `j` of `u` do: they return if they reopen it, and then the
settlement pays all shares again and the charge is a charge like any other. -/
structure Reopened (env : Env) (w : World) (u : Address) (j : String) (job : Job) : Prop where
  returns : ∀ act, changesJob act = some (u, j) →
    ((∃ w', exec env w act = .ok w') ↔ Reopens w act)
  settled : ∀ a w', exec env w (.txn a (.opCompleteJob u j)) = .ok w' → JobSettled w u j job w'
  charged : ∀ a t w', exec env w (addTask a u j t) = .ok w' → Charged u j w job [(a, t)] w'

theorem paysOnce_of_keepsCompleted {w₀ : World} (h₀ : JustInitialised env P treasury pk w₀)
    (as : List Action) (hC : ∀ e ∈ history env w₀ as, KeepsCompleted e.pre e.act) (u : Address)
    (j : String) : PaysOnce env w₀ as u j := by
  refine ⟨fun h e h' heq hact => ?_, fun x => gained_run h₀ as hC⟩
  obtain ⟨bs, cs, -, -, hstep, -, rfl⟩ := Transactions.exists_split_of_history heq
  have hC' : ∀ e' ∈ history env e.post cs, KeepsCompleted e'.pre e'.act := by
    intro e' he'
    refine hC e' ?_
    rw [heq]
    exact List.mem_append_right _ (List.mem_cons_of_mem _ he')
  have hflag := jobCompleted_of_settles hstep hact
  have hlater : ∀ e' ∈ history env e.post cs, changesJob e'.act ≠ some (u, j) := by
    intro e' he' hchange
    have hopen := hC' e' he' (u, j) hchange
    rw [(extends_pre he').jobCompleted hflag] at hopen
    cases hopen
  obtain ⟨job, hjob, hdone⟩ := jobCompleted_iff.mp hflag
  refine ⟨fun e' he' => ⟨hlater e' he', ?_⟩, Transactions.total_eq_zero fun e' he' => ?_⟩
  · have hpre : e'.pre.job u j = some job := Transactions.invariant_of_pre
      (fun _ _ _ hs hkeep h => completedJob_step hdone hs hkeep h) hjob hC' he'
    rw [completedJob_step hdone hpre (hC' e' he') (exec_of_mem_history he'), hjob]
  · have hne := hlater e' he'
    unfold chargedFor
    split
    · next v k _ _ _ _ heq =>
      rw [if_neg]
      rintro ⟨rfl, rfl⟩
      rw [heq] at hne
      exact hne rfl
    · rfl

/-- A call that reopens a job does so after its settlement, and succeeds. -/
theorem not_reopens_of_paysOnce {w₀ : World} (h₀ : JustInitialised env P treasury pk w₀)
    {as bs cs : List Action} (has : as = bs ++ act :: cs)
    (honce : ∀ u j, PaysOnce env w₀ as u j) : ¬ Reopens (run env w₀ bs) act := by
  intro hreopens
  obtain ⟨u, j, hchanges, hflag⟩ := hreopens.exists_job
  obtain ⟨job, hjob, hdone⟩ := jobCompleted_iff.mp hflag
  obtain ⟨w', hstep⟩ :=
    (returns_iff_reopens env (closed_run h₀ bs) hchanges hjob hdone).mpr hreopens
  obtain ⟨e, he, hact⟩ := exists_settlement h₀ bs hflag
  obtain ⟨h, h', hsplit⟩ := List.append_of_mem he
  have heq : history env w₀ as =
      h ++ e :: (h' ++ ⟨run env w₀ bs, act, w'⟩ :: history env w' cs) := by
    rw [has, history_append, hsplit, history, Transactions.history_cons_ok hstep,
      List.append_assoc, List.cons_append]
  have hlater := ((honce u j).terminal h e _ heq hact).1 ⟨run env w₀ bs, act, w'⟩
    (List.mem_append_right _ List.mem_cons_self)
  exact hlater.1 hchanges

/-- **When settling a job ends it**: in the runs in which no call is submitted that reopens a
settled job, and in no others. Such a call always succeeds, and pays or charges as if the job were
open. -/
theorem completion_terminal_iff {w₀ : World} (h₀ : JustInitialised env P treasury pk w₀)
    (as : List Action) :
    (AllSubmitted (exec env) (fun w act => ¬ Reopens w act) w₀ as ↔
      ∀ u j, PaysOnce env w₀ as u j) ∧
    ∀ u j job, (run env w₀ as).job u j = some job → job.isCompleted = true →
      Reopened env (run env w₀ as) u j job := by
  refine ⟨⟨fun hsubmitted => ?_, fun honce => ?_⟩, fun u j job hjob hdone => ?_⟩
  · apply paysOnce_of_keepsCompleted h₀
    intro e he
    have hcl := Transactions.invariant_pre (closed_preserved env) (closed_initial h₀) he
    exact keepsCompleted_of_exec hcl (hsubmitted.of_mem_history he) (exec_of_mem_history he)
  · by_contra hsubmitted
    obtain ⟨bs, act, cs, has, hreopens⟩ := Transactions.exists_of_not_allSubmitted hsubmitted
    exact hreopens (not_reopens_of_paysOnce h₀ has honce)
  · constructor
    case returns =>
      intro act hact
      exact returns_iff_reopens env (closed_run h₀ as) hact hjob hdone
    case settled =>
      intro a w' h
      exact settled_of_exec h hjob
    case charged =>
      intro a t w' h
      have hsubmit : submitTasks env u j (run env w₀ as) [(a, t)] = .ok w' := by
        rw [submitTasks, h]
        rfl
      exact charged_of_submitTasks hjob hsubmit

theorem completion_terminal_iff_test :
    PaysOnce testEnv testWorld
      (settlement ++
        [.txn 0xdad (.opCreditUser 0xdead 50), .txn 0xbad (.opCompleteJob 0xdead "job")])
      0xdead "job" :=
  (completion_terminal_iff testWorld_justInitialised _).1.mp (by decide) 0xdead "job"

/-- After its settlement a job is extended and settled again. -/
def reopenedJob : List Action :=
  [.txn 0xdad (.opCreditUser 0xdead 50), .txn 0xdad (.opAddTask 0xdead "job" 2 "worker" 50 1),
    .txn 0xdad (.opCompleteJob 0xdead "job")]

/-- **Settling a job does not end it**: it is charged for again, and of the shares 60 and 30 of its
two tasks the first is paid twice. -/
theorem completion_repeatable :
    total (chargedFor 0xdead "job")
        (history testEnv (run testEnv testWorld settlement) reopenedJob) = 50 ∧
      settledShares 0xdead "job" 0xdead (run testEnv testWorld (settlement ++ reopenedJob)) = 90 ∧
      gained 0xdead "job" 0xdead (history testEnv testWorld (settlement ++ reopenedJob)) = 150 ∧
      ¬ PaysOnce testEnv testWorld (settlement ++ reopenedJob) 0xdead "job" := by
  have hshares :
      settledShares 0xdead "job" 0xdead (run testEnv testWorld (settlement ++ reopenedJob)) = 90 :=
    by decide
  have hgained :
      gained 0xdead "job" 0xdead (history testEnv testWorld (settlement ++ reopenedJob)) = 150 := by
    decide
  refine ⟨by decide, hshares, hgained, fun honce => ?_⟩
  have heq := honce.shares 0xdead
  rw [hshares, hgained] at heq
  cases heq

end Pictor
