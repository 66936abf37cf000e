import Mathlib.Data.List.Pairwise
import Pictor.Property.Commutation

/-!
# Whole schedules

Two runs in which the same pairwise unrelated calls succeed end in the same state, in whatever order
they succeed and whatever else is tried and refused in between. Swapping neighbours does not prove
it, since the orders between the two need not succeed. `Outcome` says instead what calls that have
succeeded amount to, as sums and folds over their list that do not depend on its order.
-/

namespace Pictor

variable {env : Env} {P : Token} {treasury : Address} {w s s' : World} {acts : List Action}
  {t : Action}

/-- The actions that succeed in a run, in order. -/
def succeeded (env : Env) (w : World) (as : List Action) : List Action :=
  (history env w as).map fun e => e.act

/-- What `x` is paid by a settlement of a job of `w`, if the workers' owners are `owner`. -/
def paidBy (owner : String → Option Address) (x : Address) (w : World) : Action → ℕ
  | .txn _ (.opCompleteJob v j) => (w.job v j).elim 0 fun job =>
    (job.tasks.map fun t => if owner t.workerId = some x then share w t else 0).sum
  | _ => 0

/-- A settlement whose tasks all have an owner among `owner`. -/
def PaysOwners (owner : String → Option Address) (w : World) : Action → Prop
  | .txn _ (.opCompleteJob v j) => ∀ job, w.job v j = some job →
    ∀ t ∈ job.tasks, ∃ o, owner t.workerId = some o
  | _ => True

/-- `s` is what the successful calls `acts` make of `w`. -/
structure Outcome (env : Env) (w : World) (acts : List Action) (s : World) : Prop where
  registered : ∀ x, s.registered x ↔ w.registered x ∨ ∃ t ∈ acts, registers t = some x
  credit : ∀ x, s.credit x + (acts.map (creditOut x w)).sum =
    w.credit x + (acts.map (creditIn x w)).sum
  balance : ∀ x, s.balance x + (acts.map (balanceOut x w)).sum =
    w.balance x + (acts.map (paidBy s.workerOwner x w)).sum
  job : ∀ x k, s.job x k = acts.foldl (fun old t => jobAfter t x k old) (w.job x k)
  workerOwner : ∀ k, s.workerOwner k =
    acts.foldl (fun o t => o.or (newWorker t k)) (w.workerOwner k)
  creditRequest : ∀ r, s.creditRequest r =
    acts.foldl (fun o t => o.or (newRequest t r)) (w.creditRequest r)
  config : s.config = w.config
  owned : ∀ t ∈ acts, PaysOwners s.workerOwner w t

theorem paidBy_self (x : Address) (w : World) (t : Action) :
    paidBy w.workerOwner x w t = balanceIn x w t := by
  cases t with
  | outside l' => rfl
  | txn a call => cases call <;> rfl

/-- Owners that are known stay, so what they are paid does too. -/
theorem paidBy_stable {owner owner' : String → Option Address}
    (hext : ∀ id o, owner id = some o → owner' id = some o) (hpays : PaysOwners owner w t)
    (x : Address) : paidBy owner' x w t = paidBy owner x w t := by
  unfold paidBy
  split
  · next a v j =>
    cases hjob : w.job v j with
    | none => rfl
    | some job =>
      refine congrArg List.sum (List.map_congr_left fun t ht => ?_)
      obtain ⟨o, ho⟩ := hpays job hjob t ht
      rw [ho, hext _ o ho]
  · rfl

theorem PaysOwners.mono {owner owner' : String → Option Address}
    (hext : ∀ id o, owner id = some o → owner' id = some o) (hpays : PaysOwners owner w t) :
    PaysOwners owner' w t := by
  unfold PaysOwners at hpays ⊢
  split
  · intro job hjob t ht
    obtain ⟨o, ho⟩ := hpays job hjob t ht
    exact ⟨o, hext _ o ho⟩
  · trivial

/-! ## One more call -/

theorem Outcome.nil (env : Env) (w : World) : Outcome env w [] w where
  registered := fun x => by simp
  credit := fun _ => rfl
  balance := fun _ => rfl
  job := fun _ _ => rfl
  workerOwner := fun _ => rfl
  creditRequest := fun _ => rfl
  config := rfl
  owned := by
    intro t ht
    cases ht

theorem sum_map_eq_zero {f : Action → ℕ} (h : ∀ t ∈ acts, f t = 0) : (acts.map f).sum = 0 := by
  rw [List.sum_eq_zero]
  intro n hn
  obtain ⟨t, ht, rfl⟩ := List.mem_map.mp hn
  exact h t ht

/-- The account of a user whom no call names yet is as before, up to what she was paid. -/
theorem Outcome.untouched (h : Outcome env w acts s) {v : Address}
    (hv : ∀ t ∈ acts, subject t ≠ some v) :
    s.credit v = w.credit v ∧ ∀ k, s.job v k = w.job v k := by
  constructor
  · have hc := h.credit v
    rw [sum_map_eq_zero fun t ht => (credit_frame (hv t ht) w).1,
      sum_map_eq_zero fun t ht => (credit_frame (hv t ht) w).2] at hc
    exact hc
  · intro k
    rw [h.job]
    clear h
    induction acts with
    | nil => rfl
    | cons t acts ih =>
      rw [List.foldl_cons, jobAfter_frame (hv t List.mem_cons_self)]
      exact ih fun t' ht' => hv t' (List.mem_cons_of_mem t ht')

/-- **A call moves what it would have moved at first**, if none before it names its user. -/
theorem Outcome.quantities (h : Outcome env w acts s) {v : Address} (ht : subject t = some v)
    (hv : ∀ t' ∈ acts, subject t' ≠ some v) (x : Address) :
    creditIn x s t = creditIn x w t ∧ creditOut x s t = creditOut x w t ∧
      balanceOut x s t = balanceOut x w t ∧
      balanceIn x s t = paidBy s.workerOwner x w t := by
  obtain ⟨hcredit, hjob⟩ := h.untouched hv
  have hpercentage : s.percentage = w.percentage := by
    rw [World.percentage, World.percentage, h.config]
  cases t with
  | outside l' => cases ht
  | txn a call =>
    cases call with
    | opAddTask u j taskId id cost duration =>
      obtain rfl : u = v := Option.some.inj ht
      rw [creditOut_opAddTask, creditOut_opAddTask, balanceOut_opAddTask, balanceOut_opAddTask]
      by_cases hx : u = x
      · rw [← hx, hcredit]
        exact ⟨rfl, rfl, rfl, rfl⟩
      · simp only [if_neg hx]
        exact ⟨rfl, trivial, trivial, rfl⟩
    | opCompleteJob u j =>
      obtain rfl : u = v := Option.some.inj ht
      refine ⟨rfl, rfl, rfl, ?_⟩
      rw [← paidBy_self]
      simp only [paidBy, hjob, share, hpercentage]
    | _ => exact ⟨rfl, rfl, rfl, rfl⟩

theorem Outcome.snoc (h : Outcome env w acts s) (hun : ∀ t' ∈ acts, Unrelated t' t)
    {v : Address} (ht : subject t = some v) (hstep : exec env s t = .ok s') :
    Outcome env w (acts ++ [t]) s' := by
  have he := exec_effect hstep
  have hext := (exec_extends hstep).workerOwner
  have hv : ∀ t' ∈ acts, subject t' ≠ some v :=
    fun t' ht' => ((hun t' ht').subject_ne v).resolve_right (not_not.mpr ht)
  have hquantities := h.quantities ht hv
  -- the call was accepted, so the tasks it pays had owners then
  have hpays : PaysOwners s.workerOwner w t := by
    have haccepted := exec_accepted hstep
    unfold PaysOwners
    split
    · next a u j =>
      obtain rfl : u = v := Option.some.inj ht
      obtain ⟨-, job, hjob, howned⟩ := haccepted
      intro job' hjob' t ht
      rw [(h.untouched hv).2, hjob', Option.some.injEq] at hjob
      subst hjob
      exact howned t ht
    · trivial
  have hsame : ∀ x, ∀ t' ∈ acts, paidBy s'.workerOwner x w t' = paidBy s.workerOwner x w t' :=
    fun x t' ht' => paidBy_stable hext (h.owned t' ht') x
  constructor
  case registered =>
    intro x
    rw [he.registered, h.registered, or_assoc]
    refine or_congr_right ?_
    simp [or_and_right, exists_or]
  case credit =>
    intro x
    obtain ⟨hin, hout, -, -⟩ := hquantities x
    have hone := he.credit x
    have hall := h.credit x
    rw [hin, hout] at hone
    simp only [List.map_append, List.sum_append, List.map_cons, List.map_nil, List.sum_cons,
      List.sum_nil, Nat.add_zero]
    omega
  case balance =>
    intro x
    obtain ⟨-, -, hout, hin⟩ := hquantities x
    have hone := he.balance x
    have hall := h.balance x
    rw [hin, hout] at hone
    simp only [List.map_append, List.sum_append, List.map_cons, List.map_nil, List.sum_cons,
      List.sum_nil, Nat.add_zero]
    rw [List.map_congr_left (hsame x), paidBy_stable hext hpays x]
    omega
  case job =>
    intro x k
    rw [he.job, h.job, List.foldl_append]
    rfl
  case workerOwner =>
    intro k
    rw [he.workerOwner, h.workerOwner, List.foldl_append]
    rfl
  case creditRequest =>
    intro r
    rw [he.creditRequest, h.creditRequest, List.foldl_append]
    rfl
  case config => rw [he.config, configAfter_of_subject ht, h.config]
  case owned =>
    intro t' ht'
    rcases List.mem_append.mp ht' with ht' | ht'
    · exact (h.owned t' ht').mono hext
    · rw [List.mem_singleton.mp ht']
      exact hpays.mono hext

/-! ## Every order -/

/-- Pairwise unrelated calls, each of which names a user. -/
structure Independent (acts : List Action) : Prop where
  subjects : ∀ t ∈ acts, ∃ v, subject t = some v
  unrelated : acts.Pairwise Unrelated

theorem Independent.left {acts' : List Action} (h : Independent (acts ++ acts')) :
    Independent acts where
  subjects := fun t ht => h.subjects t (List.mem_append_left _ ht)
  unrelated := (List.pairwise_append.mp h.unrelated).1

/-- All successful calls of a run. -/
theorem outcome_run (env : Env) (w : World) (as : List Action)
    (hun : Independent (succeeded env w as)) :
    Outcome env w (succeeded env w as) (run env w as) := by
  revert hun
  refine Transactions.run_induction (I := fun h s =>
    Independent (h.map fun e => e.act) → Outcome env w (h.map fun e => e.act) s)
    (fun _ => Outcome.nil env w) ?_ as
  intro h s t s' hs hstep hun
  rw [List.map_append] at hun ⊢
  obtain ⟨-, -, hlast⟩ := List.pairwise_append.mp hun.unrelated
  obtain ⟨v, hv⟩ := hun.subjects t (List.mem_append_right _ List.mem_cons_self)
  exact (hs hun.left).snoc (fun t' ht' => hlast t' ht' t List.mem_cons_self) hv hstep

theorem tokens_run (hx : MovesExact env P) (hc : Configured env P treasury w) (as : List Action)
    (hun : Independent (succeeded env w as)) (d : Store) :
    units (run env w as).stores d + ((succeeded env w as).map (tokensOut env P d)).sum =
      units w.stores d + ((succeeded env w as).map (tokensIn env P treasury d)).sum := by
  have key : Configured env P treasury (run env w as) ∧ (Independent (succeeded env w as) →
      units (run env w as).stores d + ((succeeded env w as).map (tokensOut env P d)).sum =
        units w.stores d + ((succeeded env w as).map (tokensIn env P treasury d)).sum) := by
    refine Transactions.run_induction (I := fun h s => Configured env P treasury s ∧
      (Independent (h.map fun e => e.act) →
        units s.stores d + ((h.map fun e => e.act).map (tokensOut env P d)).sum =
          units w.stores d + ((h.map fun e => e.act).map (tokensIn env P treasury d)).sum))
      ⟨hc, fun _ => rfl⟩ ?_ as
    rintro h s t s' ⟨hcs, hs⟩ hstep
    refine ⟨configured_preserved env P treasury s t s' hcs hstep, fun hun => ?_⟩
    rw [List.map_append] at hun
    obtain ⟨v, hv⟩ := hun.subjects t (List.mem_append_right _ List.mem_cons_self)
    cases t with
    | outside l' => cases hv
    | txn a call =>
      have hall := hs hun.left
      have hone := exec_tokens hx hcs hstep d
      simp only [List.map_append, List.sum_append, List.map_cons, List.map_nil, List.sum_cons,
        List.sum_nil, Nat.add_zero]
      omega
  exact key.2 hun

section Agree

variable {bs : List Action} (hperm : acts.Perm bs) (hun : Independent acts)

include hun

/-- Of two calls in the list, either they are one or they are unrelated. -/
theorem Independent.eq_or_unrelated {t t' : Action} (ht : t ∈ acts) (ht' : t' ∈ acts) :
    t = t' ∨ Unrelated t t' := by
  have hsymm : Std.Symm fun t t' : Action => t = t' ∨ Unrelated t t' :=
    ⟨fun _ _ h => h.imp Eq.symm Unrelated.symm⟩
  exact (hun.unrelated.imp fun h => Or.inr h).forall_of_forall (fun _ _ => .inl rfl) ht ht'

include hperm

theorem foldl_or_perm {K V : Type} (f : Action → K → Option V) (k : K)
    (hf : ∀ t t', Unrelated t t' → f t k = none ∨ f t' k = none) (o : Option V) :
    acts.foldl (fun o t => o.or (f t k)) o = bs.foldl (fun o t => o.or (f t k)) o := by
  refine hperm.foldl_eq' (fun t ht t' ht' z => ?_) o
  rcases hun.eq_or_unrelated ht ht' with rfl | hne
  · rfl
  · exact or_or_comm (hf t t' hne)

/-- **What calls amount to does not depend on their order.** -/
theorem Outcome.agree (h : Outcome env w acts s) (h' : Outcome env w bs s') : SameTables s s' := by
  have hworkers : s.workerOwner = s'.workerOwner := by
    funext k
    rw [h.workerOwner, h'.workerOwner]
    refine foldl_or_perm hperm hun newWorker k (fun t t' hne => ?_) _
    by_cases hk : registeredWorker t = some k
    · exact .inr (newWorker_eq_none (hne.workers k hk))
    · exact .inl (newWorker_eq_none hk)
  constructor
  case users =>
    apply World.users_ext
    · intro x
      rw [h.registered, h'.registered]
      exact or_congr_right (exists_congr fun t => and_congr_left' hperm.mem_iff)
    · intro x
      have hb := h.balance x
      have hb' := h'.balance x
      rw [hworkers] at hb
      have hout := (hperm.map (balanceOut x w)).sum_nat
      have hin := (hperm.map (paidBy s'.workerOwner x w)).sum_nat
      omega
    · intro x
      have hc := h.credit x
      have hc' := h'.credit x
      have hout := (hperm.map (creditOut x w)).sum_nat
      have hin := (hperm.map (creditIn x w)).sum_nat
      omega
    · intro x k
      rw [h.job, h'.job]
      refine hperm.foldl_eq' (fun t ht t' ht' old => ?_) _
      rcases hun.eq_or_unrelated ht ht' with rfl | hne
      · rfl
      · -- at most one of the two calls touches a job of `x`
        rcases hne.subject_ne x with hx | hx
        · rw [jobAfter_frame hx, jobAfter_frame hx]
        · rw [jobAfter_frame hx, jobAfter_frame hx]
  case workers => exact Finmap.ext_lookup fun k => congrFun hworkers k
  case creditRequests =>
    refine Finmap.ext_lookup fun r => ?_
    show s.creditRequest r = s'.creditRequest r
    rw [h.creditRequest, h'.creditRequest]
    refine foldl_or_perm hperm hun newRequest r (fun t t' hne => ?_) _
    by_cases hr : claimedRequest t = some r
    · exact .inr (newRequest_eq_none (hne.requests r hr))
    · exact .inl (newRequest_eq_none hr)
  case config => rw [h.config, h'.config]

end Agree

/-- **Every order.** If the same pairwise unrelated calls succeed in two runs from a reachable
state, the runs end in the same state. -/
theorem schedules_agree (hw : Reachable env P w) {as bs : List Action}
    (hun : Independent (succeeded env w as))
    (hperm : (succeeded env w as).Perm (succeeded env w bs)) :
    SameTables (run env w as) (run env w bs) ∧
      (MovesExact env P → SameBalances (run env w as) (run env w bs)) := by
  have hun' : Independent (succeeded env w bs) := by
    refine ⟨fun t ht => hun.subjects t (hperm.mem_iff.mpr ht), ?_⟩
    exact hperm.pairwise hun.unrelated fun h => h.symm
  refine ⟨Outcome.agree hperm hun (outcome_run env w as hun) (outcome_run env w bs hun'), ?_⟩
  intro hx d
  obtain ⟨treasury, hc⟩ := hw.configured
  have hflow := tokens_run hx hc as hun d
  have hflow' := tokens_run hx hc bs hun' d
  have hout := (hperm.map (tokensOut env P d)).sum_nat
  have hin := (hperm.map (tokensIn env P treasury d)).sum_nat
  omega

/-- A call that registers no worker and claims nothing is unrelated to all that name others. -/
theorem unrelated_of_subject {t₁ t₂ : Action} {u₁ u₂ : Address} (h₁ : subject t₁ = some u₁)
    (h₂ : subject t₂ = some u₂) (hne : u₁ ≠ u₂) (hworker : registeredWorker t₁ = none)
    (hrequest : claimedRequest t₁ = none) : Unrelated t₁ t₂ where
  users := ⟨u₁, u₂, h₁, h₂, hne⟩
  workers := by
    intro id hid
    rw [hworker] at hid
    cases hid
  requests := by
    intro r hr
    rw [hrequest] at hr
    cases hr

/-- Two settlements that pay the same owner, and a deposit; in the second run a stranger's attempt
to settle is refused in between. -/
theorem schedules_agree_test :
    SameTables
        (run testEnv (afterJobs []) [.txn 0xdad (.opCompleteJob 0xa "job"),
          .txn 0xdad (.opCompleteJob 0xb "job"), .txn 0xdead (.deposit 10 usdt)])
        (run testEnv (afterJobs []) [.txn 0xdead (.deposit 10 usdt),
          .txn 0xdead (.opCompleteJob 0xa "job"), .txn 0xdad (.opCompleteJob 0xb "job"),
          .txn 0xdad (.opCompleteJob 0xa "job")]) ∧
      (MovesExact testEnv usdt → SameBalances
        (run testEnv (afterJobs []) [.txn 0xdad (.opCompleteJob 0xa "job"),
          .txn 0xdad (.opCompleteJob 0xb "job"), .txn 0xdead (.deposit 10 usdt)])
        (run testEnv (afterJobs []) [.txn 0xdead (.deposit 10 usdt),
          .txn 0xdead (.opCompleteJob 0xa "job"), .txn 0xdad (.opCompleteJob 0xb "job"),
          .txn 0xdad (.opCompleteJob 0xa "job")])) := by
  have hfirst : succeeded testEnv (afterJobs []) [.txn 0xdad (.opCompleteJob 0xa "job"),
      .txn 0xdad (.opCompleteJob 0xb "job"), .txn 0xdead (.deposit 10 usdt)] =
      [.txn 0xdad (.opCompleteJob 0xa "job"), .txn 0xdad (.opCompleteJob 0xb "job"),
        .txn 0xdead (.deposit 10 usdt)] := by decide
  have hsecond : succeeded testEnv (afterJobs []) [.txn 0xdead (.deposit 10 usdt),
      .txn 0xdead (.opCompleteJob 0xa "job"), .txn 0xdad (.opCompleteJob 0xb "job"),
      .txn 0xdad (.opCompleteJob 0xa "job")] =
      [.txn 0xdead (.deposit 10 usdt), .txn 0xdad (.opCompleteJob 0xb "job"),
        .txn 0xdad (.opCompleteJob 0xa "job")] := by decide
  refine schedules_agree (testWorld_reachable twoJobs) ?_ ?_
  · rw [show run testEnv testWorld twoJobs = afterJobs [] from rfl, hfirst]
    refine ⟨?_, ?_⟩
    · simp [subject]
    · simp only [List.pairwise_cons, List.mem_cons, List.not_mem_nil, or_false, forall_eq_or_imp,
        forall_eq, false_imp_iff, implies_true, List.Pairwise.nil, and_true]
      exact ⟨⟨unrelated_of_subject rfl rfl (by decide) rfl rfl,
        unrelated_of_subject rfl rfl (by decide) rfl rfl⟩,
        unrelated_of_subject rfl rfl (by decide) rfl rfl⟩
  · rw [show run testEnv testWorld twoJobs = afterJobs [] from rfl, hfirst, hsecond]
    decide

end Pictor
