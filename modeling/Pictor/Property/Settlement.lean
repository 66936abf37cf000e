import Pictor.Property.Registry

/-!
# When a job can be settled, and what that does

The loop of `op_complete_job` checks each addition as it makes it. Since balances only grow while it
runs, what it checks amounts to a condition on the final balances, which does not depend on the
order of the tasks or on how they are spread over owners.
-/

namespace Pictor

variable {env : Env} {P : Token} {w w' : World} {a u : Address} {j : String} {job : Job}

/-- What a settlement leaves behind: the balances have grown by the earnings, the job is marked, and
nothing else has changed. -/
structure JobSettled (w : World) (u : Address) (j : String) (job : Job) (w' : World) : Prop where
  balance : ∀ x, w'.balance x = w.balance x + earnings x w job.tasks
  job : w'.job u j = some job.complete
  others : ∀ x k, (x, k) ≠ (u, j) → w'.job x k = w.job x k
  credit : ∀ x, w'.credit x = w.credit x
  registered : ∀ x, w'.registered x ↔ w.registered x
  workers : w'.workers = w.workers
  creditRequests : w'.creditRequests = w.creditRequests
  config : w'.config = w.config
  stores : w'.stores = w.stores

theorem settled_of_exec (h : exec env w (.txn a (.opCompleteJob u j)) = .ok w')
    (hjob : w.job u j = some job) : JobSettled w u j job w' := by
  have he := exec_effect h
  constructor
  case balance =>
    intro x
    have hbalance := he.balance x
    rw [balanceIn_opCompleteJob x a hjob] at hbalance
    exact hbalance
  case job =>
    rw [he.job, hjob]
    exact if_pos ⟨rfl, rfl⟩
  case others =>
    intro x k hne
    rw [he.job, jobAfter_of_target_ne]
    exact fun heq => hne (Option.some.inj heq).symm
  case credit => exact he.credit
  case registered =>
    intro x
    rw [he.registered]
    simp [registers]
  case workers =>
    apply Finmap.ext_lookup
    intro k
    exact (he.workerOwner k).trans Option.or_none
  case creditRequests =>
    apply Finmap.ext_lookup
    intro r
    exact (he.creditRequest r).trans Option.or_none
  case config => exact he.config
  case stores => exact he.stores rfl

/-- **When a settlement succeeds.** -/
theorem opCompleteJob_returns_iff (hcl : Closed w) (hop : a ∈ w.operators)
    (hjob : w.job u j = some job) :
    (∃ w', exec env w (.txn a (.opCompleteJob u j)) = .ok w') ↔
      (∀ t ∈ job.tasks, ∃ o, w.workerOwner t.workerId = some o) ∧
      (∀ t ∈ job.tasks, t.cost.toNat * w.percentage < 2 ^ 64) ∧
      ∀ x, w.balance x + earnings x w job.tasks < 2 ^ 64 := by
  constructor
  · rintro ⟨w', h⟩
    have hbalance := (settled_of_exec h hjob).balance
    obtain ⟨-, job', hjob', howned⟩ := exec_accepted h
    obtain ⟨-, job₁, info, c, g', hinfo, hjob₁, hc, -, hfits, -⟩ := opCompleteJob_settles h
    rw [World.job, Users.job_of_lookup hinfo, hjob₁, Option.some.injEq] at hjob
    subst hjob
    rw [World.job, Users.job_of_lookup hinfo, hjob₁, Option.some.injEq] at hjob'
    subst hjob'
    refine ⟨howned, ?_, ?_⟩
    · rw [percentage_of_config hc]
      exact hfits
    · intro x
      rw [← hbalance x]
      exact w'.balance_lt x
  · rintro ⟨howned, hfits, hbalance⟩
    obtain ⟨info, hinfo, hjob'⟩ := Option.bind_eq_some_iff.mp hjob
    obtain ⟨c, hc⟩ := World.exists_config hop
    have hmarked := markedGlobal_job_self w u j info job
    have hall : job.complete.tasks.take job.tasks.length = job.tasks := List.take_length
    have hloop : ∃ g', PictorNetwork.payLoop u j c.workerEarningPercentage
        PictorConfig.getDenominator job.tasks.length (markedGlobal w u j info job) = .ok g' := by
      apply payLoop_returns (by decide) hmarked (Nat.le_refl job.tasks.length)
      · rw [hall]
        intro t ht
        obtain ⟨o, ho⟩ := howned t ht
        exact ⟨o, ho, (markedGlobal_registered hinfo o).mpr (hcl.workers _ o ho)⟩
      · rw [hall, ← percentage_of_config hc]
        exact hfits
      · intro x
        rw [hall, markedGlobal_balance hinfo, markedGlobal, payout_eq_earnings hc]
        exact hbalance x
    obtain ⟨g', hloop⟩ := hloop
    exact ⟨_, opCompleteJob_eq_ok.mpr ⟨hop, info, job, c, g', hinfo, hjob', hc, hloop, rfl⟩⟩

/-- **Settlement is exact**: in every reachable state an operator can settle a job exactly when its
workers are registered, each product is representable and each final balance is; and then it has
paid each owner her earnings and done nothing else but mark the job. -/
theorem settlement_exact (hw : Reachable env P w) (hop : a ∈ w.operators)
    (hjob : w.job u j = some job) :
    ((∃ w', exec env w (.txn a (.opCompleteJob u j)) = .ok w') ↔
      (∀ t ∈ job.tasks, ∃ o, w.workerOwner t.workerId = some o) ∧
      (∀ t ∈ job.tasks, t.cost.toNat * w.percentage < 2 ^ 64) ∧
      ∀ x, w.balance x + earnings x w job.tasks < 2 ^ 64) ∧
    ∀ w', exec env w (.txn a (.opCompleteJob u j)) = .ok w' → JobSettled w u j job w' :=
  ⟨opCompleteJob_returns_iff hw.closed hop hjob, fun _ h => settled_of_exec h hjob⟩

/-- A job with two tasks for one worker and a third for another, both of them the job's own user's,
and one for somebody else's. -/
def sharedJob : List Action :=
  [.txn 0xcafe (.addOperator 0xdad), .txn 0xdead (.registerWorker "first"),
    .txn 0xdead (.registerWorker "second"), .txn 0xbad (.registerWorker "third"),
    .txn 0xdad (.opCreateJob 0xdead "job"), .txn 0xdad (.opCreditUser 0xdead 100),
    .txn 0xdad (.opAddTask 0xdead "job" 1 "first" 10 1),
    .txn 0xdad (.opAddTask 0xdead "job" 2 "second" 20 1),
    .txn 0xdad (.opAddTask 0xdead "job" 3 "first" 30 1),
    .txn 0xdad (.opAddTask 0xdead "job" 4 "third" 40 1)]

theorem settlement_exact_test :
    JobSettled (run testEnv testWorld sharedJob) 0xdead "job"
      ⟨[⟨1, "first", 10, 1⟩, ⟨2, "second", 20, 1⟩, ⟨3, "first", 30, 1⟩, ⟨4, "third", 40, 1⟩], 100,
        false⟩
      (run testEnv testWorld (sharedJob ++ [.txn 0xdad (.opCompleteJob 0xdead "job")])) :=
  (settlement_exact (a := 0xdad) (testWorld_reachable sharedJob) (by decide) (by decide)).2 _
    (by decide)

end Pictor
