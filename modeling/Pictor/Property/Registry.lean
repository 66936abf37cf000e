import Pictor.Effect.Calls

/-!
# The registries: users, workers, jobs, credit requests

Nothing that is registered is ever taken back. `Extends` relates an earlier state to a later one,
`Closed` ties the tables of a single state together: the owner of a worker and the user of a credit
request are users. Together they decide what a settlement can trip over, since the only addresses
the loop of `op_complete_job` looks up are worker owners.
-/

namespace Pictor

variable {env : Env} {P : Token} {treasury : Address} {pk : List UInt8} {w w' : World}

/-! ## What later states keep -/

/-- `w'` has everything registered that `w` has, and its jobs have only grown at the end. -/
structure Extends (w w' : World) : Prop where
  registered : ∀ u, w.registered u → w'.registered u
  workerOwner : ∀ id o, w.workerOwner id = some o → w'.workerOwner id = some o
  creditRequest : ∀ r c, w.creditRequest r = some c → w'.creditRequest r = some c
  job : ∀ u j job, w.job u j = some job → ∃ job', w'.job u j = some job' ∧
    job.tasks <+: job'.tasks ∧ (job.isCompleted = true → job'.isCompleted = true)

theorem Extends.refl (w : World) : Extends w w where
  registered := fun _ h => h
  workerOwner := fun _ _ h => h
  creditRequest := fun _ _ h => h
  job := fun _ _ job h => ⟨job, h, List.prefix_refl _, fun hc => hc⟩

theorem Extends.trans {w₁ w₂ w₃ : World} (h : Extends w₁ w₂) (h' : Extends w₂ w₃) :
    Extends w₁ w₃ where
  registered := fun u hu => h'.registered u (h.registered u hu)
  workerOwner := fun id o ho => h'.workerOwner id o (h.workerOwner id o ho)
  creditRequest := fun r c hc => h'.creditRequest r c (h.creditRequest r c hc)
  job := by
    intro u j job hjob
    obtain ⟨job₂, hjob₂, hpre, hdone⟩ := h.job u j job hjob
    obtain ⟨job₃, hjob₃, hpre', hdone'⟩ := h'.job u j job₂ hjob₂
    exact ⟨job₃, hjob₃, hpre.trans hpre', fun hc => hdone' (hdone hc)⟩

/-- One action on one job: a job that exists is not created again, and what is done to it is
appending a task or setting the flag. -/
theorem jobAfter_extends {act : Action} (ha : Accepted env w act) {x : Address} {k : String}
    {job : Job} (hjob : w.job x k = some job) :
    ∃ job', jobAfter act x k (w.job x k) = some job' ∧ job.tasks <+: job'.tasks ∧
      (job.isCompleted = true → job'.isCompleted = true) := by
  have hsame : ∃ job', w.job x k = some job' ∧ job.tasks <+: job'.tasks ∧
      (job.isCompleted = true → job'.isCompleted = true) :=
    ⟨job, hjob, List.prefix_refl _, fun hc => hc⟩
  unfold jobAfter
  split
  · split
    · next heq =>
      -- `op_create_job` was accepted, so there was no such job
      obtain ⟨-, hnone⟩ := ha
      rw [← heq.1, ← heq.2, hjob] at hnone
      cases hnone
    · exact hsame
  · split
    · rw [hjob]
      exact ⟨_, rfl, List.prefix_append _ _, fun hc => hc⟩
    · exact hsame
  · split
    · rw [hjob]
      exact ⟨_, rfl, List.prefix_refl _, fun _ => rfl⟩
    · exact hsame
  · exact hsame

theorem exec_extends {act : Action} (h : exec env w act = .ok w') : Extends w w' := by
  have he := exec_effect h
  constructor
  case registered =>
    intro u hu
    exact (he.registered u).mpr (.inl hu)
  case workerOwner =>
    intro id o ho
    rw [he.workerOwner, ho, Option.some_or]
  case creditRequest =>
    intro r c hc
    rw [he.creditRequest, hc, Option.some_or]
  case job =>
    intro u j job hjob
    rw [he.job]
    exact jobAfter_extends (exec_accepted h) hjob

theorem run_extends (env : Env) (w : World) (as : List Action) : Extends w (run env w as) :=
  Transactions.run_rel Extends.refl (fun _ _ _ => Extends.trans) (fun _ _ _ => exec_extends) w as

/-- An event comes after the start of the run … -/
theorem extends_pre {as : List Action} {e : Transactions.Event World Action}
    (he : e ∈ history env w as) : Extends w e.pre := by
  obtain ⟨bs, -, -, hpre, -⟩ := Transactions.exists_prefix_of_mem_history he
  rw [hpre]
  exact run_extends env w bs

/-- … and before its end. -/
theorem extends_post {as : List Action} {e : Transactions.Event World Action}
    (he : e ∈ history env w as) : Extends e.post (run env w as) := by
  obtain ⟨rest, hrest⟩ := Transactions.exists_rest_of_mem_history he
  have hrun : run env w as = run env e.post rest := by simpa using (hrest []).1
  rw [hrun]
  exact run_extends env e.post rest

/-- The shares of tasks whose workers are registered stay as they are, whoever registers later. -/
theorem Extends.earnings (hext : Extends w w') (hp : w'.percentage = w.percentage) (x : Address)
    {tasks : List Task} (howned : ∀ t ∈ tasks, ∃ o, w.workerOwner t.workerId = some o) :
    Pictor.earnings x w' tasks = Pictor.earnings x w tasks := by
  unfold Pictor.earnings share
  rw [hp]
  refine congrArg List.sum (List.map_congr_left fun t ht => ?_)
  obtain ⟨o, ho⟩ := howned t ht
  rw [ho, hext.workerOwner _ o ho]

/-! ## What ties the tables together -/

structure Closed (w : World) : Prop where
  workers : ∀ id o, w.workerOwner id = some o → w.registered o
  creditRequests : ∀ r c, w.creditRequest r = some c → w.registered c.userAddr

theorem closed_preserved (env : Env) : Transactions.Preserved (exec env) Closed := by
  intro w act w' hcl h
  have he := exec_effect h
  constructor
  · intro id o ho
    rw [he.workerOwner, Option.or_eq_some_iff] at ho
    rcases ho with ho | ⟨-, ho⟩
    · exact (he.registered o).mpr (.inl (hcl.workers id o ho))
    · exact (he.registered o).mpr (.inr (registers_of_newWorker ho))
  · intro r c hc
    rw [he.creditRequest, Option.or_eq_some_iff] at hc
    rcases hc with hc | ⟨-, hc⟩
    · exact (he.registered _).mpr (.inl (hcl.creditRequests r c hc))
    · exact (he.registered _).mpr (.inr (registers_of_newRequest hc))

theorem closed_initial (h : JustInitialised env P treasury pk w) : Closed w := by
  obtain ⟨l, -, rfl⟩ := justInitialised_iff.mp h
  constructor
  · intro id o ho
    cases ho
  · intro r c hc
    cases hc

theorem closed_run (h : JustInitialised env P treasury pk w) (as : List Action) :
    Closed (run env w as) :=
  Transactions.invariant (closed_preserved env) (closed_initial h) as

theorem Reachable.closed (hw : Reachable env P w) : Closed w :=
  hw.induction (fun _ _ _ h₀ => closed_initial h₀) (closed_preserved env)

/-! ## Settlements find what they look up -/

/-- When all workers of a job have a registered owner, the loop has nothing to abort on but its
arithmetic. -/
theorem payLoop_error {u : Address} {j : String} {p d : UInt64} {job : Job} {n : ℕ}
    {g : GlobalData} {e : Abort} (hjob : Users.job g.users u j = some job)
    (hn : n ≤ job.tasks.length)
    (howned : ∀ t ∈ job.tasks, ∃ o, g.workers.lookup t.workerId = some o ∧ o ∈ g.users)
    (h : PictorNetwork.payLoop u j p d n g = .error e) : e = .arithmeticError := by
  induction n generalizing g with
  | zero => cases h
  | succ i ih =>
    obtain ⟨info, hinfo, hjob'⟩ := Option.bind_eq_some_iff.mp hjob
    have ht : job.tasks[i]? = some job.tasks[i] := List.getElem?_eq_getElem hn
    obtain ⟨o, ho, hmem⟩ := howned job.tasks[i] (List.getElem_mem hn)
    obtain ⟨oinfo, hoinfo⟩ := Finmap.mem_iff.mp hmem
    -- all five lookups of the round succeed; what is left are its three operations
    simp only [PictorNetwork.payLoop, Table.borrow, MoveVector.borrow, Checked.getOrAbort,
      Checked.ok_bind, hinfo, hjob', ht, ho, hoinfo] at h
    rcases Checked.bind_eq_error.mp h with hmul | ⟨scaled, hmul, h⟩
    · exact U64.error_of_mul hmul
    rcases Checked.bind_eq_error.mp h with hdiv | ⟨s, hdiv, h⟩
    · exact U64.error_of_div hdiv
    rcases Checked.bind_eq_error.mp h with hadd | ⟨b, hadd, h⟩
    · exact U64.error_of_add hadd
    rw [U64.mul_eq_ok] at hmul
    rw [U64.div_eq_ok] at hdiv
    rw [U64.add_eq_ok] at hadd
    have hround := settles_one (p := p) (d := d) ho hoinfo (by rw [hadd, hdiv.2, hmul])
    refine ih ?_ (by omega) ?_ h
    · rw [hround.job]
      exact hjob
    · intro t' ht'
      obtain ⟨o', ho', hmem'⟩ := howned t' ht'
      exact ⟨o', ho', (hround.registered o').mpr hmem'⟩

/-- **A settlement can only overflow**, if the job exists and its workers are known. -/
theorem opCompleteJob_error (hcl : Closed w) {a u : Address} {j : String} {job : Job} {e : Abort}
    (hop : a ∈ w.operators) (hjob : w.job u j = some job)
    (howned : ∀ t ∈ job.tasks, ∃ o, w.workerOwner t.workerId = some o)
    (h : PictorNetwork.opCompleteJob w a u j = .error e) : e = .arithmeticError := by
  obtain ⟨info, hinfo, hjob', -, hcreated⟩ := PictorNetwork.exists_userInfo hjob
  obtain ⟨g, hg⟩ := World.exists_network (World.registered_of_job hjob)
  obtain ⟨c, hc⟩ := World.exists_config hop
  have hop' : PictorNetwork.assertIsOperator w a = .ok () :=
    PictorNetwork.assertIsOperator_eq_ok.mpr hop
  have hglobal : PictorNetwork.globalData w = .ok g := PictorNetwork.globalData_eq_ok.mpr hg
  have hpercentage : PictorConfig.getWorkerEarningPercentage w = .ok c.workerEarningPercentage :=
    PictorConfig.getWorkerEarningPercentage_eq_ok.mpr ⟨c, hc, rfl⟩
  have hread : g.users.lookup u = some info := by
    rw [← hinfo]
    simp [World.users, hg]
  -- every check before the loop passes
  simp only [PictorNetwork.opCompleteJob, hop', hcreated, hglobal, hpercentage, Table.borrow,
    Checked.getOrAbort, hread, hjob', Checked.ok_bind] at h
  rcases Checked.bind_eq_error.mp h with hloop | ⟨g', -, hret⟩
  · have hmarked := markedGlobal_eq hg u j info job
    rw [Job.complete] at hmarked
    rw [← hmarked] at hloop
    refine payLoop_error (markedGlobal_job_self w u j info job) (Nat.le_refl _) ?_ hloop
    intro t ht
    obtain ⟨o, ho⟩ := howned t ht
    exact ⟨o, ho, (markedGlobal_registered hinfo o).mpr (hcl.workers _ o ho)⟩
  · cases hret

/-- **The registries are write-once and closed.** -/
theorem registries_write_once {w₀ : World} (h₀ : JustInitialised env P treasury pk w₀)
    (as bs : List Action) :
    Extends (run env w₀ as) (run env w₀ (as ++ bs)) ∧ Closed (run env w₀ as) ∧
      (∀ id o, (run env w₀ as).workerOwner id = some o →
        ∃ info, PictorNetwork.userInfo (run env w₀ as) o = .ok info) ∧
      ∀ a u j job e, a ∈ (run env w₀ as).operators → (run env w₀ as).job u j = some job →
        (∀ t ∈ job.tasks, ∃ o, (run env w₀ as).workerOwner t.workerId = some o) →
        PictorNetwork.opCompleteJob (run env w₀ as) a u j = .error e → e = .arithmeticError := by
  have hcl := closed_run h₀ as
  refine ⟨?_, hcl, ?_, ?_⟩
  · rw [run_append]
    exact run_extends env _ bs
  · intro id o ho
    obtain ⟨info, hinfo⟩ := World.registered_iff.mp (hcl.workers id o ho)
    obtain ⟨g, hg⟩ := World.exists_network (hcl.workers id o ho)
    exact ⟨info, PictorNetwork.userInfo_eq_ok.mpr ⟨by rw [hg]; rfl, hinfo⟩⟩
  · intro a u j job e hop hjob howned h
    exact opCompleteJob_error hcl hop hjob howned h

/-- Registering a taken worker id succeeds and changes no owner. -/
theorem registries_write_once_test :
    (run testEnv testWorld ([.txn 0xdead (.registerWorker "worker")] ++
      [.txn 0xbad (.registerWorker "worker")])).workerOwner "worker" = some 0xdead :=
  (registries_write_once testWorld_justInitialised [.txn 0xdead (.registerWorker "worker")]
    [.txn 0xbad (.registerWorker "worker")]).1.workerOwner "worker" 0xdead (by decide)

end Pictor
