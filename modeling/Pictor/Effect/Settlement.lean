import Pictor.Effect.Accounts

/-!
# The settlement loop

`op_complete_job` pays the tasks of a job one after the other, from the last to the first, and each
round writes to the user table it reads the job from. The owner paid in a round may be the job's
own user. `Settles` is what a number of rounds amounts to, whatever the owners are.
-/

namespace Pictor

/-- What `x` gets for `tasks` at `p / d` of their cost. -/
def payout (workers : Table String Address) (p d : UInt64) (x : Address) (tasks : List Task) : ℕ :=
  (tasks.map fun t =>
    if workers.lookup t.workerId = some x then t.cost.toNat * p.toNat / d.toNat else 0).sum

theorem payout_append (workers : Table String Address) (p d : UInt64) (x : Address)
    (s t : List Task) :
    payout workers p d x (s ++ t) = payout workers p d x s + payout workers p d x t := by
  simp [payout]

/-- `g'` is `g` after each of `tasks` has been paid to the owner of its worker. -/
structure Settles (p d : UInt64) (tasks : List Task) (g g' : GlobalData) : Prop where
  workers : g'.workers = g.workers
  creditRequests : g'.creditRequests = g.creditRequests
  registered : ∀ x, x ∈ g'.users ↔ x ∈ g.users
  credit : ∀ x, Users.credit g'.users x = Users.credit g.users x
  balance : ∀ x, Users.balance g'.users x = Users.balance g.users x + payout g.workers p d x tasks
  job : ∀ x k, Users.job g'.users x k = Users.job g.users x k
  owned : ∀ t ∈ tasks, ∃ o, g.workers.lookup t.workerId = some o

/-! ## One round -/

section Round

variable {p d : UInt64} {t : Task} {g : GlobalData} {o : Address} {info : UserInfo} {b : UInt64}

/-- **One round** writes one balance; the owner was in the table already. -/
theorem settles_one (ho : g.workers.lookup t.workerId = some o)
    (hinfo : g.users.lookup o = some info)
    (hb : b.toNat = info.balance.toNat + t.cost.toNat * p.toNat / d.toNat) :
    Settles p d [t] g
      { g with users := g.users.insert o { info with balance := b } } where
  workers := rfl
  creditRequests := rfl
  registered := by
    intro x
    rw [Finmap.mem_insert, or_iff_right_iff_imp]
    rintro rfl
    exact Finmap.mem_iff.mpr ⟨info, hinfo⟩
  credit := by
    intro x
    rw [Users.credit_insert]
    split
    · next hx => rw [hx, Users.credit_of_lookup hinfo]
    · rfl
  balance := by
    intro x
    rw [Users.balance_insert]
    simp only [payout, List.map_cons, List.map_nil, List.sum_cons, List.sum_nil, Nat.add_zero, ho,
      Option.some.injEq]
    by_cases hx : x = o
    · rw [if_pos hx, if_pos hx.symm, hx, Users.balance_of_lookup hinfo, hb]
    · rw [if_neg hx, if_neg (Ne.symm hx), Nat.add_zero]
  job := by
    intro x k
    rw [Users.job_insert]
    split
    · next hx => rw [hx, Users.job_of_lookup hinfo]
    · rfl
  owned := by
    intro t' ht'
    rw [List.mem_singleton.mp ht']
    exact ⟨o, ho⟩

end Round

/-! ## All rounds -/

theorem Settles.refl (p d : UInt64) (g : GlobalData) : Settles p d [] g g where
  workers := rfl
  creditRequests := rfl
  registered := fun _ => Iff.rfl
  credit := fun _ => rfl
  balance := fun _ => rfl
  job := fun _ _ => rfl
  owned := by
    intro t ht
    cases ht

/-- Paying `s` and then `ts` pays both. -/
theorem Settles.trans {p d : UInt64} {s ts : List Task} {g₁ g₂ g₃ : GlobalData}
    (h : Settles p d s g₁ g₂) (h' : Settles p d ts g₂ g₃) : Settles p d (ts ++ s) g₁ g₃ where
  workers := h'.workers.trans h.workers
  creditRequests := h'.creditRequests.trans h.creditRequests
  registered := fun x => (h'.registered x).trans (h.registered x)
  credit := fun x => (h'.credit x).trans (h.credit x)
  balance := by
    intro x
    rw [h'.balance x, h.balance x, h.workers, payout_append]
    omega
  job := fun x k => (h'.job x k).trans (h.job x k)
  owned := by
    intro t ht
    rcases List.mem_append.mp ht with ht | ht
    · obtain ⟨o, ho⟩ := h'.owned t ht
      exact ⟨o, h.workers ▸ ho⟩
    · exact h.owned t ht

section Loop

variable {u : Address} {j : String} {p d : UInt64} {job : Job} {g g' : GlobalData}

/-- **When a round returns**: the task has an owner with an account, and its share and the owner's
new balance are representable. The job is the one in the table, although each round reads it
again. -/
theorem payLoop_succ_eq_ok {i : ℕ} (hjob : Users.job g.users u j = some job) :
    PictorNetwork.payLoop u j p d (i + 1) g = .ok g' ↔
      ∃ t o oinfo b, job.tasks[i]? = some t ∧ g.workers.lookup t.workerId = some o ∧
        g.users.lookup o = some oinfo ∧ t.cost.toNat * p.toNat < 2 ^ 64 ∧ d.toNat ≠ 0 ∧
        b.toNat = oinfo.balance.toNat + t.cost.toNat * p.toNat / d.toNat ∧
        PictorNetwork.payLoop u j p d i
          { g with users := g.users.insert o { oinfo with balance := b } } = .ok g' := by
  obtain ⟨info, hinfo, hjob'⟩ := Option.bind_eq_some_iff.mp hjob
  simp only [PictorNetwork.payLoop, Checked.bind_eq_ok, Table.borrow_eq_ok,
    MoveVector.borrow_eq_ok, U64.mul_eq_ok, U64.div_eq_ok, U64.add_eq_ok]
  constructor
  · rintro ⟨info₁, hinfo₁, job₁, hjob₁, t, ht, o, ho, oinfo, hoinfo, scaled, hscaled, s, ⟨hd, hs⟩,
      b, hb, h⟩
    rw [hinfo, Option.some.injEq] at hinfo₁
    subst hinfo₁
    rw [hjob', Option.some.injEq] at hjob₁
    subst hjob₁
    rw [hscaled] at hs
    rw [hs] at hb
    exact ⟨t, o, oinfo, b, ht, ho, hoinfo, hscaled ▸ scaled.toNat_lt, hd, hb, h⟩
  · rintro ⟨t, o, oinfo, b, ht, ho, hoinfo, hfits, hd, hb, h⟩
    obtain ⟨scaled, hscaled⟩ := Checked.exists_toNat_eq.mpr hfits
    obtain ⟨s, hs⟩ := Checked.exists_toNat_eq.mpr
      ((Nat.div_le_self (t.cost.toNat * p.toNat) d.toNat).trans_lt hfits)
    rw [← hs] at hb
    rw [← hscaled] at hs
    exact ⟨info, hinfo, job, hjob', t, ht, o, ho, oinfo, hoinfo, scaled, hscaled, s, ⟨hd, hs⟩, b,
      hb, h⟩

/-- **The loop**: when it returns, it has paid every task below index `n`. -/
theorem payLoop_settles {n : ℕ} (hjob : Users.job g.users u j = some job)
    (h : PictorNetwork.payLoop u j p d n g = .ok g') :
    Settles p d (job.tasks.take n) g g' := by
  induction n generalizing g with
  | zero =>
    cases h
    exact Settles.refl p d _
  | succ i ih =>
    obtain ⟨t, o, oinfo, b, ht, ho, hoinfo, -, -, hb, h⟩ := (payLoop_succ_eq_ok hjob).mp h
    have hround : Settles p d [t] g
        { g with users := g.users.insert o { oinfo with balance := b } } :=
      settles_one ho hoinfo hb
    have hrest := ih ((hround.job u j).trans hjob) h
    rw [List.take_add_one, ht]
    exact hround.trans hrest

/-- The products it forms are representable. -/
theorem payLoop_fits {n : ℕ} (hjob : Users.job g.users u j = some job)
    (h : PictorNetwork.payLoop u j p d n g = .ok g') :
    ∀ t ∈ job.tasks.take n, t.cost.toNat * p.toNat < 2 ^ 64 := by
  induction n generalizing g with
  | zero =>
    intro t ht
    cases ht
  | succ i ih =>
    obtain ⟨t, o, oinfo, b, ht, ho, hoinfo, hfits, -, hb, h⟩ := (payLoop_succ_eq_ok hjob).mp h
    have hround := settles_one (p := p) (d := d) ho hoinfo hb
    have hrest := ih ((hround.job u j).trans hjob) h
    intro t' ht'
    rw [List.take_add_one, ht] at ht'
    rcases List.mem_append.mp ht' with ht' | ht'
    · exact hrest t' ht'
    · rw [List.mem_singleton.mp ht']
      exact hfits

/-- **When the loop returns**: if the owners of its workers have accounts, it returns as soon as
every product and every *final* balance is representable, in whatever order the balances grow. -/
theorem payLoop_returns {n : ℕ} (hd : d.toNat ≠ 0) (hjob : Users.job g.users u j = some job)
    (hn : n ≤ job.tasks.length)
    (howned : ∀ t ∈ job.tasks.take n, ∃ o, g.workers.lookup t.workerId = some o ∧ o ∈ g.users)
    (hfits : ∀ t ∈ job.tasks.take n, t.cost.toNat * p.toNat < 2 ^ 64)
    (hbalance : ∀ x, Users.balance g.users x + payout g.workers p d x (job.tasks.take n) < 2 ^ 64) :
    ∃ g', PictorNetwork.payLoop u j p d n g = .ok g' := by
  induction n generalizing g with
  | zero => exact ⟨g, rfl⟩
  | succ i ih =>
    have ht : job.tasks[i]? = some job.tasks[i] := List.getElem?_eq_getElem hn
    have htake : job.tasks.take (i + 1) = job.tasks.take i ++ [job.tasks[i]] := by
      rw [List.take_add_one, ht]
      rfl
    have hlast : job.tasks[i] ∈ job.tasks.take (i + 1) := by
      rw [htake]
      exact List.mem_append_right _ (List.mem_singleton.mpr rfl)
    have hinit : ∀ t ∈ job.tasks.take i, t ∈ job.tasks.take (i + 1) := by
      intro t ht
      rw [htake]
      exact List.mem_append_left _ ht
    obtain ⟨o, ho, hmem⟩ := howned _ hlast
    obtain ⟨oinfo, hoinfo⟩ := Finmap.mem_iff.mp hmem
    -- the owner's balance after this round is at most her final one
    have hsum := hbalance o
    rw [htake, payout_append, Users.balance_of_lookup hoinfo] at hsum
    have hshare : payout g.workers p d o [job.tasks[i]] =
        job.tasks[i].cost.toNat * p.toNat / d.toNat := by
      simp [payout, ho]
    have hnew : oinfo.balance.toNat + job.tasks[i].cost.toNat * p.toNat / d.toNat < 2 ^ 64 := by
      omega
    obtain ⟨b, hb⟩ := Checked.exists_toNat_eq.mpr hnew
    have hround := settles_one (p := p) (d := d) ho hoinfo hb
    obtain ⟨g', hrest⟩ : ∃ g', PictorNetwork.payLoop u j p d i
        { g with users := g.users.insert o { oinfo with balance := b } } = .ok g' := by
      apply ih ((hround.job u j).trans hjob) (by omega)
      · intro t ht
        obtain ⟨o', ho', hmem'⟩ := howned t (hinit t ht)
        exact ⟨o', ho', (hround.registered o').mpr hmem'⟩
      · exact fun t ht => hfits t (hinit t ht)
      · intro x
        have hx := hbalance x
        rw [htake, payout_append] at hx
        rw [hround.balance x, hround.workers]
        omega
    exact ⟨g', (payLoop_succ_eq_ok hjob).mpr ⟨_, o, oinfo, b, ht, ho, hoinfo, hfits _ hlast, hd, hb,
      hrest⟩⟩

end Loop

/-! ## The entry function -/

theorem percentage_of_config {w : World} {c : Config} (hc : w.config = some c) :
    w.percentage = c.workerEarningPercentage.toNat := by
  simp [World.percentage, hc]

/-- The share of the source is the share of the abstract ledger. -/
theorem payout_eq_earnings {w : World} {c : Config} (hc : w.config = some c) (x : Address)
    (tasks : List Task) :
    payout w.workers c.workerEarningPercentage PictorConfig.getDenominator x tasks =
      earnings x w tasks := by
  unfold payout earnings share World.workerOwner
  rw [percentage_of_config hc]
  rfl

/-- The table from which `op_complete_job` starts to pay: the job is already marked. -/
def markedGlobal (w : World) (u : Address) (j : String) (info : UserInfo) (job : Job) :
    GlobalData :=
  ⟨w.workers, w.users.insert u { info with jobs := info.jobs.insert j job.complete },
    w.creditRequests⟩

theorem markedGlobal_eq {w : World} {g : GlobalData} (hg : w.network = some g) (u : Address)
    (j : String) (info : UserInfo) (job : Job) :
    markedGlobal w u j info job =
      { g with users := g.users.insert u { info with
        jobs := info.jobs.insert j job.complete } } := by
  simp [markedGlobal, World.users, World.workers, World.creditRequests, hg]

section Marked

variable {w : World} {u : Address} {info : UserInfo} {j : String} {job : Job}
  (hinfo : w.users.lookup u = some info)

theorem markedGlobal_job_self (w : World) (u : Address) (j : String) (info : UserInfo) (job : Job) :
    Users.job (markedGlobal w u j info job).users u j = some job.complete := by
  rw [markedGlobal, Users.job_insert, if_pos rfl, Finmap.lookup_insert]

include hinfo

/-! Marking a job changes nothing else. -/

theorem markedGlobal_registered (x : Address) :
    x ∈ (markedGlobal w u j info job).users ↔ w.registered x := by
  rw [markedGlobal, Finmap.mem_insert]
  exact or_iff_right_of_imp fun hx => hx ▸ World.registered_iff.mpr ⟨info, hinfo⟩

theorem markedGlobal_credit (x : Address) :
    Users.credit (markedGlobal w u j info job).users x = w.credit x := by
  rw [markedGlobal, Users.credit_insert]
  split
  · next hx => rw [hx]; exact (Users.credit_of_lookup hinfo).symm
  · rfl

theorem markedGlobal_balance (x : Address) :
    Users.balance (markedGlobal w u j info job).users x = w.balance x := by
  rw [markedGlobal, Users.balance_insert]
  split
  · next hx => rw [hx]; exact (Users.balance_of_lookup hinfo).symm
  · rfl

theorem markedGlobal_job (x : Address) (k : String) :
    Users.job (markedGlobal w u j info job).users x k =
      if x = u ∧ k = j then some job.complete else w.job x k := by
  rw [markedGlobal, Users.job_insert]
  by_cases hx : x = u
  · subst hx
    simp only [if_true, true_and]
    rw [Table.lookup_insert_ite, World.job, Users.job_of_lookup hinfo]
  · simp only [hx, if_false, false_and]
    rfl

end Marked

/-- `op_complete_job`: mark the job, then pay all its tasks. -/
theorem opCompleteJob_eq_ok {w w' : World} {a u : Address} {j : String} :
    PictorNetwork.opCompleteJob w a u j = .ok w' ↔
      a ∈ w.operators ∧ ∃ info job c g', w.users.lookup u = some info ∧
        info.jobs.lookup j = some job ∧ w.config = some c ∧
        PictorNetwork.payLoop u j c.workerEarningPercentage PictorConfig.getDenominator
          job.tasks.length (markedGlobal w u j info job) = .ok g' ∧
        w' = { w with network := some g' } := by
  have husers : ∀ g, w.network = some g → w.users = g.users := by
    intro g hg
    simp [World.users, hg]
  simp only [PictorNetwork.opCompleteJob, Checked.bind_eq_ok,
    PictorNetwork.assertIsOperator_eq_ok, PictorNetwork.assertJobCreated_eq_ok,
    PictorNetwork.globalData_eq_ok, Table.borrow_eq_ok,
    PictorConfig.getWorkerEarningPercentage_eq_ok, Checked.pure_eq_ok, exists_const]
  constructor
  · rintro ⟨hop, -, g, hg, info, hinfo, job, hjob, p, ⟨c, hc, rfl⟩, g', hloop, rfl⟩
    rw [husers g hg]
    exact ⟨hop, info, job, c, g', hinfo, hjob, hc, by rw [markedGlobal_eq hg]; exact hloop, rfl⟩
  · rintro ⟨hop, info, job, c, g', hinfo, hjob, hc, hloop, rfl⟩
    obtain ⟨g, hg⟩ := World.exists_network (World.registered_iff.mpr ⟨info, hinfo⟩)
    have hfound : w.job u j = some job := by rw [World.job, Users.job_of_lookup hinfo, hjob]
    rw [husers g hg] at hinfo
    rw [markedGlobal_eq hg] at hloop
    exact ⟨hop, ⟨by rw [hg]; rfl, job, hfound⟩, g, hg, info, hinfo, job, hjob, _, ⟨c, hc, rfl⟩, g',
      hloop, rfl⟩

/-- What it leaves behind. -/
theorem opCompleteJob_settles {w w' : World} {a u : Address} {j : String}
    (h : PictorNetwork.opCompleteJob w a u j = .ok w') :
    a ∈ w.operators ∧ ∃ job info c g', w.users.lookup u = some info ∧
      info.jobs.lookup j = some job ∧ w.config = some c ∧
      Settles c.workerEarningPercentage PictorConfig.getDenominator job.tasks
        (markedGlobal w u j info job) g' ∧
      (∀ t ∈ job.tasks, t.cost.toNat * c.workerEarningPercentage.toNat < 2 ^ 64) ∧
      w' = { w with network := some g' } := by
  obtain ⟨hop, info, job, c, g', hinfo, hjob, hc, hloop, rfl⟩ := opCompleteJob_eq_ok.mp h
  have hmarked := markedGlobal_job_self w u j info job
  have hpaid := payLoop_settles hmarked hloop
  have hfits := payLoop_fits hmarked hloop
  rw [Job.complete, List.take_length] at hpaid hfits
  exact ⟨hop, job, info, c, g', hinfo, hjob, hc, hpaid, hfits, rfl⟩

end Pictor
