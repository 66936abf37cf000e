import Pictor.Effect.Settlement

/-!
# Every entry function has its effect

One lemma per entry function, named `<function>_step`: if the call returns, the action was
`Accepted` and its result is the `Effect`. Each inverts the function's `do` block once and hands
what it wrote to `Effect.of_write`. `exec_step` collects them; it is the only fact about the entry
functions that the properties use, apart from the movement of tokens.
-/

namespace Pictor

variable {env : Env} {w w' : World}

/-! ## Two shapes of effect -/

/-- An action that writes the record of the user it names, and perhaps the other two tables. -/
theorem Effect.of_write {act : Action} {u : Address} {info : UserInfo}
    {workers : Table String Address} {requests : Table UInt64 CreditRequest} {l : Stores}
    (hsubject : subject act = some u)
    (hregister : registers act = some u ∨ registers act = none ∧ w.registered u)
    (hcredit : info.credit.toNat + creditOut u w act = w.credit u + creditIn u w act)
    (hbalance : info.balance.toNat + balanceOut u w act = w.balance u)
    (hpaid : ∀ x, balanceIn x w act = 0)
    (hjob : ∀ k, info.jobs.lookup k = jobAfter act u k (w.job u k))
    (hworker : ∀ k, workers.lookup k = (w.workerOwner k).or (newWorker act k))
    (hrequest : ∀ k, requests.lookup k = (w.creditRequest k).or (newRequest act k))
    (hconfig : configAfter env act w.config = w.config)
    (hstores : touchesStores act = false → l = w.stores) :
    Effect env w act ⟨w.config, some ⟨workers, w.users.insert u info, requests⟩, l⟩ where
  registered := by
    intro x
    show x ∈ Finmap.insert u info w.users ↔ _
    rw [Finmap.mem_insert]
    rcases hregister with hr | ⟨hr, hu⟩
    · rw [hr, Option.some.injEq, eq_comm, or_comm]
      rfl
    · rw [hr, or_iff_right_of_imp (by rintro rfl; exact hu)]
      simp [World.registered]
  credit := by
    intro x
    show Users.credit (Finmap.insert u info w.users) x + _ = _
    rw [Users.credit_insert]
    by_cases hx : x = u
    · rw [if_pos hx, hx, hcredit]
    · obtain ⟨hin, hout⟩ := credit_frame (subject_ne hsubject hx) w
      rw [if_neg hx, hin, hout]
      rfl
  balance := by
    intro x
    show Users.balance (Finmap.insert u info w.users) x + _ = _
    rw [Users.balance_insert, hpaid x]
    by_cases hx : x = u
    · rw [if_pos hx, hx, hbalance, Nat.add_zero]
    · rw [if_neg hx, balanceOut_frame (subject_ne hsubject hx) w]
      rfl
  job := by
    intro x k
    show Users.job (Finmap.insert u info w.users) x k = _
    rw [Users.job_insert]
    by_cases hx : x = u
    · rw [if_pos hx, hx, hjob k]
    · rw [if_neg hx, jobAfter_frame (subject_ne hsubject hx)]
      rfl
  workerOwner := hworker
  creditRequest := hrequest
  config := hconfig.symm
  stores := hstores

/-- An action that registers the user it names and changes no more of her record than the credit. -/
theorem Effect.of_credit {act : Action} {u : Address} {c : UInt64}
    {workers : Table String Address} {requests : Table UInt64 CreditRequest} {l : Stores}
    (hsubject : subject act = some u) (hregister : registers act = some u)
    (hcredit : c.toNat + creditOut u w act = w.credit u + creditIn u w act)
    (hout : balanceOut u w act = 0) (hpaid : ∀ x, balanceIn x w act = 0)
    (hjob : ∀ k old, jobAfter act u k old = old)
    (hworker : ∀ k, workers.lookup k = (w.workerOwner k).or (newWorker act k))
    (hrequest : ∀ k, requests.lookup k = (w.creditRequest k).or (newRequest act k))
    (hconfig : configAfter env act w.config = w.config)
    (hstores : touchesStores act = false → l = w.stores) :
    Effect env w act ⟨w.config,
      some ⟨workers, w.users.insert u { w.account u with credit := c }, requests⟩, l⟩ := by
  apply Effect.of_write hsubject (.inl hregister) hcredit _ hpaid _ hworker hrequest hconfig hstores
  · rw [hout, Nat.add_zero]
    exact World.balance_account w u
  · intro k
    rw [hjob]
    exact World.jobs_account w u k

/-- An action that names nobody and leaves the three tables alone. -/
theorem Effect.of_config {act : Action} (hsubject : subject act = none)
    (husers : w'.users = w.users) (hworkers : w'.workers = w.workers)
    (hrequests : w'.creditRequests = w.creditRequests)
    (hconfig : w'.config = configAfter env act w.config)
    (hstores : touchesStores act = false → w'.stores = w.stores) : Effect env w act w' := by
  obtain ⟨hregister, hworker, hrequest⟩ := registries_of_no_subject hsubject
  have hne : ∀ x, subject act ≠ some x := by
    intro x
    rw [hsubject]
    exact (Option.some_ne_none x).symm
  constructor
  case registered =>
    intro x
    rw [hregister, World.registered, husers]
    simp [World.registered]
  case credit =>
    intro x
    obtain ⟨hin, hout⟩ := credit_frame (hne x) w
    rw [hin, hout, World.credit, husers]
    rfl
  case balance =>
    intro x
    rw [balanceIn_of_no_subject hsubject w, balanceOut_frame (hne x) w, World.balance, husers]
    rfl
  case job =>
    intro x k
    rw [jobAfter_frame (hne x), World.job, husers]
    rfl
  case workerOwner =>
    intro k
    rw [hworker, Option.or_none, World.workerOwner, hworkers]
    rfl
  case creditRequest =>
    intro k
    rw [hrequest, Option.or_none, World.creditRequest, hrequests]
    rfl
  case config => exact hconfig
  case stores => exact hstores

/-! ## The functions of `pictor_config` -/

theorem initializeConfig_step {a : Address} {token : Token} {treasury : Address} {pk : List UInt8}
    (h : PictorConfig.initializeConfig env w a token treasury pk = .ok w') :
    Accepted env w (.txn a (.initializeConfig token treasury pk)) ∧
      Effect env w (.txn a (.initializeConfig token treasury pk)) w' := by
  simp only [PictorConfig.initializeConfig, Checked.bind_eq_ok, Checked.require_eq_ok,
    FungibleAsset.createStore, Table.add_eq_ok, Checked.pure_eq_ok, exists_const] at h
  obtain ⟨rfl, hnone, l, ⟨-, rfl⟩, vault, ⟨-, rfl⟩, rfl⟩ := h
  refine ⟨⟨rfl, by simpa [PictorConfig.isInitialized] using hnone⟩, ?_⟩
  refine Effect.of_config rfl rfl rfl rfl rfl ?_
  intro hfalse
  cases hfalse

theorem setAdminPubkey_step {a : Address} {pk : List UInt8}
    (h : PictorConfig.setAdminPubkey env w a pk = .ok w') :
    Accepted env w (.txn a (.setAdminPubkey pk)) ∧
      Effect env w (.txn a (.setAdminPubkey pk)) w' := by
  simp only [PictorConfig.setAdminPubkey, Checked.bind_eq_ok, Checked.require_eq_ok,
    PictorConfig.getConfig_eq_ok, Checked.pure_eq_ok, exists_const] at h
  obtain ⟨rfl, c, hc, rfl⟩ := h
  refine ⟨rfl, ?_⟩
  refine Effect.of_config rfl rfl rfl rfl ?_ (fun _ => rfl)
  rw [hc]
  rfl

/-- Writing back what is there changes nothing. -/
theorem withOperators_eq {c : Config} {ops : List Address} (hc : w.config = some c)
    (h : c.operators = ops) : w = { w with config := some { c with operators := ops } } := by
  obtain ⟨config, network, stores⟩ := w
  cases hc
  cases h
  rfl

theorem addOperator_eq_ok {a b : Address} (h : PictorConfig.addOperator env w a b = .ok w') :
    a = env.deployer ∧ ∃ c, w.config = some c ∧ w' = { w with config := some { c with
      operators := if b ∈ c.operators then c.operators else c.operators ++ [b] } } := by
  simp only [PictorConfig.addOperator, Checked.bind_eq_ok, Checked.require_eq_ok,
    PictorConfig.getConfig_eq_ok, MoveVector.contains_iff, exists_const] at h
  obtain ⟨c, hc, rfl, h⟩ := h
  refine ⟨rfl, c, hc, ?_⟩
  split at h
  · next hb =>
    cases h
    rw [if_neg hb]
  · next hb =>
    cases h
    exact withOperators_eq hc (if_pos (not_not.mp hb)).symm

theorem addOperator_step {a b : Address} (h : PictorConfig.addOperator env w a b = .ok w') :
    Accepted env w (.txn a (.addOperator b)) ∧ Effect env w (.txn a (.addOperator b)) w' := by
  obtain ⟨ha, c, hc, rfl⟩ := addOperator_eq_ok h
  refine ⟨ha, ?_⟩
  refine Effect.of_config rfl rfl rfl rfl ?_ (fun _ => rfl)
  rw [hc]
  rfl

/-- `index_of` and `remove` together erase the first occurrence. -/
theorem removeOperator_eq_ok {a b : Address}
    (h : PictorConfig.removeOperator env w a b = .ok w') :
    a = env.deployer ∧ ∃ c, w.config = some c ∧
      w' = { w with config := some { c with operators := c.operators.erase b } } := by
  simp only [PictorConfig.removeOperator, Checked.bind_eq_ok, Checked.require_eq_ok,
    PictorConfig.getConfig_eq_ok, exists_const, MoveVector.indexOf_eq] at h
  obtain ⟨c, hc, rfl, h⟩ := h
  refine ⟨rfl, c, hc, ?_⟩
  by_cases hb : b ∈ c.operators
  · simp only [hb, if_true, Checked.bind_eq_ok, Checked.pure_eq_ok, Prod.exists,
      MoveVector.remove_eq_ok] at h
    obtain ⟨x, ops, ⟨-, rfl⟩, rfl⟩ := h
    rw [List.erase_eq_eraseIdx_of_idxOf rfl]
  · simp only [hb, if_false, Bool.false_eq_true, Checked.pure_eq_ok] at h
    rw [← h]
    exact withOperators_eq hc (List.erase_of_not_mem hb).symm

theorem removeOperator_step {a b : Address}
    (h : PictorConfig.removeOperator env w a b = .ok w') :
    Accepted env w (.txn a (.removeOperator b)) ∧ Effect env w (.txn a (.removeOperator b)) w' := by
  obtain ⟨ha, c, hc, rfl⟩ := removeOperator_eq_ok h
  refine ⟨ha, ?_⟩
  refine Effect.of_config rfl rfl rfl rfl ?_ (fun _ => rfl)
  rw [hc]
  rfl

/-- A transfer to the treasury: two movements, both in the stores only. -/
theorem withdrawToTreasury_eq_ok {a : Address} {amount : UInt64} {token : Token}
    (h : PictorConfig.withdrawToTreasury env w a amount token = .ok w') :
    a ∈ w.operators ∧ ∃ s fa l treasury l', w.vault.lookup token = some s ∧
      DispatchableFungibleAsset.withdraw env w.stores env.configAddress s amount = .ok (fa, l) ∧
      PictorConfig.getTreasuryAddress w = .ok treasury ∧
      PrimaryFungibleStore.deposit env l treasury fa = .ok l' ∧ w' = { w with stores := l' } := by
  simp only [PictorConfig.withdrawToTreasury, Checked.bind_eq_ok, Checked.require_eq_ok,
    PictorConfig.getVaultStore_eq_ok, Checked.pure_eq_ok, Prod.exists, exists_const] at h
  obtain ⟨b, hop, rfl, -, -, s, hs, fa, l, htake, treasury, htreasury, l', hadd, rfl⟩ := h
  exact ⟨PictorConfig.isOperator_eq_true.mp hop, s, fa, l, treasury, l', hs, htake, htreasury, hadd,
    rfl⟩

theorem withdrawToTreasury_step {a : Address} {amount : UInt64} {token : Token}
    (h : PictorConfig.withdrawToTreasury env w a amount token = .ok w') :
    Accepted env w (.txn a (.withdrawToTreasury amount token)) ∧
      Effect env w (.txn a (.withdrawToTreasury amount token)) w' := by
  obtain ⟨hop, s, -, -, -, l', hs, -, -, -, rfl⟩ := withdrawToTreasury_eq_ok h
  refine ⟨⟨hop, s, hs⟩, ?_⟩
  refine Effect.of_config rfl rfl rfl rfl rfl ?_
  intro hfalse
  cases hfalse

/-! ## Registration -/

section Network

open World PictorNetwork

theorem initializeNetwork_step {a : Address} (h : initializeNetwork env w a = .ok w') :
    Accepted env w (.txn a .initializeNetwork) ∧ Effect env w (.txn a .initializeNetwork) w' := by
  simp only [initializeNetwork, Checked.bind_eq_ok, Checked.require_eq_ok, Checked.pure_eq_ok,
    exists_const] at h
  obtain ⟨rfl, hnone, rfl⟩ := h
  have hnone : w.network = none := by simpa [PictorNetwork.isInitialized] using hnone
  refine ⟨⟨rfl, hnone⟩, ?_⟩
  -- a missing resource and an empty one are observed alike
  obtain ⟨c, n, l⟩ := w
  cases hnone
  exact Effect.of_config rfl rfl rfl rfl rfl (fun _ => rfl)

theorem registerUser_step {a : Address} (h : registerUser w a = .ok w') :
    Accepted env w (.txn a .registerUser) ∧ Effect env w (.txn a .registerUser) w' := by
  simp only [registerUser, Checked.bind_eq_ok, registerUserInternal_eq_ok] at h
  obtain ⟨-, -, -, rfl⟩ := h
  refine ⟨trivial, ?_⟩
  exact Effect.of_credit rfl rfl (credit_account w a) rfl (fun _ => rfl) (fun _ _ => rfl)
    (fun _ => (Option.or_none).symm) (fun _ => (Option.or_none).symm) rfl (fun _ => rfl)

/-- Both registration entry functions leave the user with her account and, unless the id is
taken, with the worker. -/
theorem registerWorkerInternal_eq_ok {u : Address} {id : String}
    (h : registerWorkerInternal w u id = .ok w') :
    ∃ workers : Table String Address,
      (∀ k, workers.lookup k = (w.workerOwner k).or (if k = id then some u else none)) ∧
      w' = ⟨w.config, some ⟨workers, w.users.insert u (w.account u), w.creditRequests⟩,
        w.stores⟩ := by
  simp only [registerWorkerInternal, Checked.bind_eq_ok, registerUserInternal_eq_ok,
    globalData_eq_ok] at h
  obtain ⟨w₁, ⟨-, rfl⟩, g, hg, h⟩ := h
  cases hg
  split at h
  · next hfree =>
    simp only [Checked.bind_eq_ok, Table.add_eq_ok, Checked.pure_eq_ok] at h
    obtain ⟨workers, ⟨hnone, rfl⟩, rfl⟩ := h
    exact ⟨_, fun k => Table.lookup_insert_of_fresh hnone k u, rfl⟩
  · next htaken =>
    cases h
    -- the id has an owner already: the table stays, and the call succeeds all the same
    obtain ⟨o, ho⟩ := Table.contains_eq_true.mp (not_not.mp htaken)
    exact ⟨w.workers, fun k => Table.lookup_or_of_present ho k u, rfl⟩

theorem registerWorker_step {a : Address} {id : String} (h : registerWorker w a id = .ok w') :
    Accepted env w (.txn a (.registerWorker id)) ∧
      Effect env w (.txn a (.registerWorker id)) w' := by
  simp only [registerWorker, Checked.bind_eq_ok] at h
  obtain ⟨-, -, h⟩ := h
  obtain ⟨workers, hworkers, rfl⟩ := registerWorkerInternal_eq_ok h
  refine ⟨trivial, ?_⟩
  exact Effect.of_credit rfl rfl (credit_account w a) rfl (fun _ => rfl) (fun _ _ => rfl) hworkers
    (fun _ => (Option.or_none).symm) rfl (fun _ => rfl)

theorem opRegisterWorker_step {a u : Address} {id : String}
    (h : opRegisterWorker w a u id = .ok w') :
    Accepted env w (.txn a (.opRegisterWorker u id)) ∧
      Effect env w (.txn a (.opRegisterWorker u id)) w' := by
  simp only [opRegisterWorker, Checked.bind_eq_ok, assertIsOperator_eq_ok, exists_const] at h
  obtain ⟨hop, h⟩ := h
  obtain ⟨workers, hworkers, rfl⟩ := registerWorkerInternal_eq_ok h
  refine ⟨hop, ?_⟩
  exact Effect.of_credit rfl rfl (credit_account w u) rfl (fun _ => rfl) (fun _ _ => rfl) hworkers
    (fun _ => (Option.or_none).symm) rfl (fun _ => rfl)

/-! ## Jobs -/

theorem opCreateJob_step {a u : Address} {j : String} (h : opCreateJob w a u j = .ok w') :
    Accepted env w (.txn a (.opCreateJob u j)) ∧ Effect env w (.txn a (.opCreateJob u j)) w' := by
  simp only [opCreateJob, Checked.bind_eq_ok, assertIsOperator_eq_ok, registerUserInternal_eq_ok,
    Checked.require_eq_ok, Table.add_eq_ok, withUserInfo_eq_ok, exists_const] at h
  obtain ⟨hop, w₁, ⟨-, rfl⟩, info, hinfo, -, jobs, ⟨hnone, rfl⟩, -, rfl⟩ := h
  rw [userInfo_registered] at hinfo
  subst hinfo
  rw [jobs_account] at hnone
  rw [setUser_setUser]
  refine ⟨⟨hop, hnone⟩, ?_⟩
  apply Effect.of_write rfl (.inl rfl) _ _ (fun _ => rfl) _ _ _ rfl (fun _ => rfl)
  · exact credit_account w u
  · exact balance_account w u
  · intro k
    simp only [jobAfter, true_and]
    rw [Table.lookup_insert_ite, jobs_account]
  · exact fun k => (Option.or_none).symm
  · exact fun k => (Option.or_none).symm

/-- **Credit first, then balance.** -/
theorem deduct_eq_ok {info info' : UserInfo} {cost : UInt64} (h : deduct info cost = .ok info') :
    info'.jobs = info.jobs ∧
      info'.credit.toNat + min info.credit.toNat cost.toNat = info.credit.toNat ∧
      info'.balance.toNat + (cost.toNat - min info.credit.toNat cost.toNat) =
        info.balance.toNat := by
  unfold deduct at h
  split at h
  · -- the credit covers the cost
    next hle =>
    simp only [Checked.bind_eq_ok, U64.sub_eq_ok, Checked.pure_eq_ok] at h
    obtain ⟨c, hc, rfl⟩ := h
    have := UInt64.le_iff_toNat_le.mp hle
    refine ⟨rfl, ?_, ?_⟩
    · rw [Nat.min_eq_right this]
      exact hc
    · rw [Nat.min_eq_right this, Nat.sub_self]
      rfl
  · -- the credit is used up, and the balance pays the rest
    next hgt =>
    simp only [Checked.bind_eq_ok, U64.sub_eq_ok, Checked.pure_eq_ok] at h
    obtain ⟨r, hr, b, hb, rfl⟩ := h
    have : info.credit.toNat ≤ cost.toNat := by omega
    refine ⟨rfl, ?_, ?_⟩
    · rw [Nat.min_eq_left this]
      exact Nat.zero_add _
    · rw [Nat.min_eq_left this]
      show b.toNat + _ = _
      omega

theorem opAddTask_step {a u : Address} {j : String} {taskId : UInt64} {id : String}
    {cost duration : UInt64} (h : opAddTask w a u j taskId id cost duration = .ok w') :
    Accepted env w (.txn a (.opAddTask u j taskId id cost duration)) ∧
      Effect env w (.txn a (.opAddTask u j taskId id cost duration)) w' := by
  simp only [opAddTask, Checked.bind_eq_ok, assertIsOperator_eq_ok, assertJobCreated_eq_ok,
    userInfo_eq_ok, Checked.require_eq_ok, U64.add_eq_ok, Table.borrow_eq_ok, withUserInfo_eq_ok,
    exists_const] at h
  obtain ⟨hop, -, info, ⟨-, hinfo⟩, funds, hfunds, hle, info', hdeduct, job, hjob, payment,
    hpayment, -, rfl⟩ := h
  -- the deduction leaves the jobs alone, so the job borrowed after it is the one of before
  obtain ⟨hjobs, hcredit, hbalance⟩ := deduct_eq_ok hdeduct
  rw [hjobs] at hjob
  have hc : w.credit u = info.credit.toNat := Users.credit_of_lookup hinfo
  have hb : w.balance u = info.balance.toNat := Users.balance_of_lookup hinfo
  have hj : ∀ k, w.job u k = info.jobs.lookup k := Users.job_of_lookup hinfo
  have hsum : payment = job.payment + cost := by
    rw [← UInt64.toNat_inj, UInt64.toNat_add, ← hpayment, Nat.mod_eq_of_lt payment.toNat_lt]
  refine ⟨⟨hop, ?_, job, by rw [hj, hjob], ?_⟩, ?_⟩
  · rw [hc, hb, ← hfunds]
    exact UInt64.le_iff_toNat_le.mp hle
  · rw [← hpayment]
    exact payment.toNat_lt
  · have hu : w.registered u := registered_iff.mpr ⟨info, hinfo⟩
    apply Effect.of_write rfl (.inr ⟨rfl, hu⟩) _ _ (fun _ => rfl) _ _ _ rfl (fun _ => rfl)
    · rw [creditOut_opAddTask, if_pos rfl, hc]
      exact hcredit
    · rw [balanceOut_opAddTask, if_pos rfl, hc, hb]
      exact hbalance
    · intro k
      simp only [jobAfter, true_and]
      rw [Table.lookup_insert_ite, hjobs]
      split
      · next hk => rw [hk, hj, hjob, hsum]; rfl
      · exact (hj k).symm
    · exact fun k => (Option.or_none).symm
    · exact fun k => (Option.or_none).symm

theorem opCompleteJob_step {a u : Address} {j : String} (h : opCompleteJob w a u j = .ok w') :
    Accepted env w (.txn a (.opCompleteJob u j)) ∧
      Effect env w (.txn a (.opCompleteJob u j)) w' := by
  obtain ⟨hop, job, info, c, g', hinfo, hjob, hc, hpaid, -, rfl⟩ := opCompleteJob_settles h
  have hj : w.job u j = some job := by
    rw [World.job, Users.job_of_lookup hinfo, hjob]
  refine ⟨⟨hop, job, hj, hpaid.owned⟩, ?_⟩
  constructor
  case registered =>
    intro x
    rw [show registers (.txn a (.opCompleteJob u j)) = none from rfl]
    refine (hpaid.registered x).trans ?_
    rw [markedGlobal_registered hinfo]
    simp
  case credit => exact fun x => (hpaid.credit x).trans (markedGlobal_credit hinfo x)
  case balance =>
    intro x
    -- the write that marks the job keeps the balance the payments are added to
    refine (hpaid.balance x).trans ?_
    rw [markedGlobal_balance hinfo, balanceIn_opCompleteJob x a hj]
    exact congrArg (w.balance x + ·) (payout_eq_earnings hc x job.tasks)
  case job =>
    intro x k
    refine (hpaid.job x k).trans ?_
    rw [markedGlobal_job hinfo]
    simp only [jobAfter]
    split
    · next heq => rw [heq.1, heq.2, hj]; rfl
    · rfl
  case workerOwner =>
    intro k
    refine (congrArg (Finmap.lookup k) hpaid.workers).trans ?_
    exact (Option.or_none).symm
  case creditRequest =>
    intro k
    refine (congrArg (Finmap.lookup k) hpaid.creditRequests).trans ?_
    exact (Option.or_none).symm
  case config => rfl
  case stores => exact fun _ => rfl

/-! ## Credit and tokens -/

theorem opCreditUser_step {a u : Address} {amount : UInt64}
    (h : opCreditUser w a u amount = .ok w') :
    Accepted env w (.txn a (.opCreditUser u amount)) ∧
      Effect env w (.txn a (.opCreditUser u amount)) w' := by
  simp only [opCreditUser, Checked.bind_eq_ok, assertIsOperator_eq_ok, registerUserInternal_eq_ok,
    U64.add_eq_ok, withUserInfo_eq_ok, exists_const] at h
  obtain ⟨hop, w₁, ⟨-, rfl⟩, info, hinfo, c, hc, -, rfl⟩ := h
  rw [userInfo_registered] at hinfo
  subst hinfo
  rw [setUser_setUser]
  refine ⟨hop, ?_⟩
  refine Effect.of_credit rfl rfl ?_ rfl (fun _ => rfl) (fun _ _ => rfl)
    (fun _ => (Option.or_none).symm) (fun _ => (Option.or_none).symm) rfl (fun _ => rfl)
  rw [credit_account] at hc
  rw [creditIn_opCreditUser, if_pos rfl]
  exact hc

theorem opDebitUser_step {a u : Address} {amount : UInt64}
    (h : opDebitUser w a u amount = .ok w') :
    Accepted env w (.txn a (.opDebitUser u amount)) ∧
      Effect env w (.txn a (.opDebitUser u amount)) w' := by
  simp only [opDebitUser, Checked.bind_eq_ok, assertIsOperator_eq_ok, assertUserRegistered_eq_ok,
    userInfo_eq_ok, Checked.require_eq_ok, U64.sub_eq_ok, withUserInfo_eq_ok, exists_const] at h
  obtain ⟨hop, ⟨-, hu⟩, info, ⟨-, hinfo⟩, hle, c, hc, -, rfl⟩ := h
  have hcredit : w.credit u = info.credit.toNat := Users.credit_of_lookup hinfo
  refine ⟨⟨hop, ?_⟩, ?_⟩
  · rw [hcredit]
    exact UInt64.le_iff_toNat_le.mp hle
  · apply Effect.of_write rfl (.inr ⟨rfl, hu⟩) _ _ (fun _ => rfl) _ _ _ rfl (fun _ => rfl)
    · rw [creditOut_opDebitUser, if_pos rfl, hcredit]
      exact hc
    · exact (Users.balance_of_lookup hinfo).symm
    · exact fun k => (Users.job_of_lookup hinfo k).symm
    · exact fun k => (Option.or_none).symm
    · exact fun k => (Option.or_none).symm

/-- A deposit: the credit is written first, then the tokens move from the caller's wallet to the
vault store. -/
theorem deposit_eq_ok {a : Address} {amount : UInt64} {token : Token} :
    deposit env w a amount token = .ok w' ↔ w.network.isSome ∧
      ∃ c s fa l l', c.toNat = w.credit a + amount.toNat ∧ w.vault.lookup token = some s ∧
        PrimaryFungibleStore.withdraw env w.stores a token amount = .ok (fa, l) ∧
        DispatchableFungibleAsset.deposit env l s fa = .ok l' ∧
        w' = { w.setUser a { w.account a with credit := c } with stores := l' } := by
  simp only [deposit, PictorConfig.depositVault, Checked.bind_eq_ok, registerUserInternal_eq_ok,
    U64.add_eq_ok, withUserInfo_eq_ok, PictorConfig.getVaultStore_eq_ok, Checked.pure_eq_ok,
    Prod.exists]
  constructor
  · rintro ⟨w₁, ⟨hn, rfl⟩, info, hinfo, c, hc, w₂, ⟨-, rfl⟩, fa, l, htake, s, hs, l', hadd, rfl⟩
    rw [userInfo_registered] at hinfo
    subst hinfo
    rw [credit_account] at hc
    rw [setUser_setUser]
    exact ⟨hn, c, s, fa, l, l', hc, hs, htake, hadd, rfl⟩
  · rintro ⟨hn, c, s, fa, l, l', hc, hs, htake, hadd, rfl⟩
    refine ⟨_, ⟨hn, rfl⟩, _, userInfo_registered.mpr rfl, c, by rw [credit_account]; exact hc, _,
      ⟨rfl, rfl⟩, fa, l, htake, s, hs, l', hadd, ?_⟩
    rw [setUser_setUser]

theorem deposit_step {a : Address} {amount : UInt64} {token : Token}
    (h : deposit env w a amount token = .ok w') :
    Accepted env w (.txn a (.deposit amount token)) ∧
      Effect env w (.txn a (.deposit amount token)) w' := by
  obtain ⟨-, c, s, -, -, l', hc, hs, -, -, rfl⟩ := deposit_eq_ok.mp h
  refine ⟨⟨s, hs⟩, ?_⟩
  refine Effect.of_credit rfl rfl ?_ rfl (fun _ => rfl) (fun _ _ => rfl)
    (fun _ => (Option.or_none).symm) (fun _ => (Option.or_none).symm) rfl ?_
  · rw [creditIn_deposit, if_pos rfl]
    exact hc
  · intro hfalse
    cases hfalse

/-- A withdrawal: the balance is written first, then the tokens move from the vault store to the
caller's wallet. -/
theorem withdraw_eq_ok {a : Address} {amount : UInt64} {token : Token} :
    PictorNetwork.withdraw env w a amount token = .ok w' ↔
      ∃ info b s fa l l', w.users.lookup a = some info ∧
        b.toNat + amount.toNat = info.balance.toNat ∧ w.vault.lookup token = some s ∧
        DispatchableFungibleAsset.withdraw env w.stores env.configAddress s amount = .ok (fa, l) ∧
        PrimaryFungibleStore.deposit env l a fa = .ok l' ∧
        w' = { w.setUser a { info with balance := b } with stores := l' } := by
  simp only [PictorNetwork.withdraw, PictorConfig.withdrawVault, Checked.bind_eq_ok,
    assertUserRegistered_eq_ok, userInfo_eq_ok, Checked.require_eq_ok, U64.sub_eq_ok,
    withUserInfo_eq_ok, PictorConfig.getVaultStore_eq_ok, Checked.pure_eq_ok, Prod.exists,
    exists_const]
  constructor
  · rintro ⟨-, info, ⟨-, hinfo⟩, -, b, hb, w₁, ⟨-, rfl⟩, fa, w₂, ⟨s, hs, fa', l, htake, heq⟩, l',
      hadd, rfl⟩
    cases heq
    exact ⟨info, b, s, fa, l, l', hinfo, hb, hs, htake, hadd, rfl⟩
  · rintro ⟨info, b, s, fa, l, l', hinfo, hb, hs, htake, hadd, rfl⟩
    have hu : w.registered a := registered_iff.mpr ⟨info, hinfo⟩
    have hn := network_isSome hu
    have hle : amount ≤ info.balance := UInt64.le_iff_toNat_le.mpr (by omega)
    exact ⟨⟨hn, hu⟩, info, ⟨hn, hinfo⟩, hle, b, hb, _, ⟨hn, rfl⟩, fa, _,
      ⟨s, hs, fa, l, htake, rfl⟩, l', hadd, rfl⟩

theorem withdraw_step {a : Address} {amount : UInt64} {token : Token}
    (h : PictorNetwork.withdraw env w a amount token = .ok w') :
    Accepted env w (.txn a (.withdraw amount token)) ∧
      Effect env w (.txn a (.withdraw amount token)) w' := by
  obtain ⟨info, b, s, -, -, l', hinfo, hb, hs, -, -, rfl⟩ := withdraw_eq_ok.mp h
  have hbalance : w.balance a = info.balance.toNat := Users.balance_of_lookup hinfo
  refine ⟨⟨?_, s, hs⟩, ?_⟩
  · rw [hbalance, ← hb]
    exact Nat.le_add_left _ _
  · have hu : w.registered a := registered_iff.mpr ⟨info, hinfo⟩
    apply Effect.of_write rfl (.inr ⟨rfl, hu⟩) _ _ (fun _ => rfl) _ _ _ rfl _
    · exact (Users.credit_of_lookup hinfo).symm
    · rw [balanceOut_withdraw, if_pos rfl, hbalance]
      exact hb
    · exact fun k => (Users.job_of_lookup hinfo k).symm
    · exact fun k => (Option.or_none).symm
    · exact fun k => (Option.or_none).symm
    · intro hfalse
      cases hfalse

theorem claimCredit_step {a : Address} {amount r : UInt64} {signature : List UInt8}
    (h : claimCredit env w a amount r signature = .ok w') :
    Accepted env w (.txn a (.claimCredit amount r signature)) ∧
      Effect env w (.txn a (.claimCredit amount r signature)) w' := by
  simp only [claimCredit, Checked.bind_eq_ok, registerUserInternal_eq_ok, globalData_eq_ok,
    Checked.require_eq_ok, PictorConfig.getAdminPubkey, PictorConfig.getConfig_eq_ok,
    Ed25519.newUnvalidatedPublicKeyFromBytes, Ed25519.newSignatureFromBytes, Table.borrow_eq_ok,
    U64.add_eq_ok, Table.add_eq_ok, Checked.pure_eq_ok, exists_const] at h
  obtain ⟨w₁, ⟨-, rfl⟩, g, hg, -, pk, ⟨c, hc, rfl⟩, upk, ⟨-, rfl⟩, sig, ⟨-, rfl⟩, hsig, info,
    hinfo, credit, hcredit, requests, ⟨hfresh, rfl⟩, rfl⟩ := h
  cases hg
  have hinfo : w.account a = info := by simpa using hinfo
  subst hinfo
  have hpk : w.adminPubkey = c.adminPubkey := by
    simp only [World.adminPubkey]
    rw [show w.config = some c from hc]
    rfl
  refine ⟨⟨hfresh, by rw [hpk]; exact hsig⟩, ?_⟩
  rw [show PictorNetwork.withGlobal (w.setUser a (w.account a)) _ = World.mk w.config _ w.stores
    from rfl]
  rw [Finmap.insert_insert]
  refine Effect.of_credit rfl rfl ?_ rfl (fun _ => rfl) (fun _ _ => rfl)
    (fun _ => (Option.or_none).symm) (fun k => Table.lookup_insert_of_fresh hfresh k _) rfl
    (fun _ => rfl)
  rw [credit_account] at hcredit
  rw [creditIn_claimCredit, if_pos rfl]
  exact hcredit

end Network

/-! ## All actions -/

/-- **Inversion of a step.** -/
theorem exec_step {act : Action} (h : exec env w act = .ok w') :
    Accepted env w act ∧ Effect env w act w' := by
  cases act with
  | outside l' =>
    simp only [exec] at h
    split at h
    · next hkept =>
      cases h
      refine ⟨hkept, ?_⟩
      refine Effect.of_config rfl rfl rfl rfl rfl ?_
      intro hfalse
      cases hfalse
    · cases h
  | txn a call =>
    cases call with
    | initializeConfig => exact initializeConfig_step h
    | setAdminPubkey => exact setAdminPubkey_step h
    | addOperator => exact addOperator_step h
    | removeOperator => exact removeOperator_step h
    | withdrawToTreasury => exact withdrawToTreasury_step h
    | initializeNetwork => exact initializeNetwork_step h
    | registerUser => exact registerUser_step h
    | registerWorker => exact registerWorker_step h
    | opRegisterWorker => exact opRegisterWorker_step h
    | opCreateJob => exact opCreateJob_step h
    | opAddTask => exact opAddTask_step h
    | opCompleteJob => exact opCompleteJob_step h
    | opCreditUser => exact opCreditUser_step h
    | opDebitUser => exact opDebitUser_step h
    | deposit => exact deposit_step h
    | withdraw => exact withdraw_step h
    | claimCredit => exact claimCredit_step h

theorem exec_accepted {act : Action} (h : exec env w act = .ok w') : Accepted env w act :=
  (exec_step h).1

theorem exec_effect {act : Action} (h : exec env w act = .ok w') : Effect env w act w' :=
  (exec_step h).2

/-! What the three calls that move a user's own account do to it. -/

section Own

variable {a : Address} {amount : UInt64} {token : Token}

theorem credit_of_deposit (h : exec env w (.txn a (.deposit amount token)) = .ok w') :
    w'.credit a = w.credit a + amount.toNat := by
  have hcredit := (exec_effect h).credit a
  rw [creditIn_deposit, if_pos rfl] at hcredit
  exact hcredit

theorem credit_of_claimCredit {r : UInt64} {signature : List UInt8}
    (h : exec env w (.txn a (.claimCredit amount r signature)) = .ok w') :
    w'.credit a = w.credit a + amount.toNat := by
  have hcredit := (exec_effect h).credit a
  rw [creditIn_claimCredit, if_pos rfl] at hcredit
  exact hcredit

theorem balance_of_withdraw (h : exec env w (.txn a (.withdraw amount token)) = .ok w') :
    w'.balance a + amount.toNat = w.balance a := by
  have hbalance := (exec_effect h).balance a
  rw [balanceOut_withdraw, if_pos rfl] at hbalance
  exact hbalance

end Own

/-- **A module that is initialised stays so.** -/
theorem initialized_of_exec {act : Action} (h : exec env w act = .ok w')
    (hn : PictorNetwork.isInitialized w = true) : PictorNetwork.isInitialized w' = true := by
  have he := exec_effect h
  have hregistered : ∀ u, w'.registered u → PictorNetwork.isInitialized w' = true := by
    intro u hu
    exact World.network_isSome hu
  cases act with
  | outside l' =>
    simp only [exec] at h
    split at h
    · cases h
      exact hn
    · cases h
  | txn a call =>
    cases call with
    | initializeConfig =>
      simp only [exec, execCall, PictorConfig.initializeConfig, Checked.bind_eq_ok,
        Checked.pure_eq_ok] at h
      obtain ⟨-, -, -, -, -, -, -, -, rfl⟩ := h
      exact hn
    | setAdminPubkey =>
      simp only [exec, execCall, PictorConfig.setAdminPubkey, Checked.bind_eq_ok,
        Checked.pure_eq_ok] at h
      obtain ⟨-, -, -, -, rfl⟩ := h
      exact hn
    | initializeNetwork =>
      simp only [exec, execCall, PictorNetwork.initializeNetwork, Checked.bind_eq_ok,
        Checked.pure_eq_ok] at h
      obtain ⟨-, -, -, -, rfl⟩ := h
      rfl
    | withdrawToTreasury =>
      obtain ⟨-, -, -, -, -, -, -, -, -, -, rfl⟩ := withdrawToTreasury_eq_ok h
      exact hn
    | addOperator =>
      obtain ⟨-, -, -, rfl⟩ := addOperator_eq_ok h
      exact hn
    | removeOperator =>
      obtain ⟨-, -, -, rfl⟩ := removeOperator_eq_ok h
      exact hn
    | registerUser | registerWorker | opRegisterWorker | opCreateJob | opCreditUser | deposit
    | claimCredit => exact hregistered _ ((he.registered _).mpr (.inr rfl))
    | opAddTask =>
      obtain ⟨-, -, job, hjob, -⟩ := exec_accepted h
      exact hregistered _ ((he.registered _).mpr (.inl (World.registered_of_job hjob)))
    | opCompleteJob =>
      obtain ⟨-, job, hjob, -⟩ := exec_accepted h
      exact hregistered _ ((he.registered _).mpr (.inl (World.registered_of_job hjob)))
    | opDebitUser =>
      simp only [exec, execCall, PictorNetwork.opDebitUser, Checked.bind_eq_ok,
        PictorNetwork.assertUserRegistered_eq_ok] at h
      obtain ⟨-, -, -, ⟨-, hu⟩, -⟩ := h
      exact hregistered _ ((he.registered _).mpr (.inl hu))
    | withdraw =>
      obtain ⟨-, -, -, -, -, -, -, -, -, -, -, rfl⟩ := withdraw_eq_ok.mp h
      rfl

end Pictor
