import Pictor.Framework.Message

/-!
# The contract's state

`Config` and `GlobalData` are the two resources the contract publishes, and `World` is the part of
the chain it can touch: both resources and the fungible stores. A resource is published in the same
transaction that registers its address with the package manager, so one `Option` stands for the
registered address and the resource under it.

Below the data come the observers everything is stated in: what a user holds, which jobs she has,
who owns a worker. An unregistered user holds nothing and has no job.
-/

namespace Pictor

structure Task where
  taskId : UInt64
  workerId : String
  cost : UInt64
  duration : UInt64
  deriving DecidableEq, Repr

structure Job where
  tasks : List Task
  payment : UInt64
  isCompleted : Bool
  deriving DecidableEq, Repr

structure UserInfo where
  balance : UInt64
  credit : UInt64
  jobs : Table String Job
  deriving DecidableEq

structure CreditRequest where
  userAddr : Address
  amount : UInt64
  deriving DecidableEq, Repr

/-- The resource of `pictor_network`. -/
structure GlobalData where
  workers : Table String Address
  users : Table Address UserInfo
  creditRequests : Table UInt64 CreditRequest
  deriving DecidableEq

/-- The resource of `pictor_config`. -/
structure Config where
  operators : List Address
  isPause : Bool
  treasuryAddr : Address
  workerEarningPercentage : UInt64
  adminPubkey : List UInt8
  vault : Table Token Store
  deriving DecidableEq

structure World where
  config : Option Config
  network : Option GlobalData
  stores : Stores
  deriving DecidableEq

/-! ## Observing the user table -/

abbrev Users := Table Address UserInfo

namespace Users

def balance (t : Users) (u : Address) : ℕ := (t.lookup u).elim 0 (·.balance.toNat)

def credit (t : Users) (u : Address) : ℕ := (t.lookup u).elim 0 (·.credit.toNat)

def job (t : Users) (u : Address) (j : String) : Option Job :=
  (t.lookup u).bind (·.jobs.lookup j)

theorem balance_of_lookup {t : Users} {u : Address} {info : UserInfo}
    (h : t.lookup u = some info) : t.balance u = info.balance.toNat := by
  simp [balance, h]

theorem credit_of_lookup {t : Users} {u : Address} {info : UserInfo}
    (h : t.lookup u = some info) : t.credit u = info.credit.toNat := by
  simp [credit, h]

theorem job_of_lookup {t : Users} {u : Address} {info : UserInfo}
    (h : t.lookup u = some info) (j : String) : t.job u j = info.jobs.lookup j := by
  simp [job, h]

theorem balance_insert (t : Users) (u x : Address) (info : UserInfo) :
    balance (Finmap.insert u info t) x = if x = u then info.balance.toNat else t.balance x := by
  unfold balance
  rw [Table.lookup_insert_ite]
  split <;> rfl

theorem credit_insert (t : Users) (u x : Address) (info : UserInfo) :
    credit (Finmap.insert u info t) x = if x = u then info.credit.toNat else t.credit x := by
  unfold credit
  rw [Table.lookup_insert_ite]
  split <;> rfl

theorem job_insert (t : Users) (u x : Address) (info : UserInfo) (j : String) :
    job (Finmap.insert u info t) x j = if x = u then info.jobs.lookup j else t.job x j := by
  unfold job
  rw [Table.lookup_insert_ite]
  split <;> rfl

end Users

/-! ## Observing the world -/

namespace World

def users (w : World) : Users := (w.network.map GlobalData.users).getD ∅
def workers (w : World) : Table String Address := (w.network.map GlobalData.workers).getD ∅
def creditRequests (w : World) : Table UInt64 CreditRequest :=
  (w.network.map GlobalData.creditRequests).getD ∅

def registered (w : World) (u : Address) : Prop := u ∈ w.users
def balance (w : World) (u : Address) : ℕ := w.users.balance u
def credit (w : World) (u : Address) : ℕ := w.users.credit u
def job (w : World) (u : Address) (j : String) : Option Job := w.users.job u j
def workerOwner (w : World) (id : String) : Option Address := w.workers.lookup id
def creditRequest (w : World) (r : UInt64) : Option CreditRequest := w.creditRequests.lookup r

def operators (w : World) : List Address := (w.config.map Config.operators).getD []
def adminPubkey (w : World) : List UInt8 := (w.config.map Config.adminPubkey).getD []
def percentage (w : World) : ℕ := (w.config.map (·.workerEarningPercentage.toNat)).getD 0
def vault (w : World) : Table Token Store := (w.config.map Config.vault).getD ∅

instance (w : World) (u : Address) : Decidable (w.registered u) :=
  inferInstanceAs (Decidable (u ∈ w.users))

theorem registered_iff {w : World} {u : Address} :
    w.registered u ↔ ∃ info, w.users.lookup u = some info :=
  Finmap.mem_iff

theorem registered_iff_mem_keys {w : World} {u : Address} :
    w.registered u ↔ u ∈ w.users.keys :=
  Finmap.mem_keys.symm

theorem registered_of_job {w : World} {u : Address} {j : String} {job : Job}
    (h : w.job u j = some job) : w.registered u := by
  unfold World.job Users.job at h
  obtain ⟨info, hinfo, -⟩ := Option.bind_eq_some_iff.mp h
  exact registered_iff.mpr ⟨info, hinfo⟩

/-- Somebody is registered only if the network module has been initialised. -/
theorem exists_network {w : World} {u : Address} (h : w.registered u) :
    ∃ g, w.network = some g := by
  cases hn : w.network with
  | some g => exact ⟨g, rfl⟩
  | none =>
    rw [registered, users, hn] at h
    exact absurd h (Finmap.notMem_empty)

theorem network_isSome {w : World} {u : Address} (h : w.registered u) : w.network.isSome :=
  Option.isSome_iff_exists.mpr (exists_network h)

theorem exists_config {w : World} {a : Address} (h : a ∈ w.operators) : ∃ c, w.config = some c := by
  cases hc : w.config with
  | some c => exact ⟨c, rfl⟩
  | none =>
    rw [operators, hc] at h
    cases h

/-- The user table is determined by what is observed of it. -/
theorem users_ext {w w' : World} (hr : ∀ u, w.registered u ↔ w'.registered u)
    (hb : ∀ u, w.balance u = w'.balance u) (hc : ∀ u, w.credit u = w'.credit u)
    (hj : ∀ u j, w.job u j = w'.job u j) : w.users = w'.users := by
  apply Finmap.ext_lookup
  intro u
  cases h : w.users.lookup u with
  | none =>
    have hn : ¬ w'.registered u := fun h' => Finmap.lookup_eq_none.mp h ((hr u).mpr h')
    exact (Finmap.lookup_eq_none.mpr hn).symm
  | some info =>
    obtain ⟨info', h'⟩ := registered_iff.mp ((hr u).mp (registered_iff.mpr ⟨info, h⟩))
    have hbal : info.balance = info'.balance := by
      have := hb u
      rw [balance, balance, Users.balance_of_lookup h, Users.balance_of_lookup h'] at this
      exact UInt64.toNat_inj.mp this
    have hcred : info.credit = info'.credit := by
      have := hc u
      rw [credit, credit, Users.credit_of_lookup h, Users.credit_of_lookup h'] at this
      exact UInt64.toNat_inj.mp this
    have hjobs : info.jobs = info'.jobs := by
      apply Finmap.ext_lookup
      intro j
      have := hj u j
      rwa [job, job, Users.job_of_lookup h, Users.job_of_lookup h'] at this
    rw [h']
    cases info
    cases info'
    simp_all

end World

end Pictor
