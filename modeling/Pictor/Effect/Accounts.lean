import Pictor.Effect.Spec

/-!
# Writing to the account tables

Every entry function but the settlement loop ends in one write to the user table, and perhaps one
to the workers or the credit requests. `setUser` is that write as an operation on worlds, and
`account` the record it changes; the rest of the file inverts the helpers of `pictor_network` into
them.
-/

namespace Pictor

namespace World

/-- The record of `u`, or the one registration would give her. -/
def account (w : World) (u : Address) : UserInfo := (w.users.lookup u).getD PictorNetwork.newUser

/-- Write the record of `u`. -/
def setUser (w : World) (u : Address) (info : UserInfo) : World :=
  { w with network := some ⟨w.workers, w.users.insert u info, w.creditRequests⟩ }

variable (w : World) (u : Address) (info : UserInfo)

@[simp] theorem users_setUser : (w.setUser u info).users = w.users.insert u info := rfl

theorem setUser_setUser (info' : UserInfo) :
    (w.setUser u info).setUser u info' = w.setUser u info' := by
  simp [setUser, users, workers, creditRequests]

theorem balance_account : (w.account u).balance.toNat = w.balance u := by
  unfold account balance Users.balance
  cases w.users.lookup u <;> rfl

theorem credit_account : (w.account u).credit.toNat = w.credit u := by
  unfold account credit Users.credit
  cases w.users.lookup u <;> rfl

/-- A recorded balance is a `u64`. -/
theorem balance_lt : w.balance u < 2 ^ 64 := by
  rw [← balance_account]
  exact UInt64.toNat_lt _

theorem jobs_account (k : String) : (w.account u).jobs.lookup k = w.job u k := by
  unfold account job Users.job
  cases w.users.lookup u <;> rfl

theorem account_of_lookup {w : World} {u : Address} {info : UserInfo}
    (h : w.users.lookup u = some info) : w.account u = info := by
  simp [account, h]

/-- Writing back what is there changes nothing. -/
theorem setUser_account {w : World} {u : Address} {info : UserInfo} (hn : w.network.isSome)
    (h : w.users.lookup u = some info) : w.setUser u info = w := by
  obtain ⟨g, hg⟩ := Option.isSome_iff_exists.mp hn
  have hins : Finmap.insert u info w.users = w.users := by
    apply Finmap.ext_lookup
    intro x
    rw [Table.lookup_insert_ite]
    split
    · next hx => rw [hx, h]
    · rfl
  unfold setUser
  rw [hins]
  obtain ⟨c, n, l⟩ := w
  subst hg
  rfl

end World

namespace PictorNetwork

open World

variable {w w' : World} {u : Address}

theorem globalData_eq_ok {g : GlobalData} : globalData w = .ok g ↔ w.network = some g :=
  Checked.getOrAbort_eq_ok

theorem withGlobal_users {g : GlobalData} (h : w.network = some g) (users : Users) :
    withGlobal w { g with users } =
      { w with network := some ⟨w.workers, users, w.creditRequests⟩ } := by
  simp [withGlobal, workers, creditRequests, h]

theorem userInfo_eq_ok {info : UserInfo} :
    userInfo w u = .ok info ↔ w.network.isSome ∧ w.users.lookup u = some info := by
  simp only [userInfo, Checked.bind_eq_ok, globalData_eq_ok, Table.borrow_eq_ok]
  constructor
  · rintro ⟨g, hg, h⟩
    simpa [World.users, hg] using h
  · rintro ⟨hn, h⟩
    obtain ⟨g, hg⟩ := Option.isSome_iff_exists.mp hn
    exact ⟨g, hg, by simpa [World.users, hg] using h⟩

theorem withUserInfo_eq_ok {info : UserInfo} :
    withUserInfo w u info = .ok w' ↔ w.network.isSome ∧ w.setUser u info = w' := by
  simp only [withUserInfo, Checked.bind_eq_ok, globalData_eq_ok, Checked.pure_eq_ok]
  constructor
  · rintro ⟨g, hg, rfl⟩
    exact ⟨by simp [hg], by simp [setUser, withGlobal, World.users, workers, creditRequests, hg]⟩
  · rintro ⟨hn, rfl⟩
    obtain ⟨g, hg⟩ := Option.isSome_iff_exists.mp hn
    exact ⟨g, hg, by simp [setUser, withGlobal, World.users, workers, creditRequests, hg]⟩

/-- **Registration** is writing the account back: a no-op if there is one, a fresh record if not. -/
theorem registerUserInternal_eq_ok :
    registerUserInternal w u = .ok w' ↔ w.network.isSome ∧ w.setUser u (w.account u) = w' := by
  cases hg : w.network with
  | none => simp [registerUserInternal, globalData, hg, Checked.getOrAbort]
  | some g =>
    have husers : w.users = g.users := by simp [World.users, hg]
    simp only [registerUserInternal, globalData, hg, Checked.getOrAbort, Checked.ok_bind,
      Option.isSome_some, true_and]
    cases hc : g.users.contains u with
    | true =>
      obtain ⟨info, hinfo⟩ := Table.contains_eq_true.mp hc
      rw [← husers] at hinfo
      rw [account_of_lookup hinfo, setUser_account (by simp [hg]) hinfo]
      simp
    | false =>
      have hnone := Table.contains_eq_false.mp hc
      simp only [Bool.false_eq_true, not_false_eq_true, if_true, Checked.bind_eq_ok,
        Table.add_eq_ok, Checked.pure_eq_ok, hnone, true_and, exists_eq_left]
      rw [withGlobal_users hg, ← husers]
      simp [setUser, account, husers, hnone]

theorem assertIsOperator_eq_ok {a : Address} {x : Unit} :
    assertIsOperator w a = .ok x ↔ a ∈ w.operators := by
  rw [← PictorConfig.isOperator_eq_true]
  simp [assertIsOperator]

theorem isRegistered_eq_ok {b : Bool} :
    isRegistered w u = .ok b ↔ w.network.isSome ∧ (b = true ↔ w.registered u) := by
  simp only [isRegistered, Checked.bind_eq_ok, globalData_eq_ok, Checked.pure_eq_ok]
  have hread : ∀ g, w.network = some g → (g.users.contains u = true ↔ w.registered u) := by
    intro g hg
    rw [Table.contains_eq_true, registered_iff]
    simp [World.users, hg]
  constructor
  · rintro ⟨g, hg, rfl⟩
    exact ⟨by simp [hg], hread g hg⟩
  · rintro ⟨hn, hb⟩
    obtain ⟨g, hg⟩ := Option.isSome_iff_exists.mp hn
    exact ⟨g, hg, Bool.eq_iff_iff.mpr ((hread g hg).trans hb.symm)⟩

theorem assertUserRegistered_eq_ok {x : Unit} :
    assertUserRegistered w u = .ok x ↔ w.network.isSome ∧ w.registered u := by
  simp only [assertUserRegistered, Checked.bind_eq_ok, isRegistered_eq_ok, Checked.require_eq_ok]
  constructor
  · rintro ⟨b, ⟨hn, hb⟩, htrue⟩
    exact ⟨hn, hb.mp htrue⟩
  · rintro ⟨hn, hr⟩
    exact ⟨true, ⟨hn, iff_of_true rfl hr⟩, rfl⟩

/-- `balance` and `credit` are what `get_user_balance` reports, of users and of others. -/
theorem getUserBalance_eq_ok {b c : UInt64} :
    getUserBalance w u = .ok (b, c) ↔
      w.network.isSome ∧ b.toNat = w.balance u ∧ c.toNat = w.credit u := by
  rw [← balance_account, ← credit_account, UInt64.toNat_inj, UInt64.toNat_inj]
  simp only [getUserBalance, Checked.bind_eq_ok, isRegistered_eq_ok]
  cases h : w.users.lookup u with
  | some info =>
    have hr : w.registered u := registered_iff.mpr ⟨info, h⟩
    have hn := network_isSome hr
    have hread : userInfo w u = .ok info := userInfo_eq_ok.mpr ⟨hn, h⟩
    simp [hr, hn, hread, account_of_lookup h, @eq_comm _ b, @eq_comm _ c]
  | none =>
    have hr : ¬ w.registered u := Finmap.lookup_eq_none.mp h
    simp [hr, h, account, newUser, @eq_comm _ b, @eq_comm _ c]

theorem assertJobCreated_eq_ok {j : String} {x : Unit} :
    assertJobCreated w u j = .ok x ↔ w.network.isSome ∧ ∃ job, w.job u j = some job := by
  simp only [assertJobCreated, Checked.bind_eq_ok, userInfo_eq_ok, Checked.require_eq_ok,
    Table.contains_eq_true, World.job, Users.job, Option.bind_eq_some_iff]
  constructor
  · rintro ⟨info, ⟨hn, hinfo⟩, job, hjob⟩
    exact ⟨hn, job, info, hinfo, hjob⟩
  · rintro ⟨hn, job, info, hinfo, hjob⟩
    exact ⟨info, ⟨hn, hinfo⟩, job, hjob⟩

/-- A job that exists is read through the record of its user. -/
theorem exists_userInfo {j : String} {job : Job} (hjob : w.job u j = some job) :
    ∃ info, w.users.lookup u = some info ∧ info.jobs.lookup j = some job ∧
      userInfo w u = .ok info ∧ assertJobCreated w u j = .ok () := by
  obtain ⟨info, hinfo, hjob'⟩ := Option.bind_eq_some_iff.mp hjob
  have hn := network_isSome (registered_of_job hjob)
  exact ⟨info, hinfo, hjob', userInfo_eq_ok.mpr ⟨hn, hinfo⟩,
    assertJobCreated_eq_ok.mpr ⟨hn, job, hjob⟩⟩

/-- After registration the account can be borrowed. -/
theorem userInfo_registered {info info' : UserInfo} :
    userInfo (w.setUser u info) u = .ok info' ↔ info = info' := by
  rw [userInfo_eq_ok, users_setUser, Finmap.lookup_insert]
  simp [setUser]

end PictorNetwork

end Pictor
