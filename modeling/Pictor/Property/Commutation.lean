import Pictor.Property.Backing
import Pictor.Property.Registry

/-!
# Order independence

Two calls that name different users commute, if they succeed in both orders, although the state they
touch is not disjoint: a settlement pays whoever owns the workers, the user the other call names
among them. What makes it work is that a settlement only *adds* to balances, and that nothing the
amounts of a call depend on is changed by the other: the credit of its own user, her jobs, and
the owners of workers that exist. The tokens that are moved are another matter: what a token's own
functions do may depend on what is in the vault.
-/

namespace Pictor

variable {env : Env} {P : Token} {treasury : Address} {w w₁ w₂ w₁₂ w₂₁ : World} {t₁ t₂ : Action}

/-- The worker id an action registers. -/
def registeredWorker : Action → Option String
  | .txn _ (.registerWorker id) => some id
  | .txn _ (.opRegisterWorker _ id) => some id
  | _ => none

/-- The request id an action claims. -/
def claimedRequest : Action → Option UInt64
  | .txn _ (.claimCredit _ r _) => some r
  | _ => none

/-- Two calls of `pictor_network` that name different users, and different worker ids or request ids
where both name one. The calls that name a user are all but `initialize`. -/
structure Unrelated (t₁ t₂ : Action) : Prop where
  users : ∃ u₁ u₂, subject t₁ = some u₁ ∧ subject t₂ = some u₂ ∧ u₁ ≠ u₂
  workers : ∀ id, registeredWorker t₁ = some id → registeredWorker t₂ ≠ some id
  requests : ∀ r, claimedRequest t₁ = some r → claimedRequest t₂ ≠ some r

theorem Unrelated.symm (h : Unrelated t₁ t₂) : Unrelated t₂ t₁ where
  users := by
    obtain ⟨u₁, u₂, h₁, h₂, hne⟩ := h.users
    exact ⟨u₂, u₁, h₂, h₁, hne.symm⟩
  workers := fun id h₂ h₁ => h.workers id h₁ h₂
  requests := fun r h₂ h₁ => h.requests r h₁ h₂

/-- Settlements of two users' jobs, whoever owns the workers. -/
theorem unrelated_opCompleteJob {a₁ a₂ u₁ u₂ : Address} {j₁ j₂ : String} (h : u₁ ≠ u₂) :
    Unrelated (.txn a₁ (.opCompleteJob u₁ j₁)) (.txn a₂ (.opCompleteJob u₂ j₂)) where
  users := ⟨u₁, u₂, rfl, rfl, h⟩
  workers := by
    intro id hid
    cases hid
  requests := by
    intro r hr
    cases hr

/-- At most one of the two calls names `x`. -/
theorem Unrelated.subject_ne (h : Unrelated t₁ t₂) (x : Address) :
    subject t₁ ≠ some x ∨ subject t₂ ≠ some x := by
  obtain ⟨u₁, u₂, h₁, h₂, hne⟩ := h.users
  rw [h₁, h₂]
  by_cases hx : u₁ = x
  · right
    rintro heq
    exact hne (hx.trans (Option.some.inj heq).symm)
  · left
    rintro heq
    exact hx (Option.some.inj heq)

/-- The states agree in all that the contract keeps. -/
structure SameTables (w w' : World) : Prop where
  users : w.users = w'.users
  workers : w.workers = w'.workers
  creditRequests : w.creditRequests = w'.creditRequests
  config : w.config = w'.config

/-- They agree in all balances of tokens, of the vault and of every wallet. -/
def SameBalances (w w' : World) : Prop := ∀ s, units w.stores s = units w'.stores s

/-! ## What the other call leaves alone -/

theorem configAfter_of_subject {act : Action} {u : Address} (h : subject act = some u)
    (c : Option Config) : configAfter env act c = c := by
  unfold configAfter
  split
  · cases h
  · cases h
  · cases h
  · cases h
  · rfl

/-- **The quantities of a call are the same before and after an unrelated one.** -/
theorem quantities_stable (hu : Unrelated t₁ t₂) (h₁ : exec env w t₁ = .ok w₁)
    (h₂ : Accepted env w t₂) (x : Address) :
    creditOut x w₁ t₂ = creditOut x w t₂ ∧ balanceOut x w₁ t₂ = balanceOut x w t₂ ∧
      balanceIn x w₁ t₂ = balanceIn x w t₂ := by
  have he := exec_effect h₁
  have hconfig : w₁.config = w.config := by
    obtain ⟨u₁, -, hu₁, -⟩ := hu.users
    rw [he.config, configAfter_of_subject hu₁]
  -- the other call leaves the named user's credit and jobs alone
  have hcredit : ∀ u, subject t₂ = some u → w₁.credit u = w.credit u := by
    intro u hu₂
    have hne : subject t₁ ≠ some u := (hu.subject_ne u).resolve_right (not_not.mpr hu₂)
    obtain ⟨hin, hout⟩ := credit_frame hne w
    have hc := he.credit u
    rwa [hin, hout] at hc
  have hjob : ∀ u j, subject t₂ = some u → w₁.job u j = w.job u j := by
    intro u j hu₂
    have hne : subject t₁ ≠ some u := (hu.subject_ne u).resolve_right (not_not.mpr hu₂)
    rw [he.job, jobAfter_frame hne]
  cases t₂ with
  | outside l' => exact ⟨rfl, rfl, rfl⟩
  | txn a call =>
    cases call with
    | opAddTask u j taskId id cost duration =>
      simp only [creditOut, balanceOut, balanceIn, opDebited, withdrawn, chargedToCredit,
        chargedToBalance, paid]
      by_cases hx : u = x
      · subst hx
        rw [hcredit u rfl]
        exact ⟨rfl, rfl, trivial⟩
      · simp only [if_neg hx]
        exact ⟨trivial, trivial, trivial⟩
    | opCompleteJob u j =>
      obtain ⟨-, job, hold, howned⟩ := h₂
      refine ⟨rfl, rfl, ?_⟩
      simp only [balanceIn, paid]
      rw [hjob u j rfl, hold]
      have hp : w₁.percentage = w.percentage := by
        rw [World.percentage, World.percentage, hconfig]
      exact (exec_extends h₁).earnings hp x howned
    | _ => exact ⟨rfl, rfl, rfl⟩

/-! ## Both orders -/

/-- Adding two entries to a registry, if at most one of them is there. -/
theorem or_or_comm {α : Type} {o n₁ n₂ : Option α} (h : n₁ = none ∨ n₂ = none) :
    (o.or n₁).or n₂ = (o.or n₂).or n₁ := by
  rcases h with rfl | rfl
  · rw [Option.or_none, Option.or_none]
  · rw [Option.or_none, Option.or_none]

theorem newWorker_eq_none {act : Action} {id : String} (h : registeredWorker act ≠ some id) :
    newWorker act id = none := by
  unfold newWorker
  split
  · exact if_neg fun heq => h (by rw [heq]; rfl)
  · exact if_neg fun heq => h (by rw [heq]; rfl)
  · rfl

theorem newRequest_eq_none {act : Action} {r : UInt64} (h : claimedRequest act ≠ some r) :
    newRequest act r = none := by
  unfold newRequest
  split
  · exact if_neg fun heq => h (by rw [heq]; rfl)
  · rfl

section Both

variable (hu : Unrelated t₁ t₂) (h₁ : exec env w t₁ = .ok w₁) (h₁₂ : exec env w₁ t₂ = .ok w₁₂)
  (h₂ : exec env w t₂ = .ok w₂) (h₂₁ : exec env w₂ t₁ = .ok w₂₁)

include hu h₁ h₁₂ h₂ h₂₁

theorem users_commute : w₁₂.users = w₂₁.users := by
  have e₁ := exec_effect h₁
  have e₁₂ := exec_effect h₁₂
  have e₂ := exec_effect h₂
  have e₂₁ := exec_effect h₂₁
  apply World.users_ext
  · intro x
    rw [e₁₂.registered, e₁.registered, e₂₁.registered, e₂.registered, or_right_comm]
  · intro x
    -- each call moves the same amounts second as it does first, so the sums agree
    obtain ⟨-, hout₂, hin₂⟩ := quantities_stable hu h₁ (exec_accepted h₂) x
    obtain ⟨-, hout₁, hin₁⟩ := quantities_stable hu.symm h₂ (exec_accepted h₁) x
    have b₁ := e₁.balance x
    have b₁₂ := e₁₂.balance x
    have b₂ := e₂.balance x
    have b₂₁ := e₂₁.balance x
    omega
  · intro x
    obtain ⟨hout₂, -⟩ := quantities_stable hu h₁ (exec_accepted h₂) x
    obtain ⟨hout₁, -⟩ := quantities_stable hu.symm h₂ (exec_accepted h₁) x
    have hin₂ : creditIn x w₁ t₂ = creditIn x w t₂ := rfl
    have hin₁ : creditIn x w₂ t₁ = creditIn x w t₁ := rfl
    have c₁ := e₁.credit x
    have c₁₂ := e₁₂.credit x
    have c₂ := e₂.credit x
    have c₂₁ := e₂₁.credit x
    omega
  · intro x k
    rw [e₁₂.job, e₁.job, e₂₁.job, e₂.job]
    -- at most one of the calls touches this job
    rcases hu.subject_ne x with hne | hne
    · rw [jobAfter_frame hne, jobAfter_frame hne]
    · rw [jobAfter_frame hne, jobAfter_frame hne]

/-- The contract's own state, whatever the tokens do. -/
theorem tables_commute : SameTables w₁₂ w₂₁ := by
  have e₁ := exec_effect h₁
  have e₁₂ := exec_effect h₁₂
  have e₂ := exec_effect h₂
  have e₂₁ := exec_effect h₂₁
  constructor
  case users => exact users_commute hu h₁ h₁₂ h₂ h₂₁
  case workers =>
    apply Finmap.ext_lookup
    intro id
    show w₁₂.workerOwner id = w₂₁.workerOwner id
    rw [e₁₂.workerOwner, e₁.workerOwner, e₂₁.workerOwner, e₂.workerOwner]
    apply or_or_comm
    by_cases hid : registeredWorker t₁ = some id
    · exact .inr (newWorker_eq_none (hu.workers id hid))
    · exact .inl (newWorker_eq_none hid)
  case creditRequests =>
    apply Finmap.ext_lookup
    intro r
    show w₁₂.creditRequest r = w₂₁.creditRequest r
    rw [e₁₂.creditRequest, e₁.creditRequest, e₂₁.creditRequest, e₂.creditRequest]
    apply or_or_comm
    by_cases hr : claimedRequest t₁ = some r
    · exact .inr (newRequest_eq_none (hu.requests r hr))
    · exact .inl (newRequest_eq_none hr)
  case config =>
    obtain ⟨u₁, u₂, hu₁, hu₂, -⟩ := hu.users
    rw [e₁₂.config, e₁.config, e₂₁.config, e₂.config]
    simp only [configAfter_of_subject hu₁, configAfter_of_subject hu₂]

/-- Both are transactions, and what they move does not depend on the state. -/
theorem balances_commute (hx : MovesExact env P) (hc : Configured env P treasury w) :
    SameBalances w₁₂ w₂₁ := by
  intro s
  have hc₁ := configured_preserved env P treasury _ _ _ hc h₁
  have hc₂ := configured_preserved env P treasury _ _ _ hc h₂
  obtain ⟨u₁, u₂, hu₁, hu₂, -⟩ := hu.users
  cases t₁ with
  | outside l' => cases hu₁
  | txn a₁ call₁ =>
    cases t₂ with
    | outside l' => cases hu₂
    | txn a₂ call₂ =>
      have f₁ := exec_tokens hx hc h₁ s
      have f₁₂ := exec_tokens hx hc₁ h₁₂ s
      have f₂ := exec_tokens hx hc h₂ s
      have f₂₁ := exec_tokens hx hc₂ h₂₁ s
      omega

/-- **Unrelated calls commute**: the tables agree for any payment token, and the balances of vault
and wallets for one that moves exact amounts. -/
theorem unrelated_commute (hw : Reachable env P w) :
    SameTables w₁₂ w₂₁ ∧ (MovesExact env P → SameBalances w₁₂ w₂₁) := by
  refine ⟨tables_commute hu h₁ h₁₂ h₂ h₂₁, fun hx => ?_⟩
  obtain ⟨treasury, pk, w₀, as, h₀, rfl⟩ := hw
  exact balances_commute hu h₁ h₁₂ h₂ h₂₁ hx (configured_run h₀ as)

end Both

/-- Two users' jobs, whose tasks are done by a worker of a third. -/
def twoJobs : List Action :=
  [.txn 0xcafe (.addOperator 0xdad), .txn 0xdad (.opRegisterWorker 0xdead "worker"),
    .txn 0xdad (.opCreateJob 0xa "job"), .txn 0xdad (.opCreditUser 0xa 100),
    .txn 0xdad (.opAddTask 0xa "job" 1 "worker" 100 1),
    .txn 0xdad (.opCreateJob 0xb "job"), .txn 0xdad (.opCreditUser 0xb 50),
    .txn 0xdad (.opAddTask 0xb "job" 1 "worker" 50 1)]

/-- The state after the jobs of these users have been settled, in this order. -/
def afterJobs (users : List Address) : World :=
  run testEnv testWorld (twoJobs ++ users.map fun u => .txn 0xdad (.opCompleteJob u "job"))

theorem unrelated_commute_test :
    SameTables (afterJobs [0xa, 0xb]) (afterJobs [0xb, 0xa]) ∧
      SameBalances (afterJobs [0xa, 0xb]) (afterJobs [0xb, 0xa]) := by
  have hu : Unrelated (.txn 0xdad (.opCompleteJob 0xa "job"))
      (.txn 0xdad (.opCompleteJob 0xb "job")) := unrelated_opCompleteJob (by decide)
  have h₁ : exec testEnv (afterJobs []) (.txn 0xdad (.opCompleteJob 0xa "job")) =
      .ok (afterJobs [0xa]) := by decide
  have h₁₂ : exec testEnv (afterJobs [0xa]) (.txn 0xdad (.opCompleteJob 0xb "job")) =
      .ok (afterJobs [0xa, 0xb]) := by decide
  have h₂ : exec testEnv (afterJobs []) (.txn 0xdad (.opCompleteJob 0xb "job")) =
      .ok (afterJobs [0xb]) := by decide
  have h₂₁ : exec testEnv (afterJobs [0xb]) (.txn 0xdad (.opCompleteJob 0xa "job")) =
      .ok (afterJobs [0xb, 0xa]) := by decide
  have hcommute := unrelated_commute hu h₁ h₁₂ h₂ h₂₁
    (testWorld_reachable twoJobs)
  exact ⟨hcommute.1, hcommute.2 testEnv_movesExact⟩

/-- A deposit function that takes its fee from deposits into stores that hold little. -/
def tieredDeposit (l : Stores) (s : Store) (fa : FungibleAsset) : Result Stores :=
  if FungibleAsset.balance l s < 50 then feeDeposit l s fa
  else FungibleAsset.depositInternal l s fa

def tieredEnv : Env := { testEnv with dispatch := fun _ => ⟨none, some tieredDeposit⟩ }

/-- Two users have been minted 1000 each. -/
def twoWallets : Stores :=
  Finmap.insert (PrimaryFungibleStore.primaryStore 0xbeef usdt) ⟨1000, false⟩ testStores

/-- The state after these users have made a deposit, in this order. -/
def afterDeposits (deposits : List (Address × UInt64)) : World :=
  run tieredEnv (initialWorld tieredEnv twoWallets usdt 0xcafe testAdminPubkey)
    (deposits.map fun d => .txn d.1 (.deposit d.2 usdt))

/-- **Two users' deposits need not commute**: of 100 and 50 the vault receives 140 or 135. -/
theorem deposits_differ :
    Reachable tieredEnv usdt (afterDeposits []) ∧
    Unrelated (.txn 0xdead (.deposit 100 usdt)) (.txn 0xbeef (.deposit 50 usdt)) ∧
    exec tieredEnv (afterDeposits []) (.txn 0xdead (.deposit 100 usdt)) =
      .ok (afterDeposits [(0xdead, 100)]) ∧
    exec tieredEnv (afterDeposits [(0xdead, 100)]) (.txn 0xbeef (.deposit 50 usdt)) =
      .ok (afterDeposits [(0xdead, 100), (0xbeef, 50)]) ∧
    exec tieredEnv (afterDeposits []) (.txn 0xbeef (.deposit 50 usdt)) =
      .ok (afterDeposits [(0xbeef, 50)]) ∧
    exec tieredEnv (afterDeposits [(0xbeef, 50)]) (.txn 0xdead (.deposit 100 usdt)) =
      .ok (afterDeposits [(0xbeef, 50), (0xdead, 100)]) ∧
    (afterDeposits [(0xdead, 100), (0xbeef, 50)]).vaultUnits tieredEnv usdt = 140 ∧
    (afterDeposits [(0xbeef, 50), (0xdead, 100)]).vaultUnits tieredEnv usdt = 135 ∧
    ¬ SameBalances (afterDeposits [(0xdead, 100), (0xbeef, 50)])
      (afterDeposits [(0xbeef, 50), (0xdead, 100)]) := by
  have hinit : JustInitialised tieredEnv usdt 0xcafe testAdminPubkey (afterDeposits []) :=
    justInitialised_iff.mpr ⟨twoWallets, by decide, rfl⟩
  have hunrelated :
      Unrelated (.txn 0xdead (.deposit 100 usdt)) (.txn 0xbeef (.deposit 50 usdt)) := by
    refine ⟨⟨0xdead, 0xbeef, rfl, rfl, by decide⟩, fun id hid => ?_, fun r hr => ?_⟩
    · cases hid
    · cases hr
  have h₁₂ : (afterDeposits [(0xdead, 100), (0xbeef, 50)]).vaultUnits tieredEnv usdt = 140 := by
    decide
  have h₂₁ : (afterDeposits [(0xbeef, 50), (0xdead, 100)]).vaultUnits tieredEnv usdt = 135 := by
    decide
  refine ⟨⟨0xcafe, testAdminPubkey, _, [], hinit, rfl⟩, hunrelated, by decide, by decide, by decide,
    by decide, h₁₂, h₂₁, fun hsame => ?_⟩
  have hvault := hsame (PictorConfig.vaultStore tieredEnv usdt)
  rw [World.vaultUnits] at h₁₂ h₂₁
  rw [h₁₂, h₂₁] at hvault
  cases hvault

end Pictor
