import Pictor.Property.Registry

/-!
# Deployment

The two modules are initialised by two transactions, in either order, and between them anybody may
call what already works: without the network module, the calls that only touch the configuration;
without the configuration, the registrations. None of this is lost, and none of it matters: the
calls made too early are the same calls made right after, so wherever a deployment ends, the state
is `Reachable` from one in which both modules have just been initialised.
-/

namespace Pictor

variable {env : Env} {w w' : World}

namespace World

/-- The same configuration and stores, next to another network resource. -/
def withNetwork (w : World) (n : Option GlobalData) : World := { w with network := n }

/-- The same network resource, next to another configuration and other stores. -/
def relocate (w : World) (c : Option Config) (l : Stores) : World := ⟨c, w.network, l⟩

end World

/-! ## What a call does not look at -/

section Network

variable (n : Option GlobalData)

theorem addOperator_withNetwork (a x : Address) :
    (PictorConfig.addOperator env w a x).map (·.withNetwork n) =
      PictorConfig.addOperator env (w.withNetwork n) a x := by
  refine Checked.refine_bind fun c _ => ?_
  refine Checked.refine_require Iff.rfl fun _ => ?_
  split <;> rfl

theorem removeOperator_withNetwork (a x : Address) :
    (PictorConfig.removeOperator env w a x).map (·.withNetwork n) =
      PictorConfig.removeOperator env (w.withNetwork n) a x := by
  refine Checked.refine_bind fun c _ => ?_
  refine Checked.refine_require Iff.rfl fun _ => ?_
  generalize MoveVector.indexOf c.operators x = found
  obtain ⟨found, index⟩ := found
  cases found with
  | true => exact Checked.refine_bind fun _ _ => rfl
  | false => rfl

theorem setAdminPubkey_withNetwork (a : Address) (pk : List UInt8) :
    (PictorConfig.setAdminPubkey env w a pk).map (·.withNetwork n) =
      PictorConfig.setAdminPubkey env (w.withNetwork n) a pk :=
  Checked.refine_require Iff.rfl fun _ => Checked.refine_bind fun _ _ => rfl

theorem withdrawToTreasury_withNetwork (a : Address) (amount : UInt64) (token : Token) :
    (PictorConfig.withdrawToTreasury env w a amount token).map (·.withNetwork n) =
      PictorConfig.withdrawToTreasury env (w.withNetwork n) a amount token := by
  refine Checked.refine_bind fun b _ => ?_
  refine Checked.refine_require Iff.rfl fun _ => ?_
  refine Checked.refine_bind fun _ _ => ?_
  refine Checked.refine_bind fun s _ => ?_
  refine Checked.refine_bind fun taken _ => ?_
  obtain ⟨fa, l⟩ := taken
  refine Checked.refine_bind fun treasury _ => ?_
  exact Checked.refine_bind fun l' _ => rfl

end Network

section Relocate

variable (c : Option Config) (l : Stores)

theorem registerUserInternal_relocate (u : Address) :
    (PictorNetwork.registerUserInternal w u).map (·.relocate c l) =
      PictorNetwork.registerUserInternal (w.relocate c l) u := by
  refine Checked.refine_bind fun g _ => ?_
  split
  · exact Checked.refine_bind fun users _ => rfl
  · rfl

theorem registerWorkerInternal_relocate (u : Address) (id : String) :
    (PictorNetwork.registerWorkerInternal w u id).map (·.relocate c l) =
      PictorNetwork.registerWorkerInternal (w.relocate c l) u id := by
  refine Checked.refine_map (registerUserInternal_relocate c l u) fun w' _ => ?_
  refine Checked.refine_bind fun g _ => ?_
  split
  · exact Checked.refine_bind fun workers _ => rfl
  · rfl

end Relocate

/-! ## Half deployed -/

theorem initializeConfig_eq_ok {a : Address} {token : Token} {treasury : Address}
    {pk : List UInt8} (h : exec env w (.txn a (.initializeConfig token treasury pk)) = .ok w') :
    w.stores.lookup (PictorConfig.vaultStore env token) = none ∧
      w' = ⟨some (initialConfig env token treasury pk), w.network,
        Finmap.insert (PictorConfig.vaultStore env token) ⟨0, false⟩ w.stores⟩ := by
  simp only [exec, execCall, PictorConfig.initializeConfig, Checked.bind_eq_ok,
    Checked.require_eq_ok, FungibleAsset.createStore, Table.add_eq_ok, Checked.pure_eq_ok,
    exists_const] at h
  obtain ⟨-, -, l, ⟨hfresh, rfl⟩, vault, ⟨-, rfl⟩, rfl⟩ := h
  exact ⟨hfresh, rfl⟩

theorem initializeNetwork_eq_ok {a : Address}
    (h : exec env w (.txn a .initializeNetwork) = .ok w') :
    w' = w.withNetwork (some initialGlobal) := by
  simp only [exec, execCall, PictorNetwork.initializeNetwork, Checked.bind_eq_ok,
    Checked.require_eq_ok, Checked.pure_eq_ok, exists_const] at h
  obtain ⟨-, -, rfl⟩ := h
  rfl

/-- A step seen through a map of worlds. -/
theorem ok_of_map {f : World → World} {x y : Result World} (h : x.map f = y) (hx : x = .ok w') :
    y = .ok (f w') := by
  subst hx
  exact h.symm

/-- **Without the network module** only the configuration can be worked on, and a network resource
beside it makes no difference. -/
theorem exec_without_network {act : Action} (hn : w.network = none)
    (h : exec env w act = .ok w') :
    (∃ a, act = .txn a .initializeNetwork) ∨
    (∃ a token treasury pk, act = .txn a (.initializeConfig token treasury pk)) ∨
    w'.network = none ∧ ∀ n, exec env (w.withNetwork n) act = .ok (w'.withNetwork n) := by
  obtain ⟨config, network, stores⟩ := w
  cases hn
  cases act with
  | outside l' =>
    simp only [exec] at h
    split at h
    · next hkept =>
      cases h
      exact .inr (.inr ⟨rfl, fun n => if_pos hkept⟩)
    · cases h
  | txn a call =>
    cases call with
    | initializeNetwork => exact .inl ⟨a, rfl⟩
    | initializeConfig token treasury pk => exact .inr (.inl ⟨a, token, treasury, pk, rfl⟩)
    | setAdminPubkey pk =>
      refine .inr (.inr ⟨?_, fun n => ok_of_map (setAdminPubkey_withNetwork n a pk) h⟩)
      simp only [exec, execCall, PictorConfig.setAdminPubkey, Checked.bind_eq_ok,
        Checked.pure_eq_ok] at h
      obtain ⟨-, -, -, -, rfl⟩ := h
      rfl
    | addOperator x =>
      refine .inr (.inr ⟨?_, fun n => ok_of_map (addOperator_withNetwork n a x) h⟩)
      obtain ⟨-, -, -, rfl⟩ := addOperator_eq_ok h
      rfl
    | removeOperator x =>
      refine .inr (.inr ⟨?_, fun n => ok_of_map (removeOperator_withNetwork n a x) h⟩)
      obtain ⟨-, -, -, rfl⟩ := removeOperator_eq_ok h
      rfl
    | withdrawToTreasury amount token =>
      refine .inr (.inr ⟨?_, fun n =>
        ok_of_map (withdrawToTreasury_withNetwork n a amount token) h⟩)
      obtain ⟨-, -, -, -, -, -, -, -, -, -, rfl⟩ := withdrawToTreasury_eq_ok h
      rfl
    | registerUser | registerWorker =>
      -- the flag that is asked for first is down
      cases h
    | opRegisterWorker | opCreateJob | opAddTask | opCompleteJob | opCreditUser | opDebitUser
    | deposit | withdraw | claimCredit =>
      -- no account can be borrowed
      simp [exec, execCall, PictorNetwork.opRegisterWorker, PictorNetwork.registerWorkerInternal,
        PictorNetwork.opCreateJob, PictorNetwork.opAddTask, PictorNetwork.opCompleteJob,
        PictorNetwork.opCreditUser, PictorNetwork.opDebitUser, PictorNetwork.deposit,
        PictorNetwork.withdraw, PictorNetwork.claimCredit,
        PictorNetwork.registerUserInternal_eq_ok, PictorNetwork.assertJobCreated_eq_ok,
        PictorNetwork.assertUserRegistered_eq_ok] at h

/-- **Without the configuration** users and workers can be registered and nothing else, and no
configuration beside them makes a difference. -/
theorem exec_without_config {act : Action} (hc : w.config = none) (h : exec env w act = .ok w') :
    (∃ a, act = .txn a .initializeNetwork) ∨
    (∃ a token treasury pk, act = .txn a (.initializeConfig token treasury pk)) ∨
    (∃ l', w' = { w with stores := l' }) ∨
    (w'.config = none ∧ w'.stores = w.stores ∧
      (∃ a, act = .txn a .registerUser ∨ ∃ id, act = .txn a (.registerWorker id)) ∧
      ∀ c l, exec env (w.relocate c l) act = .ok (w'.relocate c l)) := by
  obtain ⟨config, network, stores⟩ := w
  cases hc
  cases act with
  | outside l' =>
    simp only [exec] at h
    split at h
    · cases h
      exact .inr (.inr (.inl ⟨l', rfl⟩))
    · cases h
  | txn a call =>
    have he := exec_effect h
    have haccepted := exec_accepted h
    cases call with
    | initializeNetwork => exact .inl ⟨a, rfl⟩
    | initializeConfig token treasury pk => exact .inr (.inl ⟨a, token, treasury, pk, rfl⟩)
    | registerUser =>
      refine .inr (.inr (.inr ⟨he.config, he.stores rfl, ⟨a, .inl rfl⟩, fun c l => ?_⟩))
      have hmap : (PictorNetwork.registerUser ⟨none, network, stores⟩ a).map (·.relocate c l) =
          PictorNetwork.registerUser ⟨c, network, l⟩ a :=
        Checked.refine_require Iff.rfl fun _ => registerUserInternal_relocate c l a
      exact ok_of_map hmap h
    | registerWorker id =>
      refine .inr (.inr (.inr ⟨he.config, he.stores rfl, ⟨a, .inr ⟨id, rfl⟩⟩, fun c l => ?_⟩))
      have hmap : (PictorNetwork.registerWorker ⟨none, network, stores⟩ a id).map
          (·.relocate c l) = PictorNetwork.registerWorker ⟨c, network, l⟩ a id :=
        Checked.refine_require Iff.rfl fun _ => registerWorkerInternal_relocate c l a id
      exact ok_of_map hmap h
    | setAdminPubkey =>
      simp [exec, execCall, PictorConfig.setAdminPubkey, PictorConfig.getConfig] at h
    | addOperator =>
      obtain ⟨-, c, hc, -⟩ := addOperator_eq_ok h
      cases hc
    | removeOperator =>
      obtain ⟨-, c, hc, -⟩ := removeOperator_eq_ok h
      cases hc
    | claimCredit =>
      simp [exec, execCall, PictorNetwork.claimCredit, PictorNetwork.registerUserInternal_eq_ok,
        PictorConfig.getAdminPubkey, World.setUser] at h
    | opRegisterWorker | opCreditUser =>
      -- nobody is an operator
      cases (haccepted : a ∈ [])
    | opCreateJob | opAddTask | opCompleteJob | opDebitUser | withdrawToTreasury =>
      cases (haccepted.1 : a ∈ [])
    | deposit amount token =>
      -- no token is accepted
      obtain ⟨s, hs⟩ := haccepted
      cases hs
    | withdraw amount token =>
      obtain ⟨-, s, hs⟩ := haccepted
      cases hs

/-! ## Every deployment -/

/-- How a deployment stands: what is there is what a finished deployment would have. -/
def Deploying (env : Env) (w : World) : Prop :=
  match w.config, w.network with
  | none, none => True
  | some _, none => ∃ P, Reachable env P (w.withNetwork (some initialGlobal))
  | none, some g =>
    ∃ as, ∀ c l, run env ⟨c, some initialGlobal, l⟩ as = ⟨c, some g, l⟩
  | some _, some _ => ∃ P, Reachable env P w

theorem config_isSome_of_exec {act : Action} (h : exec env w act = .ok w')
    (hc : w.config.isSome = true) : w'.config.isSome = true := by
  rw [(exec_effect h).config]
  unfold configAfter
  split <;> simp_all

theorem deploying_preserved (env : Env) : Transactions.Preserved (exec env) (Deploying env) := by
  intro w act w' hw h
  obtain ⟨config, network, stores⟩ := w
  cases config with
  | none =>
    cases network with
    | none =>
      rcases exec_without_network rfl h with ⟨a, rfl⟩ | ⟨a, token, treasury, pk, rfl⟩ | ⟨hn, hany⟩
      · obtain rfl := initializeNetwork_eq_ok h
        exact ⟨[], fun c l => rfl⟩
      · obtain ⟨hfresh, rfl⟩ := initializeConfig_eq_ok h
        exact ⟨token, treasury, pk, _, [], justInitialised_iff.mpr ⟨stores, hfresh, rfl⟩, rfl⟩
      · -- without a configuration, that is an outside action
        rcases exec_without_config rfl h with ⟨a, rfl⟩ | ⟨a, token, treasury, pk, rfl⟩ |
          ⟨l', rfl⟩ | ⟨hc, -, ⟨a, rfl | ⟨id, rfl⟩⟩, -⟩
        · cases (initializeNetwork_eq_ok h) ▸ hn
        · obtain ⟨hfresh, rfl⟩ := initializeConfig_eq_ok h
          exact ⟨token, treasury, pk, _, [], justInitialised_iff.mpr ⟨stores, hfresh, rfl⟩, rfl⟩
        · trivial
        · cases h
        · cases h
    | some g =>
      obtain ⟨as, has⟩ := hw
      rcases exec_without_config rfl h with ⟨a, rfl⟩ | ⟨a, token, treasury, pk, rfl⟩ |
        ⟨l', rfl⟩ | ⟨hc, hl, -, hany⟩
      · obtain ⟨-, hnone⟩ := exec_accepted h
        cases hnone
      · obtain ⟨hfresh, rfl⟩ := initializeConfig_eq_ok h
        -- what was registered before the configuration came is registered after it
        exact ⟨token, treasury, pk, _, as, justInitialised_iff.mpr ⟨stores, hfresh, rfl⟩,
          (has _ _).symm⟩
      · exact ⟨as, has⟩
      · obtain ⟨config', network', stores'⟩ := w'
        cases hc
        cases hl
        cases network' with
        | none => trivial
        | some g' =>
          refine ⟨as ++ [act], fun c l => ?_⟩
          rw [run_append, has]
          exact Transactions.next_of_ok (hany c l)
  | some c =>
    have hc' := config_isSome_of_exec h rfl
    cases network with
    | none =>
      obtain ⟨P, hw⟩ := hw
      rcases exec_without_network rfl h with ⟨a, rfl⟩ | ⟨a, token, treasury, pk, rfl⟩ | ⟨hn, hany⟩
      · obtain rfl := initializeNetwork_eq_ok h
        exact ⟨P, hw⟩
      · obtain ⟨-, hnone⟩ := exec_accepted h
        cases hnone
      · have hnext : Reachable env P (w'.withNetwork (some initialGlobal)) := hw.step (hany _)
        obtain ⟨config', network', stores'⟩ := w'
        obtain ⟨c', rfl⟩ := Option.isSome_iff_exists.mp hc'
        cases hn
        exact ⟨P, hnext⟩
    | some g =>
      obtain ⟨P, hw⟩ := hw
      have hn' := initialized_of_exec h rfl
      have hnext : Reachable env P w' := hw.step h
      obtain ⟨config', network', stores'⟩ := w'
      obtain ⟨c', rfl⟩ := Option.isSome_iff_exists.mp hc'
      obtain ⟨g', rfl⟩ := Option.isSome_iff_exists.mp hn'
      exact ⟨P, hnext⟩

/-- Nobody has anything. -/
def Worthless (w : World) : Prop :=
  ∀ u, w.credit u = 0 ∧ w.balance u = 0 ∧ ∀ j, w.job u j = none

/-- Registration and initialisation give nobody anything. -/
theorem worthless_step (hw : Worthless w) {act : Action} (h : exec env w act = .ok w')
    (hin : ∀ u, creditIn u w act = 0 ∧ balanceIn u w act = 0)
    (hjob : ∀ u j old, jobAfter act u j old = old) : Worthless w' := by
  intro u
  have he := exec_effect h
  have hcredit := he.credit u
  have hbalance := he.balance u
  obtain ⟨hc, hb, hj⟩ := hw u
  rw [hc, (hin u).1] at hcredit
  rw [hb, (hin u).2] at hbalance
  refine ⟨by omega, by omega, fun j => ?_⟩
  rw [he.job, hjob, hj]

/-- Value only enters when both modules are there. -/
theorem worthless_preserved (env : Env) :
    Transactions.Preserved (exec env)
      (fun w => w.config = none ∨ w.network = none → Worthless w) := by
  intro w act w' hw h hmissing
  have hconfig : w'.config = none → w.config = none := by
    intro hnone
    by_contra hc
    have hsome := config_isSome_of_exec h (Option.isSome_iff_ne_none.mpr hc)
    rw [hnone] at hsome
    cases hsome
  rcases hmissing with hc | hn
  · have hbefore := hw (.inl (hconfig hc))
    rcases exec_without_config (hconfig hc) h with ⟨a, rfl⟩ | ⟨a, token, treasury, pk, rfl⟩ |
      ⟨l', rfl⟩ | ⟨-, -, ⟨a, rfl | ⟨id, rfl⟩⟩, -⟩
    · exact worthless_step hbefore h (fun u => ⟨rfl, rfl⟩) (fun _ _ _ => rfl)
    · obtain ⟨-, rfl⟩ := initializeConfig_eq_ok h
      cases hc
    · exact hbefore
    · exact worthless_step hbefore h (fun u => ⟨rfl, rfl⟩) (fun _ _ _ => rfl)
    · exact worthless_step hbefore h (fun u => ⟨rfl, rfl⟩) (fun _ _ _ => rfl)
  · have husers : w'.users = ∅ := by simp [World.users, hn]
    intro u
    rw [World.credit, World.balance, husers]
    refine ⟨rfl, rfl, fun j => ?_⟩
    rw [World.job, husers]
    rfl

/-! ## Initialising once -/

def configInitialisations (_ : World) : Action → ℕ
  | .txn _ (.initializeConfig _ _ _) => 1
  | _ => 0

def networkInitialisations (_ : World) : Action → ℕ
  | .txn _ .initializeNetwork => 1
  | _ => 0

theorem configInitialisations_le_one (env : Env) (w : World) (as : List Action) :
    total configInitialisations (history env w as) ≤ 1 := by
  refine Transactions.total_le_one (C := fun _ _ => True) (fun w => w.config.isSome) ?_
    (fun _ _ _ h => config_isSome_of_exec h) w as fun _ _ => trivial
  intro w act w' _ h
  unfold configInitialisations
  split
  · obtain ⟨-, hnone⟩ := exec_accepted h
    obtain ⟨-, rfl⟩ := initializeConfig_eq_ok h
    exact .inr ⟨rfl, by rw [hnone]; rfl, rfl⟩
  · exact .inl rfl

theorem networkInitialisations_le_one (env : Env) (w : World) (as : List Action) :
    total networkInitialisations (history env w as) ≤ 1 := by
  refine Transactions.total_le_one (C := fun _ _ => True) PictorNetwork.isInitialized ?_
    (fun _ _ _ => initialized_of_exec) w as fun _ _ => trivial
  intro w act w' _ h
  unfold networkInitialisations
  split
  · obtain ⟨-, hnone⟩ := exec_accepted h
    obtain rfl := initializeNetwork_eq_ok h
    exact .inr ⟨rfl, by rw [PictorNetwork.isInitialized, hnone]; rfl, rfl⟩
  · exact .inl rfl

/-- **Deployment.** However the two initialisations and everybody's calls are interleaved: each
initialisation succeeds at most once, nobody has anything before both have, and from then on the
state is one that a run from an ordinary set-up reaches. -/
theorem deployment (env : Env) (l : Stores) (as : List Action) :
    total configInitialisations (history env ⟨none, none, l⟩ as) ≤ 1 ∧
    total networkInitialisations (history env ⟨none, none, l⟩ as) ≤ 1 ∧
    ((run env ⟨none, none, l⟩ as).config = none ∨ (run env ⟨none, none, l⟩ as).network = none →
      Worthless (run env ⟨none, none, l⟩ as)) ∧
    ((run env ⟨none, none, l⟩ as).config.isSome → (run env ⟨none, none, l⟩ as).network.isSome →
      ∃ P, Reachable env P (run env ⟨none, none, l⟩ as)) := by
  refine ⟨configInitialisations_le_one env _ as, networkInitialisations_le_one env _ as, ?_, ?_⟩
  · exact Transactions.invariant (worthless_preserved env)
      (fun _ u => ⟨rfl, rfl, fun _ => rfl⟩) as
  · intro hc hn
    have hempty : Deploying env ⟨none, none, l⟩ := trivial
    have hw := Transactions.invariant (deploying_preserved env) hempty as
    change Deploying env (run env ⟨none, none, l⟩ as) at hw
    generalize run env ⟨none, none, l⟩ as = w at hc hn hw
    obtain ⟨config, network, stores⟩ := w
    obtain ⟨c, rfl⟩ := Option.isSome_iff_exists.mp hc
    obtain ⟨g, rfl⟩ := Option.isSome_iff_exists.mp hn
    exact hw

end Pictor
