import Pictor.Property.Frozen

/-!
# Who the admin of the token is, and what the log tells

The role is handed over in two steps: the admin names a successor, and the successor accepts.
Whoever accepts was named by the admin of the moment, and by nobody's leave since.

Everything the admin does but the moving of seized tokens is logged. Somebody who reads the log from
the beginning knows the admin and the successor, every frozen account, and the supply.
-/

namespace Pictor

/-- What a reader of the log knows of the token. -/
@[ext] structure Replica where
  admin : Address
  pendingAdmin : Address
  frozenFor : Direction → Address → Bool
  supply : ℕ

namespace Replica

/-- The flags of one account, set where the event says so. -/
def flagged (r : Replica) (raised : Bool) (e : Address × Bool × Bool) : Replica :=
  { r with frozenFor := fun d x =>
      if e.1 = x ∧ d.flag e = true then raised else r.frozenFor d x }

def apply (r : Replica) : Usdt.Event → Replica
  | .mint _ amount => { r with supply := r.supply + amount.toNat }
  | .burn _ _ amount => { r with supply := r.supply - amount.toNat }
  | .freeze account sending receiving => r.flagged true (account, sending, receiving)
  | .unfreeze account sending receiving => r.flagged false (account, sending, receiving)
  | .transferAdmin _ pendingAdmin => { r with pendingAdmin }
  | .acceptAdmin _ newAdmin => { r with admin := newAdmin, pendingAdmin := 0x0 }

def replay (r : Replica) (log : List Usdt.Event) : Replica := log.foldl apply r

end Replica

namespace Market

variable {host : Usdt.Host} {treasury : Address} {pk : List UInt8} {m m' m₀ : Market}
  {mg : Usdt.Management} {act : Act}

def admin (m : Market) : Address := (Usdt.admin m.token.management).toOption.getD 0x0

def pendingAdmin (m : Market) : Address := (m.token.management.map (·.pendingAdmin)).getD 0x0

/-- What there is to know. -/
def observe (host : Usdt.Host) (m : Market) : Replica where
  admin := m.admin
  pendingAdmin := m.pendingAdmin
  frozenFor d x := (m.token.management.map (·.frozenFor d x)).getD false
  supply := supply host m

/-- The role is offered, by whom and to whom, or taken. -/
def handover : Act → Option (Option (Address × Address))
  | .usdt admin (.transferAdmin newAdmin) => some (some (admin, newAdmin))
  | .usdt _ .acceptAdmin => some none
  | _ => none

/-- Who takes the role. -/
def accepted : Act → Option Address
  | .usdt signer .acceptAdmin => some signer
  | _ => none

/-! ## One act -/

theorem admin_of_management (h : m.token.management = some mg) :
    m.admin = mg.admin ∧ m.pendingAdmin = mg.pendingAdmin := by
  rw [admin, pendingAdmin, h]
  exact ⟨rfl, rfl⟩

theorem observe_of_management (h : m.token.management = some mg) :
    observe host m = ⟨mg.admin, mg.pendingAdmin, mg.frozenFor, supply host m⟩ := by
  simp [observe, admin_of_management h, h]

/-- The events of a freezing, read one after the other. -/
theorem replay_visits (raised : Bool) (event : Address × Bool × Bool → Usdt.Event)
    (hevent : ∀ (r : Replica) e, r.apply (event e) = r.flagged raised e) (mg : Usdt.Management)
    (n : ℕ) (es : List (Address × Bool × Bool)) :
    (⟨mg.admin, mg.pendingAdmin, mg.frozenFor, n⟩ : Replica).replay (es.map event) =
      ⟨(es.foldl (.visit raised) mg).admin, (es.foldl (.visit raised) mg).pendingAdmin,
        (es.foldl (.visit raised) mg).frozenFor, n⟩ := by
  induction es generalizing mg with
  | nil => rfl
  | cons e es ih =>
    have hone : (⟨mg.admin, mg.pendingAdmin, mg.frozenFor, n⟩ : Replica).flagged raised e =
        ⟨(mg.visit raised e).admin, (mg.visit raised e).pendingAdmin,
          (mg.visit raised e).frozenFor, n⟩ := by
      refine Replica.ext rfl rfl ?_ rfl
      funext d x
      exact (visit_frozenFor raised mg e x).symm
    rw [List.map_cons, Replica.replay, List.foldl_cons, hevent, hone]
    exact ih (mg.visit raised e)

/-- **The log follows**, act by act. -/
theorem observe_step (hr : Ready host treasury mg m) (h : exec host m act = .ok m') :
    observe host m' = (observe host m).replay (act.emits host mg) := by
  have he := exec_effect hr h
  have hsupply := supply_step he
  rw [observe_of_management he.ready.management, observe_of_management hr.management]
  cases act with
  | usdt a call =>
    cases call with
    | mint recipient amount => exact Replica.ext rfl rfl rfl hsupply
    | revoke amount => exact Replica.ext rfl rfl rfl (Nat.eq_sub_of_add_eq hsupply)
    | burn account amount => exact Replica.ext rfl rfl rfl (Nat.eq_sub_of_add_eq hsupply)
    | burnFrom store amount => exact Replica.ext rfl rfl rfl (Nat.eq_sub_of_add_eq hsupply)
    | freezeAccounts accounts sendingFlags receivingFlags =>
      rw [show supply host m' = supply host m from hsupply]
      exact (replay_visits true _ (fun _ _ => rfl) mg _ _).symm
    | unfreezeAccounts accounts unfreezeSending unfreezeReceiving =>
      rw [show supply host m' = supply host m from hsupply]
      exact (replay_visits false _ (fun _ _ => rfl) mg _ _).symm
    | _ => exact Replica.ext rfl rfl rfl hsupply
  | _ => exact Replica.ext rfl rfl rfl hsupply

theorem foldl_visit_admin (raised : Bool) (mg : Usdt.Management)
    (es : List (Address × Bool × Bool)) :
    (es.foldl (.visit raised) mg).admin = mg.admin ∧
      (es.foldl (.visit raised) mg).pendingAdmin = mg.pendingAdmin := by
  obtain ⟨freezeSending, freezeReceiving, hfold⟩ := Usdt.foldl_visit_eq raised mg es
  rw [hfold]
  exact ⟨rfl, rfl⟩

/-- **The role after an act.** -/
theorem admin_step (hr : Ready host treasury mg m) (h : exec host m act = .ok m') :
    m'.admin = (accepted act).getD m.admin ∧
      m'.pendingAdmin = (handover act).elim m.pendingAdmin (Option.elim · 0x0 Prod.snd) := by
  obtain ⟨hadmin, hpending⟩ := admin_of_management hr.management
  obtain ⟨hadmin', hpending'⟩ := admin_of_management (exec_effect hr h).ready.management
  rw [hadmin, hpending, hadmin', hpending']
  cases act with
  | usdt a call =>
    cases call with
    | freezeAccounts accounts sendingFlags receivingFlags => exact foldl_visit_admin true mg _
    | unfreezeAccounts accounts unfreezeSending unfreezeReceiving =>
      exact foldl_visit_admin false mg _
    | acceptAdmin =>
      obtain ⟨haccepted, -⟩ := usdt_effect hr h
      exact ⟨haccepted.symm, rfl⟩
    | _ => exact ⟨rfl, rfl⟩
  | _ => exact ⟨rfl, rfl⟩

theorem authorized (hr : Ready host treasury mg m) {a : Address} {call : Usdt.Call}
    (h : exec host m (.usdt a call) = .ok m') (hcall : call ≠ .acceptAdmin) : a = m.admin := by
  rw [(admin_of_management hr.management).1]
  obtain ⟨haccepted, -⟩ := usdt_effect hr h
  cases call with
  | mint recipient amount => exact haccepted.1
  | transfer source recipient amount => exact haccepted.1
  | transferStore source recipient amount => exact haccepted.1
  | burn account amount => exact haccepted.1
  | burnFrom store amount => exact haccepted.1
  | transferAdmin newAdmin => exact haccepted.1
  | acceptAdmin => exact absurd rfl hcall
  | _ => exact haccepted

theorem exists_acceptAdmin (hr : Ready host treasury mg m) (a : Address) :
    (∃ m', exec host m (.usdt a .acceptAdmin) = .ok m') ↔ a = m.pendingAdmin := by
  rw [(admin_of_management hr.management).2]
  constructor
  · rintro ⟨m', h⟩
    exact (usdt_effect hr h).1
  · rintro rfl
    simp [exec, Usdt.execCall, Usdt.acceptAdmin, hr.management]

/-! ## Over a run -/

/-- The offer that stands: the last one, unless the role has been taken since. -/
def offer (h : List (Transactions.Event Market Act)) : Option (Address × Address) :=
  (Transactions.lastChange handover h).getD none

theorem offer_append (h : List (Transactions.Event Market Act))
    (e : Transactions.Event Market Act) : offer (h ++ [e]) = (handover e.act).getD (offer h) := by
  unfold offer
  rw [Transactions.lastChange_append]
  cases handover e.act <;> rfl

theorem accepted_of_handover (h : handover act = none) : accepted act = none := by
  cases act with
  | usdt a call =>
    cases call with
    | acceptAdmin => cases h
    | _ => rfl
  | _ => rfl

theorem of_handover {b n : Address} (h : handover act = some (some (b, n))) :
    act = .usdt b (.transferAdmin n) := by
  unfold handover at h
  split at h
  · cases h
    rfl
  · cases h
  · cases h

/-- The pending admin is the one of the standing offer, which is by the admin. -/
theorem offer_run (h₀ : JustSetUp host treasury pk m₀) (as : List Act) :
    (run host m₀ as).pendingAdmin = (offer (history host m₀ as)).elim 0x0 Prod.snd ∧
      ∀ b n, offer (history host m₀ as) = some (b, n) → b = (run host m₀ as).admin := by
  have key : (∃ mg, Ready host treasury mg (run host m₀ as)) ∧
      (run host m₀ as).pendingAdmin = (offer (history host m₀ as)).elim 0x0 Prod.snd ∧
      ∀ b n, offer (history host m₀ as) = some (b, n) → b = (run host m₀ as).admin := by
    apply Transactions.run_induction (I := fun h m => (∃ mg, Ready host treasury mg m) ∧
      m.pendingAdmin = (offer h).elim 0x0 Prod.snd ∧ ∀ b n, offer h = some (b, n) → b = m.admin)
    · refine ⟨⟨_, ready_initial h₀⟩, ?_, fun b n hoffer => ?_⟩
      · exact (admin_of_management (ready_initial h₀).management).2
      · cases hoffer
    · rintro h m act m' ⟨⟨mg, hr⟩, hpending, hadmin⟩ hstep
      obtain ⟨hadmin', hpending'⟩ := admin_step hr hstep
      refine ⟨⟨_, (exec_effect hr hstep).ready⟩, ?_⟩
      rw [offer_append, hadmin', hpending']
      cases hact : handover act with
      | none =>
        rw [accepted_of_handover hact]
        exact ⟨hpending, hadmin⟩
      | some o =>
        refine ⟨rfl, fun b n hoffer => ?_⟩
        -- a new offer
        obtain rfl : o = some (b, n) := hoffer
        obtain rfl := of_handover hact
        exact authorized hr hstep (fun hcall => by cases hcall)
  exact key.2

/-- **Who the admin is**, in every run: the last one to accept, or the deployer. Only she calls the
other functions, and somebody can accept exactly if the last thing that happened to the role is an
offer to them by the one who is admin. -/
theorem admin_handover (h₀ : JustSetUp host treasury pk m₀) (as : List Act) :
    (run host m₀ as).admin =
      (Transactions.lastChange accepted (history host m₀ as)).getD host.env.deployer ∧
    (∀ e ∈ history host m₀ as, ∀ a call, e.act = .usdt a call → call ≠ .acceptAdmin →
      a = e.pre.admin) ∧
    ∀ a, a ≠ 0x0 → ((∃ m', exec host (run host m₀ as) (.usdt a .acceptAdmin) = .ok m') ↔
      Transactions.lastChange handover (history host m₀ as) =
        some (some ((run host m₀ as).admin, a))) := by
  have hready : ∃ mg, Ready host treasury mg m₀ := ⟨_, ready_initial h₀⟩
  refine ⟨?_, ?_, fun a ha => ?_⟩
  · have hfirst : m₀.admin = host.env.deployer :=
      (admin_of_management (ready_initial h₀).management).1
    rw [← hfirst]
    apply Transactions.last_change_wins (ready_preserved host treasury)
    · rintro m act m' ⟨mg, hr⟩ h
      exact (admin_step hr h).1
    · exact hready
  · rintro e he a call hact hcall
    obtain ⟨mg, hr⟩ := Transactions.invariant_pre (ready_preserved host treasury) hready he
    have hstep := Transactions.step_of_mem_history he
    rw [hact] at hstep
    exact authorized hr hstep hcall
  · obtain ⟨mg, hr⟩ := Transactions.invariant (ready_preserved host treasury) hready as
    obtain ⟨hpending, hadmin⟩ := offer_run h₀ as
    rw [exists_acceptAdmin hr, hpending]
    unfold offer at hadmin ⊢
    cases hlast : Transactions.lastChange handover (history host m₀ as) with
    | none => exact ⟨fun h => absurd h ha, fun h => by cases h⟩
    | some o =>
      cases o with
      | none => exact ⟨fun h => absurd h ha, fun h => by cases h⟩
      | some offered =>
        obtain ⟨b, n⟩ := offered
        rw [hlast] at hadmin
        obtain rfl := hadmin b n rfl
        constructor
        · rintro rfl
          rfl
        · intro h
          cases h
          rfl

theorem admin_handover_test :
    ∃ m', exec testHost (run testHost testMarket (confiscation.take 6)) (.usdt 0xbeef .acceptAdmin) =
      .ok m' :=
  ((admin_handover testMarket_justSetUp (confiscation.take 6)).2.2 0xbeef (by decide)).mpr
    (by decide)

/-- **The log rebuilds the token**: read from the beginning, it gives the admin, the pending admin,
both flags of every account and the supply. -/
theorem log_rebuilds_token (h₀ : JustSetUp host treasury pk m₀) (as : List Act) :
    observe host (run host m₀ as) =
      (⟨host.env.deployer, 0x0, fun _ _ => false, 0⟩ : Replica).replay
        (run host m₀ as).token.events := by
  have hI : Transactions.Preserved (exec host) fun m => (∃ mg, Ready host treasury mg m) ∧
      observe host m = (⟨host.env.deployer, 0x0, fun _ _ => false, 0⟩ : Replica).replay
        m.token.events := by
    rintro m act m' ⟨⟨mg, hr⟩, hsame⟩ h
    refine ⟨⟨_, (exec_effect hr h).ready⟩, ?_⟩
    rw [observe_step hr h, hsame, (exec_effect hr h).events]
    exact (List.foldl_append ..).symm
  refine (Transactions.invariant hI ⟨⟨_, ready_initial h₀⟩, ?_⟩ as).2
  have hevents : m₀.token.events = [] := by
    obtain ⟨l, -, rfl⟩ := justSetUp_iff.mp h₀
    rfl
  rw [observe_of_management (ready_initial h₀).management, supply_initial h₀, hevents]
  refine Replica.ext rfl rfl ?_ rfl
  funext d x
  cases d <;> rfl

theorem log_rebuilds_token_test : observe testHost (run testHost testMarket confiscation) =
    (⟨0xcafe, 0x0, fun _ _ => false, 0⟩ : Replica).replay
      (run testHost testMarket confiscation).token.events :=
  log_rebuilds_token testMarket_justSetUp confiscation

end Market

end Pictor
