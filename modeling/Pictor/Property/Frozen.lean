import Pictor.Property.Supply

/-!
# What freezing does

A store that is frozen for sending gives nothing, whoever asks, until it is unfrozen, except to the
admin of the token; one that is frozen for receiving gets nothing, except what the admin has seized
elsewhere. And the admin takes nothing from a store that is not frozen, her own apart.

The vault of the network is a store like any other. Its tokens are what has been deposited and not
paid out, less what the admin has seized, and she has seized nothing if she has never frozen it.
-/

namespace Pictor

/-- The two flags of a store. -/
inductive Direction where
  | sending
  | receiving
  deriving DecidableEq, Repr

namespace Direction

/-- What a listing says of an account. -/
def flag : Direction → Address × Bool × Bool → Bool
  | sending, e => e.2.1
  | receiving, e => e.2.2

/-- What a movement does to a store. -/
def flow : Direction → Movement Store → Store → ℕ
  | sending, mv => mv.out
  | receiving, mv => mv.into

end Direction

def Usdt.Management.frozenFor (mg : Usdt.Management) : Direction → Address → Bool
  | .sending => mg.sendingFrozen
  | .receiving => mg.receivingFrozen

namespace Market

variable {host : Usdt.Host} {treasury : Address} {pk : List UInt8} {m m' m₀ : Market}
  {mg : Usdt.Management} {act : Act} {d : Direction} {s : Store}

def frozen (host : Usdt.Host) (d : Direction) (s : Store) (m : Market) : Bool :=
  (m.token.management.map (·.frozenFor d (host.storeAddress s))).getD false

/-- The listing has `x` with its flag set. -/
def Lists (d : Direction) (x : Address) (es : List (Address × Bool × Bool)) : Prop :=
  ∃ e ∈ es, e.1 = x ∧ d.flag e = true

instance (x : Address) (es : List (Address × Bool × Bool)) : Decidable (Lists d x es) :=
  inferInstanceAs (Decidable (∃ e ∈ es, e.1 = x ∧ d.flag e = true))

/-- What an act sets the flag to. -/
def freezing (host : Usdt.Host) (d : Direction) (s : Store) : Act → Option Bool
  | .usdt _ (.freezeAccounts accounts sendingFlags receivingFlags) =>
    if Lists d (host.storeAddress s) (Usdt.listing accounts sendingFlags receivingFlags) then
      some true
    else none
  | .usdt _ (.unfreezeAccounts accounts unfreezeSending unfreezeReceiving) =>
    if Lists d (host.storeAddress s)
        (Usdt.listing accounts unfreezeSending unfreezeReceiving) then
      some false
    else none
  | _ => none

/-! ## The flows at a store -/

section Flows

variable (host : Usdt.Host) (treasury : Address) (s : Store)

/-- What leaves or reaches `s` by a call of the network or a transfer. -/
def passed (d : Direction) (_ : Market) : Act → ℕ
  | .usdt _ _ => 0
  | act => d.flow (act.movement host treasury) s

/-- What the admin takes out of `s`. -/
def seized (_ : Market) : Act → ℕ
  | .usdt a call => (call.movement host a).out s
  | _ => 0

/-- What the admin mints into `s`. -/
def issued (_ : Market) : Act → ℕ
  | .usdt a (.mint recipient amount) =>
    (Usdt.Call.movement host a (.mint recipient amount)).into s
  | _ => 0

end Flows

/-! ## One act -/

theorem setFlag_lookup (raised : Bool) (flags : Table Address Bool) (account x : Address)
    (flag : Bool) : (Usdt.setFlag raised flags account flag).borrowWithDefault x false =
      if account = x ∧ flag = true then raised else flags.borrowWithDefault x false := by
  cases flag with
  | false => simp [Usdt.setFlag]
  | true =>
    cases raised with
    | false =>
      simp only [Usdt.setFlag, Table.borrowWithDefault, if_true, Table.lookup_erase_ite, and_true,
        eq_comm (a := account), reduceCtorEq, if_false]
      split <;> rfl
    | true =>
      simp only [Usdt.setFlag, Table.borrowWithDefault, if_true, Table.lookup_insert_ite, and_true,
        eq_comm (a := account)]
      split <;> rfl

theorem visit_frozenFor (raised : Bool) (mg : Usdt.Management) (e : Address × Bool × Bool)
    (x : Address) : (mg.visit raised e).frozenFor d x =
      if e.1 = x ∧ d.flag e = true then raised else mg.frozenFor d x := by
  cases d with
  | sending => exact setFlag_lookup raised mg.freezeSending e.1 x e.2.1
  | receiving => exact setFlag_lookup raised mg.freezeReceiving e.1 x e.2.2

theorem foldl_visit_frozenFor (raised : Bool) (mg : Usdt.Management)
    (es : List (Address × Bool × Bool)) (x : Address) :
    (es.foldl (.visit raised) mg).frozenFor d x =
      if Lists d x es then raised else mg.frozenFor d x := by
  induction es generalizing mg with
  | nil => simp [Lists]
  | cons e es ih =>
    rw [List.foldl_cons, ih, visit_frozenFor]
    have hcons : Lists d x (e :: es) ↔ (e.1 = x ∧ d.flag e = true) ∨ Lists d x es := by
      simp [Lists]
    by_cases hes : Lists d x es
    · rw [if_pos hes, if_pos (hcons.mpr (.inr hes))]
    · by_cases he : e.1 = x ∧ d.flag e = true
      · rw [if_neg hes, if_pos he, if_pos (hcons.mpr (.inl he))]
      · rw [if_neg hes, if_neg he, if_neg fun h => (hcons.mp h).elim he hes]

theorem frozen_of_management (h : m.token.management = some mg) :
    frozen host d s m = mg.frozenFor d (host.storeAddress s) := by
  simp [frozen, h]

/-- **The flag after an act.** -/
theorem frozen_step (hr : Ready host treasury mg m) (h : exec host m act = .ok m') :
    frozen host d s m' = (freezing host d s act).getD (frozen host d s m) := by
  rw [frozen_of_management (exec_effect hr h).ready.management,
    frozen_of_management hr.management]
  cases act with
  | usdt a call =>
    cases call with
    | freezeAccounts accounts sendingFlags receivingFlags =>
      refine (foldl_visit_frozenFor true mg _ _).trans ?_
      simp only [freezing]
      split_ifs <;> rfl
    | unfreezeAccounts accounts unfreezeSending unfreezeReceiving =>
      refine (foldl_visit_frozenFor false mg _ _).trans ?_
      simp only [freezing]
      split_ifs <;> rfl
    | _ => cases d <;> rfl
  | _ => rfl

theorem exists_frozen (hr : Ready host treasury mg m) (h : Usdt.Frozen host mg s) :
    ∃ d, frozen host d s m = true := by
  rcases h with h | h
  · exact ⟨.sending, (frozen_of_management hr.management).trans h⟩
  · exact ⟨.receiving, (frozen_of_management hr.management).trans h⟩

/-- **Only what is frozen is seized**, but for what the admin burns of her own. -/
theorem frozen_of_seized (hr : Ready host treasury mg m) (h : exec host m act = .ok m')
    (hseized : 0 < seized host s m act) :
    (∃ d, frozen host d s m = true) ∨
      ∃ a amount, act = .usdt a (.revoke amount) ∧ s = Usdt.primaryStore host a := by
  unfold seized at hseized
  split at hseized
  · next a call =>
    obtain ⟨haccepted, -⟩ := usdt_effect hr h
    have hsource : (call.movement host a).source = some s := by
      by_contra hne
      rw [Movement.out, if_neg hne] at hseized
      exact Nat.lt_irrefl 0 hseized
    cases call with
    | revoke amount =>
      cases hsource
      exact .inr ⟨a, amount, rfl, rfl⟩
    | transfer source recipient amount =>
      cases hsource
      exact .inl (exists_frozen hr haccepted.2)
    | transferStore source recipient amount =>
      cases hsource
      exact .inl (exists_frozen hr haccepted.2)
    | burn account amount =>
      cases hsource
      exact .inl (exists_frozen hr haccepted.2)
    | burnFrom store amount =>
      cases hsource
      exact .inl (exists_frozen hr haccepted.2)
    | _ => cases hsource
  · exact absurd hseized (Nat.lt_irrefl 0)

/-! ## Over a run -/

theorem frozen_initial (h₀ : JustSetUp host treasury pk m₀) : frozen host d s m₀ = false := by
  rw [frozen_of_management (ready_initial h₀).management]
  cases d <;> rfl

section Run

variable (hm : ∃ mg, Ready host treasury mg m) (as : List Act)

include hm

end Run

/-- Whose signature the act needs. -/
def Act.signer : Act → Option Address
  | .network signer _ => some signer
  | .usdt signer _ => some signer
  | .transfer sender _ _ _ => some sender
  | .primaryTransfer sender _ _ => some sender
  | .outside _ => none

/-- A quantity of the network's calls. -/
def onNetwork (f : World → Action → ℕ) (m : Market) : Act → ℕ
  | .network signer call => f m.world (.txn signer call)
  | _ => 0

/-- What a holder sends to the vault store past the network. -/
def given (host : Usdt.Host) (_ : Market) : Act → ℕ
  | .transfer _ _ target amount => if target = vault host then amount.toNat else 0
  | _ => 0

theorem vault_ne_primaryStore {a : Address} : vault host ≠ Usdt.primaryStore host a :=
  vaultStore_ne_primaryStore

theorem vault_metadata : (vault host).metadata = host.usdtAddress := rfl

theorem some_primaryStore_ne_vault {a : Address} :
    ¬ some (Usdt.primaryStore host a) = some (vault host) := by
  intro h
  exact vault_ne_primaryStore (Option.some.inj h).symm

/-- What leaves the vault store. Only the network signs for its owner. -/
theorem out_vault (hr : Ready host treasury mg m) (h : exec host m act = .ok m')
    (hkey : act.signer ≠ some host.env.configAddress) :
    (act.movement host treasury).out (vault host) =
      onNetwork withdrawals m act + onNetwork treasuryTransfers m act +
        seized host (vault host) m act := by
  cases act with
  | network a call =>
    cases call with
    | deposit amount token => exact if_neg some_primaryStore_ne_vault
    | withdraw amount token => exact if_pos rfl
    | withdrawToTreasury amount token => exact (if_pos rfl).trans (Nat.zero_add _).symm
    | _ => rfl
  | usdt a call => exact (Nat.zero_add _).symm
  | transfer sender source target amount =>
    refine if_neg fun hsource => hkey ?_
    cases hsource
    obtain ⟨-, howner, -⟩ := transfer_effect hr h
    exact congrArg some howner.symm
  | primaryTransfer sender recipient amount => exact if_neg some_primaryStore_ne_vault
  | outside l => rfl

/-- What reaches it. The admin sends to primary stores. -/
theorem into_vault (m : Market) (act : Act) :
    (act.movement host treasury).into (vault host) =
      onNetwork deposits m act + given host m act := by
  cases act with
  | network a call =>
    cases call with
    | deposit amount token => exact if_pos rfl
    | withdraw amount token => exact if_neg some_primaryStore_ne_vault
    | withdrawToTreasury amount token => exact if_neg some_primaryStore_ne_vault
    | _ => rfl
  | usdt a call =>
    cases call with
    | mint recipient amount => exact if_neg some_primaryStore_ne_vault
    | transfer source recipient amount => exact if_neg some_primaryStore_ne_vault
    | transferStore source recipient amount => exact if_neg some_primaryStore_ne_vault
    | _ => rfl
  | transfer sender source target amount =>
    simp only [Act.movement, Movement.into, Option.some.injEq, onNetwork, given, Nat.zero_add]
  | primaryTransfer sender recipient amount => exact if_neg some_primaryStore_ne_vault
  | outside l => rfl

theorem vault_step (hr : Ready host treasury mg m) (h : exec host m act = .ok m')
    (hkey : act.signer ≠ some host.env.configAddress) :
    units m'.token.stores (vault host) + (onNetwork withdrawals m act +
        onNetwork treasuryTransfers m act + seized host (vault host) m act) =
      units m.token.stores (vault host) + (onNetwork deposits m act + given host m act) := by
  rw [← out_vault hr h hkey, ← into_vault m act]
  have hmoves := (exec_effect hr h).moves (vault host)
  simpa only [tokenUnits, if_pos vault_metadata] using hmoves

/-- A flag that is down and not put up. -/
theorem unfrozen_kept (hm : (∃ mg, Ready host treasury mg m) ∧ ∀ d, frozen host d s m = false)
    (hact : ∀ d, freezing host d s act ≠ some true) (h : exec host m act = .ok m') :
    (∃ mg, Ready host treasury mg m') ∧ ∀ d, frozen host d s m' = false := by
  obtain ⟨⟨mg, hr⟩, hfree⟩ := hm
  refine ⟨⟨_, (exec_effect hr h).ready⟩, fun d => ?_⟩
  rw [frozen_step hr h, hfree]
  cases hflag : freezing host d s act with
  | none => rfl
  | some raised =>
    cases raised with
    | true => exact absurd hflag (hact d)
    | false => rfl

/-- **The network's vault, at the token's mercy**: after any run it holds what has been deposited or
given and not been paid out, less what the admin has seized; and she has seized nothing from it if
no call of hers has frozen it. -/
theorem vault_seizures (h₀ : JustSetUp host treasury pk m₀) (as : List Act)
    (hkey : ∀ e ∈ history host m₀ as, e.act.signer ≠ some host.env.configAddress) :
    (units (run host m₀ as).token.stores (vault host) +
        (total (onNetwork withdrawals) (history host m₀ as) +
          total (onNetwork treasuryTransfers) (history host m₀ as) +
          total (seized host (vault host)) (history host m₀ as)) =
      total (onNetwork deposits) (history host m₀ as) +
        total (given host) (history host m₀ as)) ∧
    ((∀ e ∈ history host m₀ as, ∀ d, freezing host d (vault host) e.act ≠ some true) →
      total (seized host (vault host)) (history host m₀ as) = 0) := by
  have hready : ∃ mg, Ready host treasury mg m₀ := ⟨_, ready_initial h₀⟩
  refine ⟨?_, fun hfree => Transactions.total_eq_zero fun e he => ?_⟩
  · have hempty : units m₀.token.stores (vault host) = 0 := by
      have hzero := tokenUnits_initial h₀ (vault host)
      rwa [tokenUnits, if_pos vault_metadata] at hzero
    rw [← Nat.zero_add (total (onNetwork deposits) (history host m₀ as) + _), ← hempty,
      ← Transactions.total_add, ← Transactions.total_add, ← Transactions.total_add]
    apply Transactions.conserved_of (q := fun m : Market => units m.token.stores (vault host))
      (C := fun _ act => act.signer ≠ some host.env.configAddress)
      (ready_preserved host treasury) _ hready as hkey
    rintro m act m' ⟨mg, hr⟩ hkey h
    exact vault_step hr h hkey
  · obtain ⟨⟨mg, hr⟩, hdown⟩ := Transactions.invariant_of_pre
      (fun _ _ _ hm hact h => unfrozen_kept hm hact h)
      ⟨hready, fun d => frozen_initial (s := vault host) h₀⟩ hfree he
    by_contra hne
    rcases frozen_of_seized hr (Transactions.step_of_mem_history he) (Nat.pos_of_ne_zero hne) with
      ⟨d, hup⟩ | ⟨a, amount, -, hvault⟩
    · exact Bool.false_ne_true ((hdown d).symm.trans hup)
    · exact vault_ne_primaryStore hvault

theorem vault_seizures_test :
    units (run testHost testMarket confiscation).token.stores (vault testHost) +
        (total (onNetwork withdrawals) (history testHost testMarket confiscation) +
          total (onNetwork treasuryTransfers) (history testHost testMarket confiscation) +
          total (seized testHost (vault testHost)) (history testHost testMarket confiscation)) =
      total (onNetwork deposits) (history testHost testMarket confiscation) +
        total (given testHost) (history testHost testMarket confiscation) :=
  (vault_seizures testMarket_justSetUp confiscation (by decide)).1

/-- Half of the deposit is gone, and the network still owes all of it. -/
example : units (run testHost testMarket confiscation).token.stores (vault testHost) = 200 ∧
    (run testHost testMarket confiscation).world.credit 0xdead = 400 := by decide

end Market

end Pictor
