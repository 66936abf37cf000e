import Pictor.Effect.Usdt

/-!
# What each act does to the token

Whoever acts, tokens move from one store to another, or into being by a mint, or out of it by a
burn. The network's calls and the holders' transfers only move what is not frozen; the calls of the
token's admin may move what is.
-/

namespace Pictor

namespace Market

variable {host : Usdt.Host} {treasury : Address} {m m' : Market} {mg : Usdt.Management} {act : Act}

/-- The vault store of the network. -/
def vault (host : Usdt.Host) : Store := PictorConfig.vaultStore host.env host.usdtAddress

/-- The units of the token in a store; none in the stores of other tokens. -/
def tokenUnits (host : Usdt.Host) (m : Market) (s : Store) : ℕ :=
  if s.metadata = host.usdtAddress then units m.token.stores s else 0

def supply (host : Usdt.Host) (m : Market) : ℕ := Usdt.supply host m.token

section

variable (host : Usdt.Host) (treasury : Address)

def Act.movement : Act → Movement Store
  | .network a (.deposit amount _) =>
    ⟨some (Usdt.primaryStore host a), some (vault host), amount.toNat⟩
  | .network a (.withdraw amount _) =>
    ⟨some (vault host), some (Usdt.primaryStore host a), amount.toNat⟩
  | .network _ (.withdrawToTreasury amount _) =>
    ⟨some (vault host), some (Usdt.primaryStore host treasury), amount.toNat⟩
  | .network _ _ => .still
  | .usdt a call => call.movement host a
  | .transfer _ source target amount => ⟨some source, some target, amount.toNat⟩
  | .primaryTransfer sender recipient amount =>
    ⟨some (Usdt.primaryStore host sender), some (Usdt.primaryStore host recipient), amount.toNat⟩
  | .outside _ => .still

end

def Act.manage (mg : Usdt.Management) : Act → Usdt.Management
  | .usdt _ call => mg.after call
  | _ => mg

def Act.emits (host : Usdt.Host) (mg : Usdt.Management) : Act → List Usdt.Event
  | .usdt a call => call.emits host mg a
  | _ => []

/-- What holds from the set-up on. -/
structure Ready (host : Usdt.Host) (treasury : Address) (mg : Usdt.Management) (m : Market) :
    Prop where
  management : m.token.management = some mg
  proper : mg.Proper host
  configured : Configured host.env host.usdtAddress treasury m.world

/-- `m'` is what the act makes of `m`. -/
structure Effect (host : Usdt.Host) (treasury : Address) (mg : Usdt.Management) (act : Act)
    (m m' : Market) : Prop where
  ready : Ready host treasury (act.manage mg) m'
  moves : (act.movement host treasury).Moves (tokenUnits host m) (tokenUnits host m')
  supply : supply host m' + (act.movement host treasury).outgoing =
    supply host m + (act.movement host treasury).incoming
  events : m'.token.events = m.token.events ++ act.emits host mg
  source : ∀ s, (act.movement host treasury).source = some s → s.metadata = host.usdtAddress
  target : ∀ s, (act.movement host treasury).target = some s → s.metadata = host.usdtAddress

/-- Both ends of a movement are free to take part. -/
structure Unfrozen (host : Usdt.Host) (mg : Usdt.Management) (mv : Movement Store) : Prop where
  source : ∀ s, mv.source = some s → mg.sendingFrozen (host.storeAddress s) = false
  target : ∀ s, mv.target = some s → mg.receivingFrozen (host.storeAddress s) = false

theorem Unfrozen.still (host : Usdt.Host) (mg : Usdt.Management) : Unfrozen host mg .still :=
  ⟨fun _ hs => (by cases hs), fun _ hs => (by cases hs)⟩

/-- A movement between two stores. -/
theorem Unfrozen.of_ends {source target : Store} {n : ℕ}
    (hsource : mg.sendingFrozen (host.storeAddress source) = false)
    (htarget : mg.receivingFrozen (host.storeAddress target) = false) :
    Unfrozen host mg ⟨some source, some target, n⟩ where
  source := by
    intro s hs
    cases hs
    exact hsource
  target := by
    intro s hs
    cases hs
    exact htarget

/-! ## The management never leaves its place -/

theorem foldl_visit_proper {raised : Bool} {es : List (Address × Bool × Bool)}
    (hp : mg.Proper host) : (es.foldl (.visit raised) mg).Proper host := by
  obtain ⟨freezeSending, freezeReceiving, hfold⟩ := Usdt.foldl_visit_eq raised mg es
  rw [hfold]
  exact ⟨hp.mintRef, hp.burnRef, hp.transferRef⟩

theorem after_proper (hp : mg.Proper host) (call : Usdt.Call) : (mg.after call).Proper host := by
  cases call with
  | freezeAccounts accounts sendingFlags receivingFlags => exact foldl_visit_proper hp
  | unfreezeAccounts accounts sendingFlags receivingFlags => exact foldl_visit_proper hp
  | _ => exact ⟨hp.mintRef, hp.burnRef, hp.transferRef⟩

/-! ## The calls of the network -/

theorem network_ends (a : Address) (call : Call) (s : Store)
    (hs : ((Act.network a call).movement host treasury).source = some s ∨
      ((Act.network a call).movement host treasury).target = some s) :
    s.metadata = host.usdtAddress := by
  unfold Act.movement at hs
  split at hs
  · rcases hs with hs | hs <;> cases hs <;> rfl
  · rcases hs with hs | hs <;> cases hs <;> rfl
  · rcases hs with hs | hs <;> cases hs <;> rfl
  · rcases hs with hs | hs <;> cases hs
  · next hact => cases hact
  · next hact => cases hact
  · next hact => cases hact
  · next hact => cases hact

/-- The network neither makes tokens nor destroys any. -/
theorem network_balanced (a : Address) (call : Call) :
    ((Act.network a call).movement host treasury).outgoing =
      ((Act.network a call).movement host treasury).incoming := by
  cases call <;> rfl

theorem network_flows (host : Usdt.Host) (treasury : Address) (σ : Usdt.State) (a : Address)
    (call : Call) (t : Store) :
    ((Act.network a call).movement host treasury).out t =
        tokensOut (σ.env host) host.usdtAddress t (.txn a call) ∧
      ((Act.network a call).movement host treasury).into t =
        tokensIn (σ.env host) host.usdtAddress treasury t (.txn a call) := by
  cases call with
  | deposit amount token =>
    simp only [Act.movement, Movement.out, Movement.into, Option.some.injEq, eq_comm (b := t)]
    exact ⟨rfl, rfl⟩
  | withdraw amount token =>
    simp only [Act.movement, Movement.out, Movement.into, Option.some.injEq, eq_comm (b := t)]
    exact ⟨rfl, rfl⟩
  | withdrawToTreasury amount token =>
    simp only [Act.movement, Movement.out, Movement.into, Option.some.injEq, eq_comm (b := t)]
    exact ⟨rfl, rfl⟩
  | _ => exact ⟨rfl, rfl⟩

/-! ## Every act -/

/-- A movement between stores of the token, as far as the token goes. -/
theorem tokenUnits_moves {mv : Movement Store} (hends : ∀ s, mv.source = some s ∨
    mv.target = some s → s.metadata = host.usdtAddress)
    (h : mv.Moves (units m.token.stores) (units m'.token.stores)) :
    mv.Moves (tokenUnits host m) (tokenUnits host m') := by
  intro t
  unfold tokenUnits
  split
  · exact h t
  · next ht =>
    have hout : mv.out t = 0 := if_neg fun hs => ht (hends t (.inl hs))
    have hinto : mv.into t = 0 := if_neg fun hs => ht (hends t (.inr hs))
    rw [hout, hinto]

section Step

variable (hr : Ready host treasury mg m)

include hr

theorem network_effect {a : Address} {call : Call} (h : exec host m (.network a call) = .ok m') :
    Effect host treasury mg (.network a call) m m' := by
  simp only [exec, Checked.bind_eq_ok, Checked.pure_eq_ok] at h
  obtain ⟨w, h, rfl⟩ := h
  have hw : Pictor.exec (m.token.env host) m.world (.txn a call) = .ok w := h
  have hc : Configured (m.token.env host) host.usdtAddress treasury m.world := hr.configured
  have hc' : Configured (m.token.env host) host.usdtAddress treasury w :=
    configured_preserved _ _ _ _ _ _ hc hw
  constructor
  · exact ⟨hr.management, hr.proper, hc'⟩
  · refine tokenUnits_moves (network_ends a call) fun t => ?_
    obtain ⟨hout, hinto⟩ := network_flows host treasury m.token a call t
    rw [hout, hinto]
    exact exec_tokens (Usdt.movesExact host hr.management) hc hw t
  · rw [network_balanced]
    rfl
  · exact (List.append_nil _).symm
  · exact fun s hs => network_ends a call s (.inl hs)
  · exact fun s hs => network_ends a call s (.inr hs)

/-- A transfer by a holder, out of a store of hers. -/
theorem transfer_units {l l' : Stores} {sender : Address} {source target : Store}
    {amount : UInt64} (hsource : source.metadata = host.usdtAddress)
    (htarget : target.metadata = host.usdtAddress)
    (h : DispatchableFungibleAsset.transfer (m.token.env host) l sender source target amount =
      .ok l') :
    source.owner = sender ∧ Unfrozen host mg ⟨some source, some target, amount.toNat⟩ ∧
      (⟨some source, some target, amount.toNat⟩ : Movement Store).Moves (units l) (units l') := by
  have hm := hr.management
  have hx := Usdt.movesExact host hm
  simp only [DispatchableFungibleAsset.transfer, Checked.bind_eq_ok, Prod.exists] at h
  obtain ⟨fa, l₁, htake, hadd⟩ := h
  obtain ⟨howner, hout⟩ := Usdt.unfrozen_of_withdraw hm hsource htake
  obtain ⟨rfl, htaken⟩ := dispatchable_withdraw_exact hx hsource htake
  have hadded := dispatchable_deposit_exact hx htarget rfl hadd
  refine ⟨howner, .of_ends hout (Usdt.unfrozen_of_deposit hm htarget hadd), fun t => ?_⟩
  simp only [Movement.out, Movement.into, Option.some.injEq, eq_comm (b := t)]
  exact htaken.then_added hadded t

/-- An act that changes nothing but stores, and no total. -/
theorem Effect.of_stores {l : Stores} (hmanage : act.manage mg = mg)
    (hemits : act.emits host mg = [])
    (hbalanced : (act.movement host treasury).outgoing = (act.movement host treasury).incoming)
    (hends : ∀ s, (act.movement host treasury).source = some s ∨
      (act.movement host treasury).target = some s → s.metadata = host.usdtAddress)
    (hmoves : (act.movement host treasury).Moves (tokenUnits host m)
      (tokenUnits host { m with token := { m.token with stores := l } })) :
    Effect host treasury mg act m { m with token := { m.token with stores := l } } := by
  constructor
  · rw [hmanage]
    exact ⟨hr.management, hr.proper, hr.configured⟩
  · exact hmoves
  · rw [hbalanced]
    rfl
  · rw [hemits]
    exact (List.append_nil _).symm
  · exact fun s hs => hends s (.inl hs)
  · exact fun s hs => hends s (.inr hs)

theorem transfer_effect {sender : Address} {source target : Store} {amount : UInt64}
    (h : exec host m (.transfer sender source target amount) = .ok m') :
    Effect host treasury mg (.transfer sender source target amount) m m' ∧
      source.owner = sender ∧ Unfrozen host mg ⟨some source, some target, amount.toNat⟩ := by
  simp only [exec, Checked.bind_eq_ok, Checked.require_eq_ok, Checked.pure_eq_ok,
    exists_const] at h
  obtain ⟨⟨hsource, htarget⟩, l, h, rfl⟩ := h
  obtain ⟨howner, hunfrozen, hmoves⟩ := transfer_units hr hsource htarget h
  have hends : ∀ s, some source = some s ∨ some target = some s →
      s.metadata = host.usdtAddress := by
    rintro s (hs | hs)
    · cases hs
      exact hsource
    · cases hs
      exact htarget
  exact ⟨.of_stores hr rfl rfl rfl hends (tokenUnits_moves hends hmoves), howner, hunfrozen⟩

theorem primaryTransfer_effect {sender recipient : Address} {amount : UInt64}
    (h : exec host m (.primaryTransfer sender recipient amount) = .ok m') :
    Effect host treasury mg (.primaryTransfer sender recipient amount) m m' ∧
      Unfrozen host mg ((Act.primaryTransfer sender recipient amount).movement host treasury) := by
  simp only [exec, PrimaryFungibleStore.transfer, Checked.bind_eq_ok, Checked.pure_eq_ok] at h
  obtain ⟨l', ⟨l₁, h₁, l₂, h₂, h⟩, rfl⟩ := h
  obtain ⟨-, hunfrozen, hmoves⟩ := transfer_units hr rfl rfl h
  have hsame : ∀ t, units l₂ t = units m.token.stores t := by
    intro t
    rw [ensurePrimaryStoreExists_units h₂, ensurePrimaryStoreExists_units h₁]
  have hends : ∀ s, some (Usdt.primaryStore host sender) = some s ∨
      some (Usdt.primaryStore host recipient) = some s → s.metadata = host.usdtAddress := by
    rintro s (hs | hs) <;> cases hs <;> rfl
  refine ⟨.of_stores hr rfl rfl rfl hends (tokenUnits_moves hends fun t => ?_), hunfrozen⟩
  rw [← hsame]
  exact hmoves t

theorem outside_effect {l : Stores} (h : exec host m (.outside l) = .ok m') :
    Effect host treasury mg (.outside l) m m' := by
  simp only [exec, Checked.bind_eq_ok, Checked.require_eq_ok, Checked.pure_eq_ok,
    exists_const] at h
  obtain ⟨hkept, rfl⟩ := h
  refine .of_stores hr rfl rfl rfl (fun s hs => by rcases hs with hs | hs <;> cases hs) ?_
  refine Movement.still_moves.mpr fun t => ?_
  unfold tokenUnits
  split
  · next ht =>
    by_cases hmem : t ∈ m.token.stores.keys ∪ l.keys
    · exact hkept t hmem ht
    · -- there is no such store, before or after
      simp only [Finset.mem_union, Table.mem_keys_iff, not_or, not_exists,
        ← Option.eq_none_iff_forall_ne_some] at hmem
      exact (units_of_fresh hmem.2).trans (units_of_fresh hmem.1).symm
  · rfl

theorem usdt_effect {a : Address} {call : Usdt.Call} (h : exec host m (.usdt a call) = .ok m') :
    Usdt.Accepted host mg a call ∧ Effect host treasury mg (.usdt a call) m m' := by
  simp only [exec, Checked.bind_eq_ok, Checked.pure_eq_ok] at h
  obtain ⟨σ, h, rfl⟩ := h
  obtain ⟨haccepted, he⟩ := Usdt.execCall_effect hr.management hr.proper h
  -- the admin sends to primary stores only
  have htarget : ∀ s, (call.movement host a).target = some s → s.metadata = host.usdtAddress := by
    intro s hs
    cases call <;> cases hs <;> rfl
  refine ⟨haccepted, ⟨he.management, after_proper hr.proper call, hr.configured⟩, ?_, he.supply,
    he.events, he.source, htarget⟩
  exact tokenUnits_moves (fun s hs => hs.elim (he.source s) (htarget s)) he.moves

/-- **What an act does.** -/
theorem exec_effect (h : exec host m act = .ok m') : Effect host treasury mg act m m' := by
  cases act with
  | network a call => exact network_effect hr h
  | usdt a call => exact (usdt_effect hr h).2
  | transfer sender source target amount => exact (transfer_effect hr h).1
  | primaryTransfer sender recipient amount => exact (primaryTransfer_effect hr h).1
  | outside l => exact outside_effect hr h

end Step

end Market

end Pictor
