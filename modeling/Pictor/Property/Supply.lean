import Pictor.Effect.Market

/-!
# The supply of the token

However the network's calls, the admin's and the holders' are ordered, what is counted is what there
is: the supply is the sum of all balances, and what has been minted and not burned. So no store
holds more than the supply, and the count never falls short when tokens are burned.
-/

namespace Pictor

namespace Market

variable {host : Usdt.Host} {treasury : Address} {pk : List UInt8} {m m' m₀ : Market}
  {mg : Usdt.Management} {act : Act}

/-- All the tokens in all the stores. -/
def circulating (host : Usdt.Host) (m : Market) : ℕ :=
  m.token.stores.sum fun s v => if s.metadata = host.usdtAddress then v.balance.toNat else 0

def minted (_ : Market) : Act → ℕ
  | .usdt _ (.mint _ amount) => amount.toNat
  | _ => 0

def burned (_ : Market) : Act → ℕ
  | .usdt _ (.revoke amount) => amount.toNat
  | .usdt _ (.burn _ amount) => amount.toNat
  | .usdt _ (.burnFrom _ amount) => amount.toNat
  | _ => 0

/-! ## One act -/

theorem weight_eq_tokenUnits (s : Store) : m.token.stores.weight
    (fun s v => if s.metadata = host.usdtAddress then v.balance.toNat else 0) s =
      tokenUnits host m s := by
  unfold Table.weight tokenUnits units FungibleAsset.balance
  cases m.token.stores.lookup s with
  | none => exact (ite_self 0).symm
  | some v => rfl

theorem circulating_eq {S : Finset Store} (h : m.token.stores.keys ⊆ S) :
    circulating host m = ∑ s ∈ S, tokenUnits host m s := by
  rw [circulating, Table.sum_eq_of_subset h]
  exact Finset.sum_congr rfl fun s _ => weight_eq_tokenUnits s

theorem tokenUnits_le_circulating (s : Store) : tokenUnits host m s ≤ circulating host m := by
  rw [circulating_eq (Finset.subset_insert s _)]
  exact Finset.single_le_sum (f := tokenUnits host m) (fun _ _ => Nat.zero_le _)
    (Finset.mem_insert_self s _)

/-- The sum of all balances follows the movement. -/
theorem circulating_step (he : Effect host treasury mg act m m') :
    circulating host m' + (act.movement host treasury).outgoing =
      circulating host m + (act.movement host treasury).incoming := by
  let mv := act.movement host treasury
  let S := m.token.stores.keys ∪ m'.token.stores.keys ∪ (mv.source.toFinset ∪ mv.target.toFinset)
  have hpre : m.token.stores.keys ⊆ S := by
    intro s hs
    simp [S, hs]
  have hpost : m'.token.stores.keys ⊆ S := by
    intro s hs
    simp [S, hs]
  rw [circulating_eq hpre, circulating_eq hpost]
  apply Movement.sum_moves he.moves
  · intro s hs
    simp [S, mv, hs]
  · intro s hs
    simp [S, mv, hs]

/-- Mints have no source and burns no target. -/
theorem minted_and_burned (host : Usdt.Host) (treasury : Address) (m : Market) (act : Act) :
    (act.movement host treasury).incoming + burned m act =
      (act.movement host treasury).outgoing + minted m act := by
  cases act with
  | network a call => cases call <;> rfl
  | usdt a call =>
    cases call with
    | mint recipient amount => exact (Nat.zero_add _).symm
    | revoke amount => exact Nat.zero_add _
    | burn account amount => exact Nat.zero_add _
    | burnFrom store amount => exact Nat.zero_add _
    | _ => rfl
  | _ => rfl

theorem supply_step (he : Effect host treasury mg act m m') :
    supply host m' + burned m act = supply host m + minted m act := by
  have hsupply := he.supply
  have hkinds := minted_and_burned host treasury m act
  omega

/-- What can be withdrawn can be burned. -/
theorem burn_of_withdraw {s : Store} {amount : UInt64} {fa : FungibleAsset} {l : Stores}
    (hs : s.metadata = host.usdtAddress) (hbound : units m.token.stores s ≤ supply host m)
    (h : FungibleAsset.withdrawInternal m.token.stores s amount = .ok (fa, l)) :
    ∃ supplies, FungibleAsset.burn m.token.supplies host.usdtAddress fa = .ok supplies := by
  obtain ⟨hfa, htaken⟩ := withdrawInternal_exact h
  have hunits := htaken s
  rw [if_pos rfl] at hunits
  have hle : amount.toNat ≤ FungibleAsset.supplyUnits m.token.supplies host.usdtAddress :=
    (Nat.le_add_left _ _).trans (hunits.le.trans hbound)
  obtain ⟨supplies, hburn⟩ := FungibleAsset.exists_decreaseSupply hle
  rw [hfa, hs]
  exact ⟨supplies, FungibleAsset.burn_eq_ok.mpr ⟨rfl, hburn⟩⟩

/-! ## Over a run -/

theorem ready_preserved (host : Usdt.Host) (treasury : Address) :
    Transactions.Preserved (exec host) fun m => ∃ mg, Ready host treasury mg m := by
  rintro m act m' ⟨mg, hr⟩ h
  exact ⟨_, (exec_effect hr h).ready⟩

theorem ready_initial (h₀ : JustSetUp host treasury pk m₀) :
    Ready host treasury (initialManagement host) m₀ := by
  obtain ⟨l, -, rfl⟩ := justSetUp_iff.mp h₀
  exact ⟨rfl, ⟨rfl, rfl, rfl⟩, initialConfig host.env host.usdtAddress treasury pk, rfl, rfl, rfl,
    rfl⟩

theorem tokenUnits_initial (h₀ : JustSetUp host treasury pk m₀) (s : Store) :
    tokenUnits host m₀ s = 0 := by
  obtain ⟨l, hl, rfl⟩ := justSetUp_iff.mp h₀
  unfold tokenUnits
  split
  · next hs =>
    refine (units_insert _ _ _ _).trans ?_
    split
    · rfl
    · refine units_of_fresh ?_
      rw [Finmap.lookup_eq_none, ← Finmap.mem_keys]
      exact fun hmem => hl s hmem hs
  · rfl

theorem supply_initial (h₀ : JustSetUp host treasury pk m₀) : supply host m₀ = 0 := by
  obtain ⟨l, hl, rfl⟩ := justSetUp_iff.mp h₀
  refine (FungibleAsset.supplyUnits_insert _ _ _ _).trans ((if_pos rfl).trans ?_)
  unfold initialSupply
  split <;> rfl

theorem circulating_initial (h₀ : JustSetUp host treasury pk m₀) : circulating host m₀ = 0 := by
  rw [circulating_eq (Finset.Subset.refl _)]
  exact Finset.sum_eq_zero fun s _ => tokenUnits_initial h₀ s

theorem circulating_run (h₀ : JustSetUp host treasury pk m₀) (as : List Act) :
    circulating host (run host m₀ as) = supply host (run host m₀ as) := by
  have hI : Transactions.Preserved (exec host) fun m =>
      (∃ mg, Ready host treasury mg m) ∧ circulating host m = supply host m := by
    rintro m act m' ⟨⟨mg, hr⟩, hsame⟩ h
    have he := exec_effect hr h
    have hcirculating := circulating_step he
    have hsupply := he.supply
    exact ⟨⟨_, he.ready⟩, by omega⟩
  refine (Transactions.invariant hI ⟨⟨_, ready_initial h₀⟩, ?_⟩ as).2
  rw [circulating_initial h₀, supply_initial h₀]

/-- **The supply is backed**, after any run: it is the sum of all balances and what has been minted
and not burned, no store holds more, and burning what has been withdrawn never aborts. -/
theorem supply_backed (h₀ : JustSetUp host treasury pk m₀) (as : List Act) :
    circulating host (run host m₀ as) = supply host (run host m₀ as) ∧
    supply host (run host m₀ as) + total burned (history host m₀ as) =
      total minted (history host m₀ as) ∧
    (∀ s, s.metadata = host.usdtAddress →
      units (run host m₀ as).token.stores s ≤ supply host (run host m₀ as)) ∧
    ∀ s amount fa l, s.metadata = host.usdtAddress →
      FungibleAsset.withdrawInternal (run host m₀ as).token.stores s amount = .ok (fa, l) →
      ∃ supplies, FungibleAsset.burn (run host m₀ as).token.supplies host.usdtAddress fa =
        .ok supplies := by
  have hcirculating := circulating_run h₀ as
  have hbound : ∀ s, s.metadata = host.usdtAddress →
      units (run host m₀ as).token.stores s ≤ supply host (run host m₀ as) := by
    intro s hs
    have hle : tokenUnits host (run host m₀ as) s ≤ circulating host (run host m₀ as) :=
      tokenUnits_le_circulating s
    rwa [tokenUnits, if_pos hs, hcirculating] at hle
  refine ⟨hcirculating, ?_, hbound, ?_⟩
  · have hlaw : supply host (run host m₀ as) + total burned (history host m₀ as) =
        supply host m₀ + total minted (history host m₀ as) := by
      apply Transactions.conserved (ready_preserved host treasury)
      · rintro m act m' ⟨mg, hr⟩ h
        exact supply_step (exec_effect hr h)
      · exact ⟨_, ready_initial h₀⟩
    rwa [supply_initial h₀, Nat.zero_add] at hlaw
  · intro s amount fa l hs h
    exact burn_of_withdraw hs (hbound s hs) h

/-- A user is minted some of the token and deposits a part of it. The admin freezes the vault, takes
from it, and leaves her role to somebody else. -/
def confiscation : List Act :=
  [.usdt 0xcafe (.mint 0xdead 1000),
    .network 0xdead (.deposit 400 usdt),
    .usdt 0xcafe (.freezeAccounts [0xc1] [true] [false]),
    .usdt 0xcafe (.transferStore (vault testHost) 0xbad 150),
    .usdt 0xcafe (.burnFrom (vault testHost) 50),
    .usdt 0xcafe (.transferAdmin 0xbeef),
    .usdt 0xbeef .acceptAdmin]

theorem supply_backed_test : circulating testHost (run testHost testMarket confiscation) =
    supply testHost (run testHost testMarket confiscation) :=
  (supply_backed testMarket_justSetUp confiscation).1

end Market

end Pictor
