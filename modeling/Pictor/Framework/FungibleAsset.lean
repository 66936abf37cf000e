import Pictor.Framework.Basic

/-!
# Fungible assets

The part of the framework through which the contract moves tokens: `fungible_asset`,
`dispatchable_fungible_asset` and `primary_fungible_store`. A token may register its own withdraw
and deposit functions; these are code we do not have, so they are a parameter
(`DispatchFunctions`), free to change the stores in any way. `MovesExact` is the assumption under
which a token is an ordinary one: what its functions do, when they return, is move the requested
amount. A token without dispatch functions satisfies it trivially, and for it the statements below
are theorems about the framework's own code.

A store's identity carries its owner and its metadata, which never change once it is created, so a
store of one token can not be mistaken for a store of another. Its balance is one number, whichever
of the framework's two representations (plain or aggregator) holds it.
-/

namespace Pictor

/-- Whether a store is an account's primary store for its token, or an object at an own address. -/
inductive StoreKind where
  | primary
  | object (address : Address)
  deriving DecidableEq, Repr

/-- `Object<FungibleStore>`. -/
structure Store where
  owner : Address
  metadata : Token
  kind : StoreKind
  deriving DecidableEq, Repr

/-- The resource under a store. -/
structure FungibleStore where
  balance : UInt64
  frozen : Bool
  deriving DecidableEq, Repr

structure FungibleAsset where
  metadata : Token
  amount : UInt64
  deriving DecidableEq, Repr

/-- Every fungible store on chain. -/
abbrev Stores := Table Store FungibleStore

/-- `DispatchFunctionStore`: the functions a token's issuer may have registered. -/
structure DispatchFunctions where
  withdraw : Option (Stores → Store → UInt64 → Result (FungibleAsset × Stores))
  deposit : Option (Stores → Store → FungibleAsset → Result Stores)

/-- What the contract's code relies on and does not define: the addresses the chain derives for it,
the tokens in existence and the signature check. -/
structure Env where
  deployer : Address
  /-- The resource account of `PICTOR_CONFIG`. -/
  configAddress : Address
  /-- The address `object::create_object` generates for the vault store. -/
  vaultObject : Address
  dispatch : Token → DispatchFunctions
  dispatchableFungibleAssetEnabled : Bool
  /-- Whether a token's metadata holds the `DeriveRefPod` that creates primary stores. -/
  primaryStoreEnabled : Token → Bool
  /-- `signature_verify_strict_internal signature publicKey message`. -/
  signatureVerifyStrict : List UInt8 → List UInt8 → List UInt8 → Bool

/-! ## `fungible_asset` -/

namespace FungibleAsset

def ESTORE_IS_FROZEN : Abort := .code .fungibleAsset (Error.permissionDenied 3)
def EINSUFFICIENT_BALANCE : Abort := .code .fungibleAsset (Error.invalidArgument 4)
def ENOT_STORE_OWNER : Abort := .code .fungibleAsset (Error.permissionDenied 8)
def EFUNGIBLE_ASSET_AND_STORE_MISMATCH : Abort :=
  .code .fungibleAsset (Error.invalidArgument 11)
def EFUNGIBLE_STORE_EXISTENCE : Abort := .code .fungibleAsset (Error.notFound 23)

/-- `balance`: zero for a store that does not exist. -/
def balance (l : Stores) (s : Store) : UInt64 := (l.lookup s).elim 0 (·.balance)

def createStore (l : Stores) (s : Store) : Result Stores :=
  l.add .missingData s { balance := 0, frozen := false }

/-- `owner` is the store's direct owner: `object::owns` has the same answer for whoever owns it at a
distance. -/
def withdrawSanityCheck (l : Stores) (owner : Address) (s : Store) : Result Unit := do
  Checked.require (s.owner = owner) ENOT_STORE_OWNER
  let faStore ← l.borrow EFUNGIBLE_STORE_EXISTENCE s
  Checked.require (faStore.frozen = false) ESTORE_IS_FROZEN

def depositSanityCheck (l : Stores) (s : Store) : Result Unit := do
  let faStore ← l.borrow EFUNGIBLE_STORE_EXISTENCE s
  Checked.require (faStore.frozen = false) ESTORE_IS_FROZEN

def withdrawInternal (l : Stores) (s : Store) (amount : UInt64) :
    Result (FungibleAsset × Stores) := do
  let store ← l.borrow EFUNGIBLE_STORE_EXISTENCE s
  if amount = 0 then
    return (⟨s.metadata, amount⟩, l)
  else
    Checked.require (amount ≤ store.balance) EINSUFFICIENT_BALANCE
    let balance ← U64.sub store.balance amount
    return (⟨s.metadata, amount⟩, l.insert s { store with balance })

def depositInternal (l : Stores) (s : Store) (fa : FungibleAsset) : Result Stores := do
  if fa.amount = 0 then
    return l
  else
    let store ← l.borrow EFUNGIBLE_STORE_EXISTENCE s
    Checked.require (fa.metadata = s.metadata) EFUNGIBLE_ASSET_AND_STORE_MISMATCH
    let balance ← U64.add store.balance fa.amount
    return l.insert s { store with balance }

end FungibleAsset

/-! ## `dispatchable_fungible_asset` -/

namespace DispatchableFungibleAsset

def EAMOUNT_MISMATCH : Abort := .code .dispatchableFungibleAsset (Error.aborted 2)
def ENOT_ACTIVATED : Abort := .code .dispatchableFungibleAsset (Error.aborted 3)

/-- Withdraw by the owner. A registered function may return what it likes, as long as the store
falls by at least `amount`. -/
def withdraw (env : Env) (l : Stores) (owner : Address) (s : Store) (amount : UInt64) :
    Result (FungibleAsset × Stores) := do
  FungibleAsset.withdrawSanityCheck l owner s
  match (env.dispatch s.metadata).withdraw with
  | some func =>
    Checked.require (env.dispatchableFungibleAssetEnabled = true) ENOT_ACTIVATED
    -- only the fall of the store's balance is checked, not the asset that is returned
    let startBalance := FungibleAsset.balance l s
    let (fa, l') ← func l s amount
    let endBalance := FungibleAsset.balance l' s
    let fallen ← U64.sub startBalance endBalance
    Checked.require (amount ≤ fallen) EAMOUNT_MISMATCH
    return (fa, l')
  | none => FungibleAsset.withdrawInternal l s amount

def deposit (env : Env) (l : Stores) (s : Store) (fa : FungibleAsset) : Result Stores := do
  FungibleAsset.depositSanityCheck l s
  match (env.dispatch s.metadata).deposit with
  | some func =>
    Checked.require (env.dispatchableFungibleAssetEnabled = true) ENOT_ACTIVATED
    func l s fa
  | none => FungibleAsset.depositInternal l s fa

end DispatchableFungibleAsset

/-! ## `primary_fungible_store` -/

namespace PrimaryFungibleStore

def primaryStore (owner : Address) (metadata : Token) : Store := ⟨owner, metadata, .primary⟩

def ensurePrimaryStoreExists (env : Env) (l : Stores) (owner : Address) (metadata : Token) :
    Result Stores := do
  if l.contains (primaryStore owner metadata) then
    return l
  else
    Checked.require (env.primaryStoreEnabled metadata = true) .missingData
    FungibleAsset.createStore l (primaryStore owner metadata)

def withdraw (env : Env) (l : Stores) (owner : Address) (metadata : Token) (amount : UInt64) :
    Result (FungibleAsset × Stores) := do
  let l ← ensurePrimaryStoreExists env l owner metadata
  DispatchableFungibleAsset.withdraw env l owner (primaryStore owner metadata) amount

def deposit (env : Env) (l : Stores) (owner : Address) (fa : FungibleAsset) : Result Stores := do
  let l ← ensurePrimaryStoreExists env l owner fa.metadata
  DispatchableFungibleAsset.deposit env l (primaryStore owner fa.metadata) fa

end PrimaryFungibleStore

/-! ## What a movement does to the balances

`TakenFrom l l' s n` and `AddedTo l l' s n` say that `l'` differs from `l`, as far as balances go,
by `n` units at the one store `s`. -/

/-- The units in a store. -/
def units (l : Stores) (s : Store) : ℕ := (FungibleAsset.balance l s).toNat

def TakenFrom (l l' : Stores) (s : Store) (n : ℕ) : Prop :=
  ∀ t, units l' t + (if t = s then n else 0) = units l t

def AddedTo (l l' : Stores) (s : Store) (n : ℕ) : Prop :=
  ∀ t, units l' t = units l t + (if t = s then n else 0)

/-- **An exact token.** Whenever its registered functions return, they have moved exactly the
requested amount of it; they may refuse to return for reasons of their own (a frozen account). -/
structure MovesExact (env : Env) (token : Token) : Prop where
  withdraw : ∀ func, (env.dispatch token).withdraw = some func → ∀ l s amount fa l',
    s.metadata = token → func l s amount = .ok (fa, l') →
      fa = ⟨token, amount⟩ ∧ TakenFrom l l' s amount.toNat
  deposit : ∀ func, (env.dispatch token).deposit = some func → ∀ l s fa l',
    s.metadata = token → fa.metadata = token → func l s fa = .ok l' →
      AddedTo l l' s fa.amount.toNat

theorem units_insert (l : Stores) (s t : Store) (v : FungibleStore) :
    units (Finmap.insert s v l) t = if t = s then v.balance.toNat else units l t := by
  unfold units FungibleAsset.balance
  rw [Table.lookup_insert_ite]
  split <;> rfl

theorem units_of_lookup {l : Stores} {s : Store} {v : FungibleStore} (h : l.lookup s = some v) :
    units l s = v.balance.toNat := by
  simp [units, FungibleAsset.balance, h]

theorem units_of_fresh {l : Stores} {s : Store} (h : l.lookup s = none) : units l s = 0 := by
  simp [units, FungibleAsset.balance, h]

/-- A store that is created is empty, so no balance changes. -/
theorem createStore_units {l l' : Stores} {s : Store} (h : FungibleAsset.createStore l s = .ok l')
    (t : Store) : units l' t = units l t := by
  obtain ⟨hfresh, rfl⟩ := Table.add_eq_ok.mp h
  rw [units_insert]
  split
  · next ht => rw [ht, units_of_fresh hfresh]; rfl
  · rfl

/-- The framework's own withdrawal is exact. -/
theorem withdrawInternal_exact {l l' : Stores} {s : Store} {amount : UInt64} {fa : FungibleAsset}
    (h : FungibleAsset.withdrawInternal l s amount = .ok (fa, l')) :
    fa = ⟨s.metadata, amount⟩ ∧ TakenFrom l l' s amount.toNat := by
  simp only [FungibleAsset.withdrawInternal, Checked.bind_eq_ok, Table.borrow_eq_ok] at h
  obtain ⟨v, hv, h⟩ := h
  split at h
  · next h0 =>
    simp only [Checked.pure_eq_ok, Prod.mk.injEq] at h
    obtain ⟨rfl, rfl⟩ := h
    refine ⟨rfl, fun t => ?_⟩
    simp [h0]
  · simp only [Checked.bind_eq_ok, Checked.require_eq_ok, U64.sub_eq_ok, Checked.pure_eq_ok,
      Prod.mk.injEq, exists_const] at h
    obtain ⟨-, b, hb, rfl, rfl⟩ := h
    refine ⟨rfl, fun t => ?_⟩
    rw [units_insert]
    split
    · next ht => rw [ht, units_of_lookup hv, hb]
    · rfl

/-- The framework's own deposit is exact. -/
theorem depositInternal_exact {l l' : Stores} {s : Store} {fa : FungibleAsset}
    (h : FungibleAsset.depositInternal l s fa = .ok l') : AddedTo l l' s fa.amount.toNat := by
  unfold FungibleAsset.depositInternal at h
  split at h
  · next h0 =>
    simp only [Checked.pure_eq_ok] at h
    subst h
    intro t
    simp [h0]
  · simp only [Checked.bind_eq_ok, Table.borrow_eq_ok, Checked.require_eq_ok, U64.add_eq_ok,
      Checked.pure_eq_ok, exists_const] at h
    obtain ⟨v, hv, -, b, hb, rfl⟩ := h
    intro t
    rw [units_insert]
    split
    · next ht => rw [ht, units_of_lookup hv, hb]
    · rfl

/-- A token that registers no function is exact. -/
theorem movesExact_of_no_dispatch {env : Env} {token : Token}
    (hw : (env.dispatch token).withdraw = none) (hd : (env.dispatch token).deposit = none) :
    MovesExact env token where
  withdraw := by
    intro func hf
    rw [hw] at hf
    cases hf
  deposit := by
    intro func hf
    rw [hd] at hf
    cases hf

section Exact

variable {env : Env} {token : Token}

/-- **Withdrawing an exact token** hands over the requested amount and takes it from the store. -/
theorem dispatchable_withdraw_exact (hx : MovesExact env token) {l l' : Stores} {owner : Address}
    {s : Store} {amount : UInt64} {fa : FungibleAsset} (hs : s.metadata = token)
    (h : DispatchableFungibleAsset.withdraw env l owner s amount = .ok (fa, l')) :
    fa = ⟨token, amount⟩ ∧ TakenFrom l l' s amount.toNat := by
  simp only [DispatchableFungibleAsset.withdraw, Checked.bind_eq_ok] at h
  obtain ⟨-, -, h⟩ := h
  split at h
  · next func hf =>
    simp only [Checked.bind_eq_ok, Checked.require_eq_ok, Checked.pure_eq_ok, Prod.mk.injEq,
      exists_const] at h
    obtain ⟨-, ⟨fa', l''⟩, hfunc, -, -, -, rfl, rfl⟩ := h
    exact hx.withdraw func (hs ▸ hf) l s amount fa' l'' hs hfunc
  · exact hs ▸ withdrawInternal_exact h

/-- **Depositing an exact token** adds the amount to the store. -/
theorem dispatchable_deposit_exact (hx : MovesExact env token) {l l' : Stores} {s : Store}
    {fa : FungibleAsset} (hs : s.metadata = token) (hfa : fa.metadata = token)
    (h : DispatchableFungibleAsset.deposit env l s fa = .ok l') :
    AddedTo l l' s fa.amount.toNat := by
  simp only [DispatchableFungibleAsset.deposit, Checked.bind_eq_ok] at h
  obtain ⟨-, -, h⟩ := h
  split at h
  · next func hf =>
    simp only [Checked.bind_eq_ok, Checked.require_eq_ok, exists_const] at h
    exact hx.deposit func (hs ▸ hf) l s fa l' hs hfa h.2
  · exact depositInternal_exact h

theorem ensurePrimaryStoreExists_units {l l' : Stores} {owner : Address} {metadata : Token}
    (h : PrimaryFungibleStore.ensurePrimaryStoreExists env l owner metadata = .ok l') (t : Store) :
    units l' t = units l t := by
  unfold PrimaryFungibleStore.ensurePrimaryStoreExists at h
  split at h
  · simp only [Checked.pure_eq_ok] at h
    rw [h]
  · simp only [Checked.bind_eq_ok] at h
    obtain ⟨-, -, h⟩ := h
    exact createStore_units h t

theorem primary_withdraw_exact (hx : MovesExact env token) {l l' : Stores} {owner : Address}
    {amount : UInt64} {fa : FungibleAsset}
    (h : PrimaryFungibleStore.withdraw env l owner token amount = .ok (fa, l')) :
    fa = ⟨token, amount⟩ ∧
      TakenFrom l l' (PrimaryFungibleStore.primaryStore owner token) amount.toNat := by
  simp only [PrimaryFungibleStore.withdraw, Checked.bind_eq_ok] at h
  obtain ⟨l₁, h₁, h⟩ := h
  obtain ⟨hfa, htaken⟩ := dispatchable_withdraw_exact hx rfl h
  refine ⟨hfa, fun t => ?_⟩
  rw [htaken t, ensurePrimaryStoreExists_units h₁ t]

theorem primary_deposit_exact (hx : MovesExact env token) {l l' : Stores} {owner : Address}
    {amount : UInt64}
    (h : PrimaryFungibleStore.deposit env l owner ⟨token, amount⟩ = .ok l') :
    AddedTo l l' (PrimaryFungibleStore.primaryStore owner token) amount.toNat := by
  simp only [PrimaryFungibleStore.deposit, Checked.bind_eq_ok] at h
  obtain ⟨l₁, h₁, h⟩ := h
  have hadd := dispatchable_deposit_exact hx rfl rfl h
  intro t
  rw [hadd t, ensurePrimaryStoreExists_units h₁ t]

end Exact

end Pictor
