import Pictor.Property.Ledger
import Pictor.Property.Registry

/-!
# Claims and the table of credit requests

A claim is accepted if its request id is fresh and its signature verifies. The table of credit
requests then *is* the history of claims: an entry is there exactly when the claim that made it has
succeeded. Replay protection and the total of a user's claims are read off that correspondence; the
signature check plays no part in it, so neither does the admin key, which may change at any time.

The signature check is to tie each claim to an approval. The signed message runs amount and request
id together without a delimiter, so what it ties the claim to is the digits of both: an approval of
amount 1 for request 23 is also one of amount 12 for request 3.
-/

namespace Pictor

variable {env : Env} {P : Token} {treasury : Address} {pk : List UInt8} {w w' : World}

/-! ## Approvals -/

/-- What the admin approves by signing a message. -/
structure Approval where
  user : Address
  amount : UInt64
  requestId : UInt64
  deriving DecidableEq, Repr

/-- The message that `claim_credit` builds for it. -/
def Approval.message (p : Approval) : List UInt8 := claimMessage p.amount p.requestId p.user

/-- What an approval has in common with a claim that has the same message. -/
theorem Approval.message_eq_iff {p : Approval} {amount r : UInt64} {u : Address} :
    p.message = claimMessage amount r u ↔
      p.user = u ∧ claimDigits p.amount p.requestId = claimDigits amount r :=
  claimMessage_eq_iff

/-- A signer that signs exactly the messages of `A`. -/
def approvingEnv (A : Finset Approval) : Env :=
  { testEnv with signatureVerifyStrict := fun _ _ m => decide (∃ p ∈ A, p.message = m) }

theorem approvingEnv_justInitialised (A : Finset Approval) :
    JustInitialised (approvingEnv A) usdt 0xcafe testAdminPubkey testWorld :=
  have hfresh : testStores.lookup (PictorConfig.vaultStore testEnv usdt) = none := by decide
  justInitialised_iff.mpr ⟨testStores, hfresh, rfl⟩

/-! ## The table of credit requests -/

/-- The request an action claims. -/
def claimOf : Action → Option (UInt64 × CreditRequest)
  | .txn a (.claimCredit amount r _) => some (r, ⟨a, amount⟩)
  | _ => none

/-- How many claims of request `r` an action is: one or none. -/
def claimsOf (r : UInt64) (_ : World) (act : Action) : ℕ :=
  if ((claimOf act).map Prod.fst) = some r then 1 else 0

/-- The sum of the amounts of `u`'s entries. -/
def requested (w : World) (u : Address) : ℕ :=
  Table.sum w.creditRequests fun _ c => if c.userAddr = u then c.amount.toNat else 0

theorem newRequest_eq_some {act : Action} {r : UInt64} {c : CreditRequest} :
    newRequest act r = some c ↔ claimOf act = some (r, c) := by
  cases act with
  | outside l' => simp [newRequest, claimOf]
  | txn a call =>
    cases call with
    | claimCredit amount k signature =>
      simp only [newRequest, claimOf, Option.some.injEq, Prod.mk.injEq]
      split
      · next hr => simp [hr]
      · next hr => simp [Ne.symm hr]
    | _ => simp [newRequest, claimOf]

theorem claimOf_eq_some {act : Action} {r : UInt64} {c : CreditRequest}
    (h : claimOf act = some (r, c)) :
    ∃ signature, act = .txn c.userAddr (.claimCredit c.amount r signature) := by
  unfold claimOf at h
  split at h
  · next signature =>
    cases h
    exact ⟨signature, rfl⟩
  · cases h

/-- An accepted claim finds its request id free. -/
theorem creditRequest_of_claim {act : Action} {r : UInt64} {c : CreditRequest}
    (h : exec env w act = .ok w') (hact : claimOf act = some (r, c)) :
    w.creditRequest r = none := by
  obtain ⟨signature, rfl⟩ := claimOf_eq_some hact
  exact (exec_accepted h).1

/-- **One step of the table**: an entry was there, or the step claims it. -/
theorem creditRequest_step {act : Action} (h : exec env w act = .ok w') (r : UInt64)
    (c : CreditRequest) :
    w'.creditRequest r = some c ↔ w.creditRequest r = some c ∨ claimOf act = some (r, c) := by
  rw [(exec_effect h).creditRequest, Option.or_eq_some_iff, newRequest_eq_some]
  constructor
  · rintro (hold | ⟨-, hnew⟩)
    · exact .inl hold
    · exact .inr hnew
  · rintro (hold | hnew)
    · exact .inl hold
    · exact .inr ⟨creditRequest_of_claim h hnew, hnew⟩

/-- The entries are the claims of the run. -/
theorem creditRequest_run {w₀ : World} (h₀ : JustInitialised env P treasury pk w₀)
    (as : List Action) (r : UInt64) (c : CreditRequest) :
    (run env w₀ as).creditRequest r = some c ↔
      ∃ e ∈ history env w₀ as, claimOf e.act = some (r, c) := by
  refine Transactions.run_induction
    (I := fun h (w : World) => w.creditRequest r = some c ↔ ∃ e ∈ h, claimOf e.act = some (r, c))
    ?_ ?_ as
  · obtain ⟨l, -, rfl⟩ := justInitialised_iff.mp h₀
    constructor
    · intro hnone
      cases hnone
    · rintro ⟨e, he, -⟩
      cases he
  · intro h w act w' hI hstep
    -- the step's own claim, if it is one, is the last event
    rw [creditRequest_step hstep, hI]
    constructor
    · rintro (⟨e, he, hclaim⟩ | hclaim)
      · exact ⟨e, List.mem_append_left _ he, hclaim⟩
      · exact ⟨⟨w, act, w'⟩, List.mem_append_right _ (List.mem_singleton.mpr rfl), hclaim⟩
    · rintro ⟨e, he, hclaim⟩
      rcases List.mem_append.mp he with he | he
      · exact .inl ⟨e, he, hclaim⟩
      · rw [List.mem_singleton.mp he] at hclaim
        exact .inr hclaim

/-- A request id is claimed once. -/
theorem claimsOf_le_one {w₀ : World} (as : List Action) (r : UInt64) :
    total (claimsOf r) (history env w₀ as) ≤ 1 := by
  refine Transactions.total_le_one (C := fun _ _ => True) (fun w => (w.creditRequest r).isSome)
    ?_ ?_ w₀ as (fun _ _ => trivial)
  · intro w act w' _ h
    by_cases hact : (claimOf act).map Prod.fst = some r
    · obtain ⟨⟨r', c⟩, hclaim, rfl⟩ := Option.map_eq_some_iff.mp hact
      refine .inr ⟨if_pos hact, ?_, ?_⟩
      · rw [creditRequest_of_claim h hclaim]
        rfl
      · rw [(creditRequest_step h _ c).mpr (.inr hclaim)]
        rfl
    · exact .inl (if_neg hact)
  · intro w act w' h hset
    obtain ⟨c, hc⟩ := Option.isSome_iff_exists.mp hset
    rw [(exec_extends h).creditRequest r c hc]
    rfl

theorem creditRequests_of_no_claim {act : Action} (h : exec env w act = .ok w')
    (hact : claimOf act = none) : w'.creditRequests = w.creditRequests := by
  apply Finmap.ext_lookup
  intro r
  apply Option.ext
  intro c
  have hstep : w'.creditRequests.lookup r = some c ↔
      w.creditRequests.lookup r = some c ∨ claimOf act = some (r, c) := creditRequest_step h r c
  rw [hstep, hact]
  simp

theorem creditRequests_of_claim {act : Action} {r : UInt64} {c : CreditRequest}
    (h : exec env w act = .ok w') (hact : claimOf act = some (r, c)) :
    w'.creditRequests = Finmap.insert r c w.creditRequests := by
  have hfresh : w.creditRequests.lookup r = none := creditRequest_of_claim h hact
  apply Finmap.ext_lookup
  intro k
  rw [Table.lookup_insert_of_fresh hfresh]
  show w'.creditRequest k = _
  rw [(exec_effect h).creditRequest]
  have hnew : newRequest act k = if k = r then some c else none := by
    obtain ⟨signature, rfl⟩ := claimOf_eq_some hact
    rfl
  rw [hnew]
  rfl

/-- What a step adds to the sum of `u`'s entries is what it adds to her credit. -/
theorem requested_step {act : Action} (h : exec env w act = .ok w') (u : Address) :
    requested w' u = requested w u + claimed u w act := by
  cases hclaim : claimOf act with
  | none =>
    have hzero : claimed u w act = 0 := by
      unfold claimed
      split
      · cases hclaim
      · rfl
    rw [requested, requested, creditRequests_of_no_claim h hclaim, hzero, Nat.add_zero]
  | some p =>
    obtain ⟨r, c⟩ := p
    have hfresh := creditRequest_of_claim h hclaim
    have hamount : claimed u w act = if c.userAddr = u then c.amount.toNat else 0 := by
      obtain ⟨signature, rfl⟩ := claimOf_eq_some hclaim
      rfl
    rw [requested, requested, creditRequests_of_claim h hclaim, hamount,
      Table.sum_insert_of_fresh hfresh]

theorem requested_run {w₀ : World} (h₀ : JustInitialised env P treasury pk w₀) (as : List Action)
    (u : Address) : requested (run env w₀ as) u = total (claimed u) (history env w₀ as) := by
  have hnil : requested w₀ u = 0 := by
    obtain ⟨l, -, rfl⟩ := justInitialised_iff.mp h₀
    exact Table.sum_empty _
  exact growth_law (fun w => requested w u) (claimed u) hnil (fun _ _ _ h => requested_step h u) as

/-- **No claim is replayed or lost**, whoever claims and whatever the admin key is meanwhile. -/
theorem claims_exactly_once {w₀ : World} (h₀ : JustInitialised env P treasury pk w₀)
    (as : List Action) :
    (∀ r, total (claimsOf r) (history env w₀ as) ≤ 1) ∧
    (∀ r c, (run env w₀ as).creditRequest r = some c ↔
      ∃ e ∈ history env w₀ as, claimOf e.act = some (r, c)) ∧
    (∀ u, requested (run env w₀ as) u = total (claimed u) (history env w₀ as)) ∧
    (∀ e ∈ history env w₀ as, ∀ r c, claimOf e.act = some (r, c) →
      e.post.credit c.userAddr = e.pre.credit c.userAddr + c.amount.toNat) ∧
    ∀ a amount r signature e,
      exec env (run env w₀ as) (.txn a (.claimCredit amount r signature)) = .error e →
      run env w₀ (as ++ [.txn a (.claimCredit amount r signature)]) = run env w₀ as := by
  refine ⟨claimsOf_le_one as, creditRequest_run h₀ as, requested_run h₀ as, ?_, ?_⟩
  · intro e he r c hclaim
    obtain ⟨signature, hact⟩ := claimOf_eq_some hclaim
    have hstep := exec_of_mem_history he
    rw [hact] at hstep
    exact credit_of_claimCredit hstep
  · intro a amount r signature e herr
    rw [run_append]
    exact Transactions.next_of_error herr

def testApproval : Finset Approval := {⟨0xdead, 1, 23⟩}

/-- The same claim is submitted twice. -/
def repeatedClaim : List Action :=
  [.txn 0xdead (.claimCredit 1 23 (List.replicate 64 0)),
    .txn 0xdead (.claimCredit 1 23 (List.replicate 64 0))]

theorem claims_exactly_once_test :
    total (claimsOf 23) (history (approvingEnv testApproval) testWorld repeatedClaim) ≤ 1 :=
  (claims_exactly_once (approvingEnv_justInitialised testApproval) repeatedClaim).1 23

/-! ## Claims and approvals -/

/-- The idealised signature: a signature verifies under `pk` only on a message of `A`. -/
def SignsOnly (env : Env) (pk : List UInt8) (A : Finset Approval) : Prop :=
  ∀ signature m, env.signatureVerifyStrict signature pk m = true → ∃ p ∈ A, p.message = m

/-- Every claim of every run under the admin key is one of the approvals `A`, and nobody claims more
than has been approved for her. -/
def ClaimsApproved (A : Finset Approval) : Prop :=
  ∀ env P treasury pk w₀ as, SignsOnly env pk A → JustInitialised env P treasury pk w₀ →
    (∀ e ∈ history env w₀ as, e.pre.adminPubkey = pk) →
    (∀ e ∈ history env w₀ as, ∀ r c, claimOf e.act = some (r, c) → ⟨c.userAddr, c.amount, r⟩ ∈ A) ∧
    ∀ u, total (claimed u) (history env w₀ as) ≤ ∑ p ∈ A with p.user = u, p.amount.toNat

/-- With an approval, `A` has every other one for the same user whose digits run together to the
same string. -/
def SplitClosed (A : Finset Approval) : Prop :=
  ∀ p ∈ A, ∀ amount r, claimDigits amount r = claimDigits p.amount p.requestId →
    ⟨p.user, amount, r⟩ ∈ A

/-- An accepted claim is, up to the split of its digits, an approval. -/
theorem approval_of_claim {A : Finset Approval} (hsign : SignsOnly env pk A)
    (hkey : w.adminPubkey = pk) {act : Action} (h : exec env w act = .ok w') {r : UInt64}
    {c : CreditRequest} (hact : claimOf act = some (r, c)) :
    ∃ p ∈ A, p.user = c.userAddr ∧ claimDigits c.amount r = claimDigits p.amount p.requestId := by
  obtain ⟨signature, rfl⟩ := claimOf_eq_some hact
  obtain ⟨-, hverify⟩ := exec_accepted h
  rw [hkey] at hverify
  obtain ⟨p, hp, hmessage⟩ := hsign _ _ hverify
  obtain ⟨huser, hdigits⟩ := Approval.message_eq_iff.mp hmessage
  exact ⟨p, hp, huser, hdigits.symm⟩

/-- If the entries of the table are approvals, their amounts are within the approved ones: entries
have different request ids, so they are different approvals. -/
theorem requested_le {A : Finset Approval}
    (hentries : ∀ r c, w.creditRequest r = some c → ⟨c.userAddr, c.amount, r⟩ ∈ A) (u : Address) :
    requested w u ≤ ∑ p ∈ A with p.user = u, p.amount.toNat := by
  -- sum over the approvals instead: to each request id of `u` belongs one of them
  let ids := A.image Approval.requestId
  have hkeys : w.creditRequests.keys ⊆ ids := by
    intro r hr
    obtain ⟨c, hc⟩ := Table.mem_keys_iff.mp hr
    exact Finset.mem_image.mpr ⟨_, hentries r c hc, rfl⟩
  rw [requested, Table.sum_eq_of_subset hkeys]
  have hfiber : ∀ r ∈ ids, w.creditRequests.weight
      (fun _ c => if c.userAddr = u then c.amount.toNat else 0) r ≤
      ∑ p ∈ (A.filter (fun p => p.user = u)).filter (fun p => p.requestId = r),
        p.amount.toNat := by
    intro r _
    cases hc : w.creditRequests.lookup r with
    | none =>
      rw [Table.weight, hc]
      exact Nat.zero_le _
    | some c =>
      rw [Table.weight_of_lookup hc]
      split
      · next hu =>
        refine Finset.single_le_sum (f := fun p : Approval => p.amount.toNat)
          (fun _ _ => Nat.zero_le _) (a := ⟨c.userAddr, c.amount, r⟩) ?_
        simp only [Finset.mem_filter]
        exact ⟨⟨hentries r c hc, hu⟩, trivial⟩
      · exact Nat.zero_le _
  -- every approval is counted under its own request id
  refine (Finset.sum_le_sum hfiber).trans_eq ?_
  apply Finset.sum_fiberwise_of_maps_to
  intro p hp
  exact Finset.mem_image_of_mem _ (Finset.mem_filter.mp hp).1

/-- Closure under splitting is enough. -/
theorem claimsApproved_of_splitClosed {A : Finset Approval} (hA : SplitClosed A) :
    ClaimsApproved A := by
  intro env P treasury pk w₀ as hsign h₀ hkey
  have hclaims : ∀ e ∈ history env w₀ as, ∀ r c, claimOf e.act = some (r, c) →
      ⟨c.userAddr, c.amount, r⟩ ∈ A := by
    intro e he r c hclaim
    obtain ⟨p, hp, huser, hdigits⟩ :=
      approval_of_claim hsign (hkey e he) (exec_of_mem_history he) hclaim
    rw [← huser]
    exact hA p hp c.amount r hdigits
  refine ⟨hclaims, fun u => ?_⟩
  rw [← requested_run h₀]
  apply requested_le
  intro r c hc
  obtain ⟨e, he, hclaim⟩ := (creditRequest_run h₀ as r c).mp hc
  exact hclaims e he r c hclaim

theorem approvingEnv_signsOnly (A : Finset Approval) (pk : List UInt8) :
    SignsOnly (approvingEnv A) pk A := by
  intro signature m h
  exact of_decide_eq_true h

/-- In the initial state a claim whose message is signed is accepted. -/
theorem claim_accepted {A : Finset Approval} {u : Address} {amount r : UInt64}
    (h : ∃ p ∈ A, p.message = claimMessage amount r u) :
    ∃ w', exec (approvingEnv A) testWorld
      (.txn u (.claimCredit amount r (List.replicate 64 0))) = .ok w' := by
  have hverify : (approvingEnv A).signatureVerifyStrict (List.replicate 64 0) testAdminPubkey
      (claimMessage amount r u) = true := decide_eq_true h
  simp only [exec, execCall, PictorNetwork.claimCredit, Checked.bind_eq_ok,
    PictorNetwork.registerUserInternal_eq_ok, PictorNetwork.globalData_eq_ok, Checked.require_eq_ok,
    PictorConfig.getAdminPubkey, PictorConfig.getConfig_eq_ok,
    Ed25519.newUnvalidatedPublicKeyFromBytes, Ed25519.newSignatureFromBytes, Table.borrow_eq_ok,
    U64.add_eq_ok, Table.add_eq_ok, Checked.pure_eq_ok, exists_const]
  refine ⟨_, _, ⟨rfl, rfl⟩, _, rfl, Bool.false_ne_true, _, ⟨_, rfl, rfl⟩, _, ⟨rfl, rfl⟩, _,
    ⟨List.length_replicate, rfl⟩, hverify, PictorNetwork.newUser, Finmap.lookup_insert _, amount,
    ?_, _, ⟨Finmap.lookup_empty _, rfl⟩, rfl⟩
  exact (Nat.zero_add _).symm

/-- Closure under splitting is necessary: the signature of an approval is good for its other splits,
and the first claim of the run may use it so. -/
theorem splitClosed_of_claimsApproved {A : Finset Approval} (hA : ClaimsApproved A) :
    SplitClosed A := by
  intro p hp amount r hdigits
  have hmessage : p.message = claimMessage amount r p.user :=
    Approval.message_eq_iff.mpr ⟨rfl, hdigits.symm⟩
  obtain ⟨w', hstep⟩ := claim_accepted ⟨p, hp, hmessage⟩
  have hhist : history (approvingEnv A) testWorld
      [.txn p.user (.claimCredit amount r (List.replicate 64 0))] =
      [⟨testWorld, .txn p.user (.claimCredit amount r (List.replicate 64 0)), w'⟩] :=
    Transactions.history_cons_ok hstep []
  obtain ⟨hclaims, -⟩ := hA (approvingEnv A) usdt 0xcafe testAdminPubkey testWorld
    [.txn p.user (.claimCredit amount r (List.replicate 64 0))]
    (approvingEnv_signsOnly A testAdminPubkey) (approvingEnv_justInitialised A)
    (by rw [hhist]; simp [testWorld, initialWorld, initialConfig, World.adminPubkey])
  rw [hhist] at hclaims
  exact hclaims _ (List.mem_singleton.mpr rfl) r ⟨p.user, amount⟩ rfl

/-- **When claims are exactly the approved ones.** -/
theorem claims_approved_iff (A : Finset Approval) : ClaimsApproved A ↔ SplitClosed A :=
  ⟨splitClosed_of_claimsApproved, claimsApproved_of_splitClosed⟩

/-- **An approval is good for another amount.** -/
theorem claim_of_other_amount :
    claimMessage 1 23 0xdead = claimMessage 12 3 0xdead ∧
      (run (approvingEnv testApproval) testWorld
        [.txn 0xdead (.claimCredit 12 3 (List.replicate 64 0))]).credit 0xdead = 12 ∧
      ¬ ClaimsApproved testApproval := by
  refine ⟨by decide, by decide, ?_⟩
  intro hA
  have hmem := splitClosed_of_claimsApproved hA ⟨0xdead, 1, 23⟩ (by decide) 12 3 (by decide)
  exact absurd hmem (by decide)

/-! ## Claims of other users -/

/-- The idealised signature of one key: what verifies on a message that `claim_credit` builds has
been issued for an approval with that message. Of other messages nothing is asked. -/
def Unforgeable (env : Env) (pk : List UInt8) (issued : List UInt8 → Approval → Prop) : Prop :=
  ∀ signature amount r v,
    env.signatureVerifyStrict signature pk (claimMessage amount r v) = true →
      ∃ p, issued signature p ∧ p.message = claimMessage amount r v

/-- **An approval is useless to others**: messages that agree name the same user, so in every run,
however the admin key changes, a claim that succeeds for `v` uses a signature that was issued under
the key of the moment for an approval of `v`. -/
theorem approval_bound_to_user {issued : List UInt8 → List UInt8 → Approval → Prop} (w₀ : World)
    (as : List Action)
    (hsign : ∀ e ∈ history env w₀ as,
      Unforgeable env e.pre.adminPubkey (issued e.pre.adminPubkey)) :
    (∀ u v a a' r r', claimMessage a r u = claimMessage a' r' v →
      u = v ∧ claimDigits a r = claimDigits a' r') ∧
    ∀ e ∈ history env w₀ as, ∀ v amount r signature,
      e.act = .txn v (.claimCredit amount r signature) →
      ∃ p, issued e.pre.adminPubkey signature p ∧ p.user = v ∧
        claimDigits p.amount p.requestId = claimDigits amount r := by
  refine ⟨fun u v a a' r r' h => claimMessage_eq_iff.mp h, ?_⟩
  intro e he v amount r signature hact
  have haccepted := exec_accepted (exec_of_mem_history he)
  rw [hact] at haccepted
  obtain ⟨-, hverify⟩ := haccepted
  obtain ⟨p, hissued, hmessage⟩ := hsign e he signature amount r v hverify
  exact ⟨p, hissued, Approval.message_eq_iff.mp hmessage⟩

/-- The approvals of `testApproval`, whatever the signature looks like. -/
def testIssued (_ _ : List UInt8) (p : Approval) : Prop := p ∈ testApproval

/-- The claim of an approval. -/
theorem approval_bound_to_user_test :
    ∃ p ∈ testApproval, p.user = 0xdead ∧
      claimDigits p.amount p.requestId = claimDigits 1 23 := by
  have hsign : ∀ pk, Unforgeable (approvingEnv testApproval) pk (testIssued pk) := by
    intro pk signature amount r v h
    have hmessage : ∃ p ∈ testApproval, p.message = claimMessage amount r v := of_decide_eq_true h
    exact hmessage
  obtain ⟨w', hstep⟩ := claim_accepted (A := testApproval) (u := 0xdead)
    ⟨_, Finset.mem_singleton_self _, rfl⟩
  have hhist : history (approvingEnv testApproval) testWorld
      [.txn 0xdead (.claimCredit 1 23 (List.replicate 64 0))] =
      [⟨testWorld, .txn 0xdead (.claimCredit 1 23 (List.replicate 64 0)), w'⟩] :=
    Transactions.history_cons_ok hstep []
  exact (approval_bound_to_user testWorld _ fun e _ => hsign e.pre.adminPubkey).2 _
    (by rw [hhist]; exact List.mem_singleton.mpr rfl) 0xdead 1 23 _ rfl

end Pictor
