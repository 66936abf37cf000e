import Pictor.Property.Authority

/-!
# The operators

A vector used as a set. `add_operator` keeps it free of repetitions, so the one occurrence that
`remove_operator` takes out is the only one, and membership follows the calls: an address is an
operator iff the last successful call that names it added it.
-/

namespace Pictor

variable {env : Env} {P : Token} {treasury : Address} {pk : List UInt8} {w w' : World}

/-- Whether an action makes `x` an operator, or takes the right back. -/
def operatorChange (x : Address) : Action → Option Bool
  | .txn _ (.addOperator y) => if y = x then some true else none
  | .txn _ (.removeOperator y) => if y = x then some false else none
  | _ => none

/-- The abort with which a function that is for operators only refuses another signer. -/
def operatorGuard : Call → Option Abort
  | .withdrawToTreasury _ _ => some PictorConfig.ENOT_AUTHORIZED
  | .opRegisterWorker _ _ => some PictorNetwork.ENOT_AUTHORIZED
  | .opCreateJob _ _ => some PictorNetwork.ENOT_AUTHORIZED
  | .opAddTask _ _ _ _ _ _ => some PictorNetwork.ENOT_AUTHORIZED
  | .opCompleteJob _ _ => some PictorNetwork.ENOT_AUTHORIZED
  | .opCreditUser _ _ => some PictorNetwork.ENOT_AUTHORIZED
  | .opDebitUser _ _ => some PictorNetwork.ENOT_AUTHORIZED
  | _ => none

/-! ## One step -/

/-- The vector after an action, given the vector before. -/
def operatorsAfter : Action → List Address → List Address
  | .txn _ (.addOperator a), ops => if MoveVector.contains ops a then ops else ops ++ [a]
  | .txn _ (.removeOperator a), ops => ops.erase a
  | _, ops => ops

theorem operators_cases (act : Action) :
    (∃ s a, act = .txn s (.addOperator a)) ∨ (∃ s a, act = .txn s (.removeOperator a)) ∨
      (∀ ops, operatorsAfter act ops = ops) ∧ ∀ x, operatorChange x act = none := by
  cases act with
  | outside l' => exact .inr (.inr ⟨fun _ => rfl, fun _ => rfl⟩)
  | txn s call =>
    cases call with
    | addOperator a => exact .inl ⟨s, a, rfl⟩
    | removeOperator a => exact .inr (.inl ⟨s, a, rfl⟩)
    | _ => exact .inr (.inr ⟨fun _ => rfl, fun _ => rfl⟩)

theorem operators_step (hc : Configured env P treasury w) {act : Action}
    (h : exec env w act = .ok w') : w'.operators = operatorsAfter act w.operators := by
  obtain ⟨c, hcfg, -⟩ := hc
  have haccepted := exec_accepted h
  have hconfig := (exec_effect h).config
  rw [hcfg] at hconfig
  rw [World.operators, World.operators, hconfig, hcfg]
  cases act with
  | outside l' => rfl
  | txn s call =>
    cases call with
    | initializeConfig =>
      -- a second initialisation is refused
      obtain ⟨-, hnone⟩ := haccepted
      rw [hcfg] at hnone
      cases hnone
    | addOperator a => simp [configAfter, operatorsAfter]
    | _ => rfl

theorem nodup_operatorsAfter {ops : List Address} (hn : ops.Nodup) (act : Action) :
    (operatorsAfter act ops).Nodup := by
  rcases operators_cases act with ⟨s, a, rfl⟩ | ⟨s, a, rfl⟩ | ⟨hsame, -⟩
  · show (if MoveVector.contains ops a then ops else ops ++ [a]).Nodup
    split
    · exact hn
    · next ha =>
      rw [MoveVector.contains_iff] at ha
      exact hn.append (List.nodup_singleton a) (List.disjoint_singleton.mpr ha)
  · exact hn.erase a
  · rw [hsame]
    exact hn

/-- **Membership follows the call.** Without repetitions, the occurrence that is erased is the only
one. -/
theorem mem_operatorsAfter {ops : List Address} (hn : ops.Nodup) (act : Action) (x : Address) :
    decide (x ∈ operatorsAfter act ops) = (operatorChange x act).getD (decide (x ∈ ops)) := by
  rcases operators_cases act with ⟨s, a, rfl⟩ | ⟨s, a, rfl⟩ | ⟨hsame, hnone⟩
  · have hmem : x ∈ operatorsAfter (.txn s (.addOperator a)) ops ↔ a = x ∨ x ∈ ops := by
      show x ∈ (if MoveVector.contains ops a then ops else ops ++ [a]) ↔ _
      split
      · next ha => exact (or_iff_right_of_imp fun hx => hx ▸ MoveVector.contains_iff.mp ha).symm
      · rw [List.mem_append, List.mem_singleton, or_comm, eq_comm]
    simp only [hmem, operatorChange]
    split
    · next hx => simp [hx]
    · next hx => simp [hx]
  · have hmem : x ∈ operatorsAfter (.txn s (.removeOperator a)) ops ↔ x ≠ a ∧ x ∈ ops :=
      hn.mem_erase_iff
    simp only [hmem, operatorChange]
    split
    · next hx => simp [hx]
    · next hx => simp [Ne.symm hx]
  · rw [hsame, hnone, Option.getD_none]

/-- What holds of the operators in every state of a run. -/
theorem operators_preserved (env : Env) (P : Token) (treasury : Address) :
    Transactions.Preserved (exec env)
      (fun w => Configured env P treasury w ∧ w.operators.Nodup) := by
  rintro w act w' ⟨hc, hn⟩ h
  refine ⟨configured_preserved env P treasury w act w' hc h, ?_⟩
  rw [operators_step hc h]
  exact nodup_operatorsAfter hn act

theorem isOperator_eq (hc : Configured env P treasury w) (x : Address) :
    PictorConfig.isOperator w x = .ok (decide (x ∈ w.operators)) := by
  obtain ⟨c, hcfg, -⟩ := hc
  have hw : w.operators = c.operators := by rw [World.operators, hcfg]; rfl
  rw [PictorConfig.isOperator, PictorConfig.getConfig, hcfg, hw]
  refine congrArg Except.ok ?_
  rw [Bool.eq_iff_iff, MoveVector.contains_iff, decide_eq_true_iff]

/-- **A signer who is not an operator is refused** by every function that is for operators, before
anything else is looked at. -/
theorem exec_of_not_operator (hc : Configured env P treasury w) {x : Address}
    (hx : x ∉ w.operators) {call : Call} {e : Abort} (hcall : operatorGuard call = some e) :
    exec env w (.txn x call) = .error e := by
  have hop : PictorConfig.isOperator w x = .ok false := by
    rw [isOperator_eq hc, decide_eq_false hx]
  have hassert : PictorNetwork.assertIsOperator w x = .error PictorNetwork.ENOT_AUTHORIZED := by
    rw [PictorNetwork.assertIsOperator, hop]
    rfl
  unfold operatorGuard at hcall
  split at hcall
  · cases hcall
    rw [exec, execCall, PictorConfig.withdrawToTreasury, hop]
    rfl
  · cases hcall
    rw [exec, execCall, PictorNetwork.opRegisterWorker, hassert, Checked.error_bind]
  · cases hcall
    rw [exec, execCall, PictorNetwork.opCreateJob, hassert, Checked.error_bind]
  · cases hcall
    rw [exec, execCall, PictorNetwork.opAddTask, hassert, Checked.error_bind]
  · cases hcall
    rw [exec, execCall, PictorNetwork.opCompleteJob, hassert, Checked.error_bind]
  · cases hcall
    rw [exec, execCall, PictorNetwork.opCreditUser, hassert, Checked.error_bind]
  · cases hcall
    rw [exec, execCall, PictorNetwork.opDebitUser, hassert, Checked.error_bind]
  · cases hcall

/-! ## Over a run -/

section Run

variable {w₀ : World}

theorem operators_initial (h₀ : JustInitialised env P treasury pk w₀) :
    Configured env P treasury w₀ ∧ w₀.operators = [] := by
  refine ⟨configured_initial h₀, ?_⟩
  obtain ⟨l, -, rfl⟩ := justInitialised_iff.mp h₀
  rfl

theorem operators_run (h₀ : JustInitialised env P treasury pk w₀) (as : List Action) :
    Configured env P treasury (run env w₀ as) ∧ (run env w₀ as).operators.Nodup := by
  obtain ⟨hc, hnil⟩ := operators_initial h₀
  have hn : w₀.operators.Nodup := by
    rw [hnil]
    exact List.nodup_nil
  exact Transactions.invariant (operators_preserved env P treasury) ⟨hc, hn⟩ as

/-- Who is an operator after a run, from any state of another one: the last change decides. -/
theorem mem_operators_run (hc : Configured env P treasury w) (hn : w.operators.Nodup)
    (as : List Action) (x : Address) :
    decide (x ∈ (run env w as).operators) =
      (Transactions.lastChange (operatorChange x) (history env w as)).getD
        (decide (x ∈ w.operators)) := by
  refine Transactions.last_change_wins (operators_preserved env P treasury)
    (q := fun w => decide (x ∈ w.operators)) ?_ ⟨hc, hn⟩ as
  rintro w act w' ⟨hc, hn⟩ h
  rw [operators_step hc h]
  exact mem_operatorsAfter hn act x

/-- An operator stays one until she is removed, and another signer stays out until she is added. -/
theorem mem_operators_of_no_change (hc : Configured env P treasury w) (hn : w.operators.Nodup)
    (bs : List Action) (x : Address)
    (hb : ∀ e ∈ history env w bs, operatorChange x e.act ≠ some (!decide (x ∈ w.operators))) :
    decide (x ∈ (run env w bs).operators) = decide (x ∈ w.operators) := by
  rw [mem_operators_run hc hn]
  cases hlast : Transactions.lastChange (operatorChange x) (history env w bs) with
  | none => rfl
  | some b =>
    obtain ⟨e, he, hchange⟩ := Transactions.exists_of_lastChange hlast
    have hne := hb e he
    rw [hchange] at hne
    simpa using hne

/-- **A removed operator is refused** until she is added again. -/
theorem refused_after_removal (hc : Configured env P treasury w) (hn : w.operators.Nodup)
    {a x : Address} (h : exec env w (.txn a (.removeOperator x)) = .ok w') (bs : List Action)
    (hbs : ∀ e ∈ history env w' bs, operatorChange x e.act ≠ some true) {call : Call} {e : Abort}
    (hcall : operatorGuard call = some e) :
    exec env (run env w' bs) (.txn x call) = .error e := by
  obtain ⟨hc', hn'⟩ := operators_preserved env P treasury _ _ _ ⟨hc, hn⟩ h
  have hx : decide (x ∈ w'.operators) = false := by
    rw [operators_step hc h, mem_operatorsAfter hn, operatorChange, if_pos rfl, Option.getD_some]
  -- nothing but an addition of `x` brings her back
  have hout := mem_operators_of_no_change hc' hn' bs x (by rw [hx]; exact hbs)
  rw [hx] at hout
  exact exec_of_not_operator (Transactions.invariant (configured_preserved env P treasury) hc' bs)
    (of_decide_eq_false hout) hcall

/-- **The others keep their rights** when `x` is removed, and afterwards until they are removed
themselves. -/
theorem others_after_removal (hc : Configured env P treasury w) (hn : w.operators.Nodup)
    {a x y : Address} (h : exec env w (.txn a (.removeOperator x)) = .ok w') (hy : y ≠ x) :
    PictorConfig.isOperator w' y = PictorConfig.isOperator w y ∧
      ∀ bs, y ∈ w.operators → (∀ e ∈ history env w' bs, operatorChange y e.act ≠ some false) →
        PictorConfig.isOperator (run env w' bs) y = .ok true := by
  obtain ⟨hc', hn'⟩ := operators_preserved env P treasury _ _ _ ⟨hc, hn⟩ h
  have hsame : decide (y ∈ w'.operators) = decide (y ∈ w.operators) := by
    rw [operators_step hc h, mem_operatorsAfter hn, operatorChange, if_neg hy.symm,
      Option.getD_none]
  refine ⟨by rw [isOperator_eq hc', isOperator_eq hc, hsame], ?_⟩
  intro bs hyop hbs
  rw [decide_eq_true hyop] at hsame
  have hstay := mem_operators_of_no_change hc' hn' bs y (by rw [hsame]; exact hbs)
  rw [isOperator_eq (Transactions.invariant (configured_preserved env P treasury) hc' bs), hstay,
    hsame]

/-- **The operator set**: in every state of every run the vector has no repetitions and its members
are those whose last change was an addition; only the deployer changes it; and after a removal the
removed address is refused by all operator functions until it is added again, while nobody else's
rights have changed. -/
theorem operator_set (h₀ : JustInitialised env P treasury pk w₀) (as : List Action) :
    (run env w₀ as).operators.Nodup ∧
    (∀ x, PictorConfig.isOperator (run env w₀ as) x = .ok (decide
      (Transactions.lastChange (operatorChange x) (history env w₀ as) = some true))) ∧
    (∀ e ∈ history env w₀ as, ∀ a call, e.act = .txn a call → a ≠ env.deployer →
      e.post.operators = e.pre.operators) ∧
    ∀ a x w', exec env (run env w₀ as) (.txn a (.removeOperator x)) = .ok w' →
      (∀ bs, (∀ e ∈ history env w' bs, operatorChange x e.act ≠ some true) →
        ∀ call e, operatorGuard call = some e →
          exec env (run env w' bs) (.txn x call) = .error e) ∧
      ∀ y, y ≠ x → PictorConfig.isOperator w' y = PictorConfig.isOperator (run env w₀ as) y ∧
        ∀ bs, y ∈ (run env w₀ as).operators →
          (∀ e ∈ history env w' bs, operatorChange y e.act ≠ some false) →
          PictorConfig.isOperator (run env w' bs) y = .ok true := by
  obtain ⟨hc, hn⟩ := operators_run h₀ as
  refine ⟨hn, ?_, ?_, ?_⟩
  · intro x
    obtain ⟨hc₀, hnil⟩ := operators_initial h₀
    rw [isOperator_eq hc, mem_operators_run hc₀ (by rw [hnil]; exact List.nodup_nil), hnil]
    cases Transactions.lastChange (operatorChange x) (history env w₀ as) with
    | none => rfl
    | some b => cases b <;> rfl
  · intro e he a call hact ha
    have hstep := exec_of_mem_history he
    rw [hact] at hstep
    rw [World.operators, World.operators, config_of_not_deployer ha hstep]
  · intro a x w' h
    exact ⟨fun bs hbs call e => refused_after_removal hc hn h bs hbs,
      fun y hy => others_after_removal hc hn h hy⟩

/-- Two operators, one of whom is removed. -/
theorem operator_set_test :
    exec testEnv (run testEnv testWorld [.txn 0xcafe (.addOperator 0xdad),
        .txn 0xcafe (.addOperator 0xbad), .txn 0xcafe (.removeOperator 0xdad)])
      (.txn 0xdad (.opCreditUser 0xdad 1)) = .error PictorNetwork.ENOT_AUTHORIZED :=
  ((operator_set testWorld_justInitialised
    [.txn 0xcafe (.addOperator 0xdad), .txn 0xcafe (.addOperator 0xbad)]).2.2.2 0xcafe 0xdad _
      rfl).1 [] (by decide) (.opCreditUser 0xdad 1) _ rfl

end Run

end Pictor
