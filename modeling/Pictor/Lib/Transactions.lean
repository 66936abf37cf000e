import Mathlib.Algebra.BigOperators.Group.List.Basic
import Mathlib.Algebra.Order.BigOperators.Group.List
import Mathlib.Data.Nat.Basic
import Pictor.Lib.Checked

/-!
# Runs of abort-atomic transactions

A system is a function `step : σ → α → Except ε σ`: an action submitted in a state either takes it
to a new state or aborts. A run submits a list of actions one after the other; an aborted action
leaves the state as it was. Three things are read off a run:

* `run s as` — the state it ends in;
* `history s as` — the *successful* steps, in order, each with the state before and after;
* `total f h` — a quantity `f` summed over a history, e.g. everything ever paid out.

Every induction over runs is done here, once: `run_induction` for a property of history and state
together, `invariant` for a property of states, `run_rel` for a relation between an earlier and a
later state, and `conserved` / `conserved_le` for a quantity of the state that each step changes by
a known inflow and outflow.
-/

namespace Transactions

variable {σ α ε : Type}

/-- A successful step: the state before, the action, the state after. -/
structure Event (σ α : Type) where
  pre : σ
  act : α
  post : σ

section Runs

variable (step : σ → α → Except ε σ)

/-- The state after submitting one action; an abort changes nothing. -/
def next (s : σ) (a : α) : σ :=
  match step s a with
  | .ok s' => s'
  | .error _ => s

/-- The state after submitting a list of actions. -/
def run (s : σ) : List α → σ
  | [] => s
  | a :: as => run (next step s a) as

/-- The successful steps of a run. -/
def history (s : σ) : List α → List (Event σ α)
  | [] => []
  | a :: as =>
    match step s a with
    | .ok s' => ⟨s, a, s'⟩ :: history s' as
    | .error _ => history s as

end Runs

/-- A quantity of a step, summed over a history. -/
def total (f : σ → α → ℕ) (h : List (Event σ α)) : ℕ := (h.map fun e => f e.pre e.act).sum

variable {step : σ → α → Except ε σ}

theorem next_of_ok {s s' : σ} {a : α} (h : step s a = .ok s') : next step s a = s' := by
  simp [next, h]

theorem next_of_error {s : σ} {a : α} {e : ε} (h : step s a = .error e) : next step s a = s := by
  simp [next, h]

@[simp] theorem run_nil (s : σ) : run step s [] = s := rfl

@[simp] theorem run_cons (s : σ) (a : α) (as : List α) :
    run step s (a :: as) = run step (next step s a) as := rfl

theorem run_append (s : σ) (as bs : List α) :
    run step s (as ++ bs) = run step (run step s as) bs := by
  induction as generalizing s with
  | nil => rfl
  | cons a as ih => exact ih (next step s a)

theorem history_cons_ok {s s' : σ} {a : α} (h : step s a = .ok s') (as : List α) :
    history step s (a :: as) = ⟨s, a, s'⟩ :: history step s' as := by
  simp [history, h]

theorem history_cons_error {s : σ} {a : α} {e : ε} (h : step s a = .error e) (as : List α) :
    history step s (a :: as) = history step s as := by
  simp [history, h]

theorem history_append (s : σ) (as bs : List α) :
    history step s (as ++ bs) = history step s as ++ history step (run step s as) bs := by
  induction as generalizing s with
  | nil => rfl
  | cons a as ih =>
    cases h : step s a with
    | ok s' =>
      rw [List.cons_append, history_cons_ok h, history_cons_ok h, run_cons, next_of_ok h, ih,
        List.cons_append]
    | error e =>
      rw [List.cons_append, history_cons_error h, history_cons_error h, run_cons,
        next_of_error h, ih]

/-- **Where an event stands**: the events before it are those of some prefix of the submitted
actions, its action is the next one submitted, and the events after it are those of the rest. -/
theorem exists_split_of_history {s : σ} {as : List α} {h h' : List (Event σ α)} {e : Event σ α}
    (heq : history step s as = h ++ e :: h') :
    ∃ bs cs, as = bs ++ e.act :: cs ∧ e.pre = run step s bs ∧ step e.pre e.act = .ok e.post ∧
      h = history step s bs ∧ h' = history step e.post cs := by
  induction as generalizing s h with
  | nil => simp [history] at heq
  | cons a as ih =>
    cases hs : step s a with
    | ok s' =>
      rw [history_cons_ok hs] at heq
      cases h with
      | nil =>
        obtain ⟨rfl, rfl⟩ := List.cons.inj heq
        exact ⟨[], as, rfl, rfl, hs, rfl, rfl⟩
      | cons d h =>
        obtain ⟨rfl, hrest⟩ := List.cons.inj heq
        obtain ⟨bs, cs, rfl, hpre, hstep, hbefore, hafter⟩ := ih hrest
        refine ⟨a :: bs, cs, rfl, ?_, hstep, ?_, hafter⟩
        · rw [run_cons, next_of_ok hs, hpre]
        · rw [history_cons_ok hs, hbefore]
    | error err =>
      rw [history_cons_error hs] at heq
      obtain ⟨bs, cs, rfl, hpre, hstep, hbefore, hafter⟩ := ih heq
      refine ⟨a :: bs, cs, rfl, ?_, hstep, ?_, hafter⟩
      · rw [run_cons, next_of_error hs, hpre]
      · rw [history_cons_error hs, hbefore]

/-- **Every event is a step of the run**: it starts in the state that some prefix of the submitted
actions reaches, its action is the next one submitted, and the step returned its last state. -/
theorem exists_prefix_of_mem_history {s : σ} {as : List α} {e : Event σ α}
    (he : e ∈ history step s as) :
    ∃ bs cs, as = bs ++ e.act :: cs ∧ e.pre = run step s bs ∧
      step e.pre e.act = .ok e.post := by
  obtain ⟨h, h', heq⟩ := List.append_of_mem he
  obtain ⟨bs, cs, has, hpre, hstep, -, -⟩ := exists_split_of_history heq
  exact ⟨bs, cs, has, hpre, hstep⟩

theorem step_of_mem_history {s : σ} {as : List α} {e : Event σ α} (he : e ∈ history step s as) :
    step e.pre e.act = .ok e.post := by
  obtain ⟨_, _, _, _, hstep⟩ := exists_prefix_of_mem_history he
  exact hstep

/-- **The run goes on from the state an event left**: what is still to be submitted after it
determines the rest of the run, however that is continued. -/
theorem exists_rest_of_mem_history {s : σ} {as : List α} {e : Event σ α}
    (he : e ∈ history step s as) :
    ∃ rest, ∀ bs, run step s (as ++ bs) = run step e.post (rest ++ bs) ∧
      history step e.post (rest ++ bs) ⊆ history step s (as ++ bs) := by
  obtain ⟨pre, rest, rfl, hpre, hstep⟩ := exists_prefix_of_mem_history he
  refine ⟨rest, fun bs => ⟨?_, ?_⟩⟩
  · rw [List.append_assoc, run_append, ← hpre, List.cons_append, run_cons, next_of_ok hstep]
  · rw [List.append_assoc, history_append s pre, ← hpre, List.cons_append,
      history_cons_ok hstep]
    exact List.subset_append_of_subset_right _ (List.subset_cons_self _ _)

/-! ## What is submitted -/

/-- Every action, whether it succeeds or not, meets `C` in the state it is submitted in. -/
def AllSubmitted (step : σ → α → Except ε σ) (C : σ → α → Prop) : σ → List α → Prop
  | _, [] => True
  | s, a :: as => C s a ∧ AllSubmitted step C (next step s a) as

instance AllSubmitted.decidable (C : σ → α → Prop) [∀ s a, Decidable (C s a)] (s : σ)
    (as : List α) : Decidable (AllSubmitted step C s as) :=
  match as with
  | [] => inferInstanceAs (Decidable True)
  | a :: as =>
    have := AllSubmitted.decidable C (next step s a) as
    inferInstanceAs (Decidable (C s a ∧ AllSubmitted step C (next step s a) as))

theorem allSubmitted_append {C : σ → α → Prop} (s : σ) (as bs : List α) :
    AllSubmitted step C s (as ++ bs) ↔
      AllSubmitted step C s as ∧ AllSubmitted step C (run step s as) bs := by
  induction as generalizing s with
  | nil => simp [AllSubmitted]
  | cons a as ih => simp only [List.cons_append, AllSubmitted, run_cons, ih, and_assoc]

/-- What is asked of all that is submitted holds of the steps that succeed. -/
theorem AllSubmitted.of_mem_history {C : σ → α → Prop} {s : σ} {as : List α}
    (hC : AllSubmitted step C s as) {e : Event σ α} (he : e ∈ history step s as) :
    C e.pre e.act := by
  obtain ⟨bs, cs, rfl, hpre, -⟩ := exists_prefix_of_mem_history he
  rw [hpre]
  exact ((allSubmitted_append s bs _).mp hC).2.1

/-- What is not true of all that is submitted fails at some point of the run. -/
theorem exists_of_not_allSubmitted {C : σ → α → Prop} {s : σ} {as : List α}
    (hC : ¬ AllSubmitted step C s as) :
    ∃ bs a cs, as = bs ++ a :: cs ∧ ¬ C (run step s bs) a := by
  induction as generalizing s with
  | nil => exact absurd trivial hC
  | cons a as ih =>
    by_cases ha : C s a
    · obtain ⟨bs, b, cs, rfl, hb⟩ := ih fun hrest => hC ⟨ha, hrest⟩
      exact ⟨a :: bs, b, cs, rfl, hb⟩
    · exact ⟨[], a, as, rfl, ha⟩

/-! ## Induction over runs -/

/-- **Run induction.** A property of history and state that holds at the start and survives every
successful step holds along every run; aborted actions need no argument. -/
theorem run_induction {I : List (Event σ α) → σ → Prop} {s₀ : σ} (base : I [] s₀)
    (ind : ∀ h s a s', I h s → step s a = .ok s' → I (h ++ [⟨s, a, s'⟩]) s') (as : List α) :
    I (history step s₀ as) (run step s₀ as) := by
  -- the events so far are generalised along with the state
  suffices hgen : ∀ (as : List α) (h : List (Event σ α)) (s : σ), I h s →
      I (h ++ history step s as) (run step s as) from hgen as [] s₀ base
  intro as
  induction as with
  | nil =>
    intro h s hI
    rw [show history step s [] = [] from rfl, List.append_nil]
    exact hI
  | cons a as ih =>
    intro h s hI
    cases hs : step s a with
    | ok s' =>
      have := ih _ _ (ind h s a s' hI hs)
      rw [history_cons_ok hs, run_cons, next_of_ok hs]
      simpa using this
    | error e =>
      rw [history_cons_error hs, run_cons, next_of_error hs]
      exact ih h s hI

/-- A property of states that every successful step preserves. -/
def Preserved (step : σ → α → Except ε σ) (I : σ → Prop) : Prop :=
  ∀ s a s', I s → step s a = .ok s' → I s'

theorem Preserved.and {I J : σ → Prop} (hI : Preserved step I) (hJ : Preserved step J) :
    Preserved step (fun s => I s ∧ J s) :=
  fun s a s' hs h => ⟨hI s a s' hs.1 h, hJ s a s' hs.2 h⟩

/-- **Invariance.** A preserved property that holds at the start holds after every run. -/
theorem invariant {I : σ → Prop} (hI : Preserved step I) {s₀ : σ} (base : I s₀) (as : List α) :
    I (run step s₀ as) :=
  run_induction (I := fun _ s => I s) base (fun _ s a s' hs hstep => hI s a s' hs hstep) as

/-- **Conditional invariance**: a property that is only preserved by steps that meet `C`, along a
run whose steps all do. -/
theorem invariant_of {I : σ → Prop} {C : σ → α → Prop}
    (hI : ∀ s a s', I s → C s a → step s a = .ok s' → I s') {s₀ : σ} (base : I s₀) (as : List α)
    (hC : ∀ e ∈ history step s₀ as, C e.pre e.act) : I (run step s₀ as) := by
  refine run_induction (I := fun h s => (∀ e ∈ h, C e.pre e.act) → I s) (fun _ => base) ?_ as hC
  intro h s a s' hs hstep hC'
  have hprev := hs (fun e he => hC' e (List.mem_append_left _ he))
  have hlast := hC' ⟨s, a, s'⟩ (List.mem_append_right _ (List.mem_singleton.mpr rfl))
  exact hI s a s' hprev hlast hstep

/-- An invariant holds before every event of a run. -/
theorem invariant_pre {I : σ → Prop} (hI : Preserved step I) {s₀ : σ} (base : I s₀)
    {as : List α} {e : Event σ α} (he : e ∈ history step s₀ as) : I e.pre := by
  obtain ⟨bs, _, _, hpre, _⟩ := exists_prefix_of_mem_history he
  rw [hpre]
  exact invariant hI base bs

/-- A conditional invariant, too, holds before every event. -/
theorem invariant_of_pre {I : σ → Prop} {C : σ → α → Prop}
    (hI : ∀ s a s', I s → C s a → step s a = .ok s' → I s') {s₀ : σ} (base : I s₀) {as : List α}
    (hC : ∀ e ∈ history step s₀ as, C e.pre e.act) {e : Event σ α}
    (he : e ∈ history step s₀ as) : I e.pre := by
  obtain ⟨bs, cs, rfl, hpre, _⟩ := exists_prefix_of_mem_history he
  rw [hpre]
  refine invariant_of hI base bs fun e' he' => hC e' ?_
  rw [history_append]
  exact List.mem_append_left _ he'

/-- **Monotonicity.** A reflexive and transitive relation that every step respects relates the
start of a run to its end. -/
theorem run_rel {R : σ → σ → Prop} (hrefl : ∀ s, R s s) (htrans : ∀ s t u, R s t → R t u → R s u)
    (hstep : ∀ s a s', step s a = .ok s' → R s s') (s₀ : σ) (as : List α) :
    R s₀ (run step s₀ as) :=
  run_induction (I := fun _ s => R s₀ s) (hrefl s₀)
    (fun _ s a s' hR hs => htrans s₀ s s' hR (hstep s a s' hs)) as

/-! ## Totals and conservation -/

@[simp] theorem total_nil (f : σ → α → ℕ) : total f ([] : List (Event σ α)) = 0 := rfl

@[simp] theorem total_append (f : σ → α → ℕ) (h h' : List (Event σ α)) :
    total f (h ++ h') = total f h + total f h' := by
  simp [total]

@[simp] theorem total_singleton (f : σ → α → ℕ) (e : Event σ α) :
    total f [e] = f e.pre e.act := by
  simp [total]

theorem total_eq_zero {f : σ → α → ℕ} {h : List (Event σ α)} (hf : ∀ e ∈ h, f e.pre e.act = 0) :
    total f h = 0 := by
  rw [total, List.sum_eq_zero]
  intro n hn
  obtain ⟨e, he, rfl⟩ := List.mem_map.mp hn
  exact hf e he

theorem total_congr {f g : σ → α → ℕ} {h : List (Event σ α)}
    (hfg : ∀ e ∈ h, f e.pre e.act = g e.pre e.act) : total f h = total g h := by
  rw [total, total, List.map_congr_left hfg]

theorem total_add (f g : σ → α → ℕ) (h : List (Event σ α)) :
    total (fun s a => f s a + g s a) h = total f h + total g h := by
  simp [total, List.sum_map_add]

/-- **Conservation.** If each step changes `q` by exactly its inflow minus its outflow, then over a
whole run `q` changes by exactly the total inflow minus the total outflow. -/
theorem conserved {I : σ → Prop} (hI : Preserved step I) {q : σ → ℕ} {inflow outflow : σ → α → ℕ}
    (hq : ∀ s a s', I s → step s a = .ok s' → q s' + outflow s a = q s + inflow s a)
    {s₀ : σ} (base : I s₀) (as : List α) :
    q (run step s₀ as) + total outflow (history step s₀ as) =
      q s₀ + total inflow (history step s₀ as) := by
  have key : I (run step s₀ as) ∧ q (run step s₀ as) + total outflow (history step s₀ as) =
      q s₀ + total inflow (history step s₀ as) := by
    apply run_induction (I := fun h s => I s ∧ q s + total outflow h = q s₀ + total inflow h)
    · exact ⟨base, by simp⟩
    · rintro h s a s' ⟨hs, hlaw⟩ hstep
      have hone := hq s a s' hs hstep
      refine ⟨hI s a s' hs hstep, ?_⟩
      simp only [total_append, total_singleton]
      omega
  exact key.2

/-- The same along a run whose steps all meet a condition `C`. -/
theorem conserved_of {I : σ → Prop} (hI : Preserved step I) {C : σ → α → Prop} {q : σ → ℕ}
    {inflow outflow : σ → α → ℕ}
    (hq : ∀ s a s', I s → C s a → step s a = .ok s' → q s' + outflow s a = q s + inflow s a)
    {s₀ : σ} (base : I s₀) (as : List α) (hC : ∀ e ∈ history step s₀ as, C e.pre e.act) :
    q (run step s₀ as) + total outflow (history step s₀ as) =
      q s₀ + total inflow (history step s₀ as) := by
  have key : I (run step s₀ as) ∧ ((∀ e ∈ history step s₀ as, C e.pre e.act) →
      q (run step s₀ as) + total outflow (history step s₀ as) =
        q s₀ + total inflow (history step s₀ as)) := by
    apply run_induction (I := fun h s => I s ∧ ((∀ e ∈ h, C e.pre e.act) →
      q s + total outflow h = q s₀ + total inflow h))
    · exact ⟨base, fun _ => by simp⟩
    · rintro h s a s' ⟨hs, hlaw⟩ hstep
      refine ⟨hI s a s' hs hstep, fun hC' => ?_⟩
      have hprev := hlaw (fun e he => hC' e (List.mem_append_left _ he))
      have hlast := hC' ⟨s, a, s'⟩ (List.mem_append_right _ (List.mem_singleton.mpr rfl))
      have hone := hq s a s' hs hlast hstep
      simp only [total_append, total_singleton]
      omega
  exact key.2 hC

/-- The one-sided form: each step leaves at most what was there plus its inflow, under a condition
`C` that all the run's steps meet. -/
theorem conserved_le {I : σ → Prop} (hI : Preserved step I) {C : σ → α → Prop} {q : σ → ℕ}
    {inflow outflow : σ → α → ℕ}
    (hq : ∀ s a s', I s → C s a → step s a = .ok s' → q s' + outflow s a ≤ q s + inflow s a)
    {s₀ : σ} (base : I s₀) (as : List α) (hC : ∀ e ∈ history step s₀ as, C e.pre e.act) :
    q (run step s₀ as) + total outflow (history step s₀ as) ≤
      q s₀ + total inflow (history step s₀ as) := by
  have key : I (run step s₀ as) ∧ ((∀ e ∈ history step s₀ as, C e.pre e.act) →
      q (run step s₀ as) + total outflow (history step s₀ as) ≤
        q s₀ + total inflow (history step s₀ as)) := by
    apply run_induction (I := fun h s => I s ∧ ((∀ e ∈ h, C e.pre e.act) →
      q s + total outflow h ≤ q s₀ + total inflow h))
    · exact ⟨base, fun _ => by simp⟩
    · rintro h s a s' ⟨hs, hlaw⟩ hstep
      refine ⟨hI s a s' hs hstep, fun hC' => ?_⟩
      have hprev := hlaw (fun e he => hC' e (List.mem_append_left _ he))
      have hlast := hC' ⟨s, a, s'⟩ (List.mem_append_right _ (List.mem_singleton.mpr rfl))
      have hone := hq s a s' hs hlast hstep
      simp only [total_append, total_singleton]
      omega
  exact key.2 hC

/-- **At most once.** A flag that an action counted by `f` finds down and leaves up, and that no
step takes down, is raised at most once: along a run whose steps meet `C`, at most one is
counted. -/
theorem total_le_one (flag : σ → Bool) {f : σ → α → ℕ} {C : σ → α → Prop}
    (hcount : ∀ s a s', C s a → step s a = .ok s' → f s a = 0 ∨
      f s a = 1 ∧ flag s = false ∧ flag s' = true)
    (hkeep : ∀ s a s', step s a = .ok s' → flag s = true → flag s' = true) (s₀ : σ) (as : List α)
    (hC : ∀ e ∈ history step s₀ as, C e.pre e.act) : total f (history step s₀ as) ≤ 1 := by
  -- the chances that are left, plus those that have been used, never grow
  have hlaw : (1 - (flag (run step s₀ as)).toNat) + total f (history step s₀ as) ≤
      (1 - (flag s₀).toNat) + total (fun _ _ => 0) (history step s₀ as) := by
    refine conserved_le (I := fun _ => True) (q := fun s => 1 - (flag s).toNat)
      (fun _ _ _ _ _ => trivial) ?_ trivial as hC
    intro s a s' _ hc h
    show 1 - (flag s').toNat + f s a ≤ 1 - (flag s).toNat + 0
    rcases hcount s a s' hc h with hzero | ⟨hone, hbefore, hafter⟩
    · cases hflag : flag s with
      | true => simp [hkeep s a s' h hflag, hzero]
      | false =>
        rw [hzero, Bool.toNat_false]
        exact Nat.sub_le _ _
    · simp [hone, hbefore, hafter]
  have hnone : total (fun (_ : σ) (_ : α) => 0) (history step s₀ as) = 0 :=
    total_eq_zero (fun _ _ => rfl)
  omega

/-! ## The last change -/

/-- What a history last sets a quantity to, if it sets it at all. -/
def lastChange {β : Type} (change : α → Option β) (h : List (Event σ α)) : Option β :=
  (h.filterMap fun e => change e.act).getLast?

theorem lastChange_append {β : Type} (change : α → Option β) (h : List (Event σ α))
    (e : Event σ α) :
    lastChange change (h ++ [e]) = (change e.act).or (lastChange change h) := by
  unfold lastChange
  rw [List.filterMap_append]
  cases hc : change e.act with
  | none => simp [hc]
  | some b => simp [hc]

/-- A history that sets the quantity does so by one of its events. -/
theorem exists_of_lastChange {β : Type} {change : α → Option β} {h : List (Event σ α)} {b : β}
    (hb : lastChange change h = some b) : ∃ e ∈ h, change e.act = some b := by
  obtain ⟨e, he, hchange⟩ := List.mem_filterMap.mp (List.mem_of_getLast? hb)
  exact ⟨e, he, hchange⟩

/-- **The last change wins.** If a step sets `q` to what its action says, and leaves it alone when
the action says nothing, then after a run `q` is what the run last set it to. -/
theorem last_change_wins {β : Type} {I : σ → Prop} (hI : Preserved step I) {q : σ → β}
    {change : α → Option β}
    (hq : ∀ s a s', I s → step s a = .ok s' → q s' = (change a).getD (q s)) {s₀ : σ}
    (base : I s₀) (as : List α) :
    q (run step s₀ as) = (lastChange change (history step s₀ as)).getD (q s₀) := by
  have key : I (run step s₀ as) ∧
      q (run step s₀ as) = (lastChange change (history step s₀ as)).getD (q s₀) := by
    apply run_induction (I := fun h s => I s ∧ q s = (lastChange change h).getD (q s₀))
    · exact ⟨base, rfl⟩
    · rintro h s a s' ⟨hs, hlast⟩ hstep
      refine ⟨hI s a s' hs hstep, ?_⟩
      rw [hq s a s' hs hstep, lastChange_append, hlast]
      cases change a <;> rfl
  exact key.2

/-! ## Refinement -/

/-- The abort of each submitted action, in order; none for those that succeed. -/
def aborts (step : σ → α → Except ε σ) (s : σ) : List α → List (Option ε)
  | [] => []
  | a :: as =>
    match step s a with
    | .ok s' => none :: aborts step s' as
    | .error e => some e :: aborts step s as

/-- **Refinement of runs.** If, where `I` holds, a step seen through `abs` is the step of a second
system, aborts included, then so is every run. -/
theorem run_refines {τ : Type} {step' : τ → α → Except ε τ} {abs : σ → τ} {I : σ → Prop}
    (hI : Preserved step I) (hstep : ∀ s a, I s → (step s a).map abs = step' (abs s) a) {s₀ : σ}
    (base : I s₀) (as : List α) :
    abs (run step s₀ as) = run step' (abs s₀) as ∧
      aborts step s₀ as = aborts step' (abs s₀) as := by
  induction as generalizing s₀ with
  | nil => exact ⟨rfl, rfl⟩
  | cons a as ih =>
    have hone := hstep s₀ a base
    cases hs : step s₀ a with
    | ok s' =>
      rw [hs] at hone
      have hone : step' (abs s₀) a = .ok (abs s') := hone.symm
      obtain ⟨hrun, haborts⟩ := ih (hI s₀ a s' base hs)
      simp only [run_cons, next_of_ok hs, next_of_ok hone, aborts, hs, hone, hrun, haborts,
        and_self]
    | error e =>
      rw [hs] at hone
      have hone : step' (abs s₀) a = .error e := hone.symm
      obtain ⟨hrun, haborts⟩ := ih base
      simp only [run_cons, next_of_error hs, next_of_error hone, aborts, hs, hone, hrun, haborts,
        and_self]

/-- **Two runs side by side.** If related states stay related, and abort alike, whatever action in
`C` is submitted to both, then so they do over every run of such actions. -/
theorem run_agree {τ : Type} {step' : τ → α → Except ε τ} {R : σ → τ → Prop} {C : α → Prop}
    (hstep : ∀ s t a, C a → R s t → Checked.Agree R (step s a) (step' t a)) {s₀ : σ} {t₀ : τ}
    (base : R s₀ t₀) (as : List α) (hC : ∀ a ∈ as, C a) :
    R (run step s₀ as) (run step' t₀ as) ∧ aborts step s₀ as = aborts step' t₀ as := by
  induction as generalizing s₀ t₀ with
  | nil => exact ⟨base, rfl⟩
  | cons a as ih =>
    obtain ⟨ha, hC⟩ := List.forall_mem_cons.mp hC
    have hone := hstep s₀ t₀ a ha base
    cases hs : step s₀ a with
    | ok s' =>
      rw [hs] at hone
      cases ht : step' t₀ a with
      | ok t' =>
        rw [ht] at hone
        cases hone with
        | ok hR =>
          obtain ⟨hrun, haborts⟩ := ih hR hC
          simp only [run_cons, next_of_ok hs, next_of_ok ht, aborts, hs, ht, haborts, and_true]
          exact hrun
      | error e =>
        rw [ht] at hone
        cases hone
    | error e =>
      rw [hs] at hone
      cases ht : step' t₀ a with
      | ok t' =>
        rw [ht] at hone
        cases hone
      | error e' =>
        rw [ht] at hone
        cases hone
        obtain ⟨hrun, haborts⟩ := ih base hC
        simp only [run_cons, next_of_error hs, next_of_error ht, aborts, hs, ht, haborts, and_true]
        exact hrun

/-- **Recoding.** If one abort code is all two systems differ in, their runs are the same, and so
are the aborts up to that code. -/
theorem run_recoded {step' : σ → α → Except ε σ} {e e' : ε}
    (hstep : ∀ s a, step s a = step' s a ∨ step s a = .error e ∧ step' s a = .error e') (s₀ : σ)
    (as : List α) :
    run step s₀ as = run step' s₀ as ∧
      List.Forall₂ (fun x y => x = y ∨ x = some e ∧ y = some e') (aborts step s₀ as)
        (aborts step' s₀ as) := by
  induction as generalizing s₀ with
  | nil => exact ⟨rfl, .nil⟩
  | cons a as ih =>
    rcases hstep s₀ a with heq | ⟨hs, hs'⟩
    · cases hs : step s₀ a with
      | ok s' =>
        rw [hs] at heq
        simp only [run_cons, next_of_ok hs, next_of_ok heq.symm, aborts, hs, heq.symm]
        exact ⟨(ih s').1, .cons (.inl rfl) (ih s').2⟩
      | error e₁ =>
        rw [hs] at heq
        simp only [run_cons, next_of_error hs, next_of_error heq.symm, aborts, hs, heq.symm]
        exact ⟨(ih s₀).1, .cons (.inl rfl) (ih s₀).2⟩
    · simp only [run_cons, next_of_error hs, next_of_error hs', aborts, hs, hs']
      exact ⟨(ih s₀).1, .cons (.inr ⟨rfl, rfl⟩) (ih s₀).2⟩

/-- **Simulation of runs.** If each successful step is a step of a second system too, then the
second system, given the actions that succeeded, ends in a related state. The relation says how
many more steps it is good for; an action that aborts uses one up. -/
theorem run_simulates {τ : Type} {step' : τ → α → Except ε τ} {R : ℕ → σ → τ → Prop}
    {C : σ → α → Prop}
    (hok : ∀ n s t a s', R (n + 1) s t → C s a → step s a = .ok s' →
      ∃ t', step' t a = .ok t' ∧ R n s' t')
    (hskip : ∀ n s t, R (n + 1) s t → R n s t) {s₀ : σ} {t₀ : τ} (as : List α)
    (base : R as.length s₀ t₀) (hC : ∀ e ∈ history step s₀ as, C e.pre e.act) :
    R 0 (run step s₀ as) (run step' t₀ ((history step s₀ as).map Event.act)) := by
  induction as generalizing s₀ t₀ with
  | nil => exact base
  | cons a as ih =>
    cases hs : step s₀ a with
    | ok s' =>
      rw [history_cons_ok hs] at hC ⊢
      obtain ⟨hfirst, hrest⟩ := List.forall_mem_cons.mp hC
      obtain ⟨t', ht, hR⟩ := hok as.length s₀ t₀ a s' base hfirst hs
      rw [List.map_cons, run_cons, run_cons, next_of_ok hs, next_of_ok ht]
      exact ih hR hrest
    | error e =>
      rw [history_cons_error hs] at hC ⊢
      rw [run_cons, next_of_error hs]
      exact ih (hskip _ _ _ base) hC

end Transactions
