import Mathlib.Order.Basic

/-! Runs of a partial step function. A step is a state, an event and the state
the event leads to; an event that is not enabled has no step and ends the run. -/

namespace AdTerminal.Transition

variable {σ ε : Type*}

def run (step : σ → ε → Option σ) : σ → List ε → Option σ
  | s, [] => some s
  | s, e :: es => (step s e).bind fun t => run step t es

/-- Every event of the run meets `ok` in the state it is applied to. -/
def Steps (step : σ → ε → Option σ) (ok : σ → ε → Prop) : σ → List ε → Prop
  | _, [] => True
  | s, e :: es => ok s e ∧ ∀ t, step s e = some t → Steps step ok t es

/-- `P` holds in every state the run passes through, the first and the last included. -/
def Throughout (step : σ → ε → Option σ) (P : σ → Prop) (s : σ) (es : List ε) : Prop :=
  ∀ before after, es = before ++ after → ∀ t, run step s before = some t → P t

/-- No later state of the run has a smaller measure than an earlier one. -/
def NeverDecreases {α : Type*} [LE α] (step : σ → ε → Option σ) (f : σ → α) (s : σ) (es : List ε) : Prop :=
  ∀ before between after, es = before ++ between ++ after → ∀ t u,
    run step s before = some t → run step t between = some u → f t ≤ f u

theorem run_cons {step : σ → ε → Option σ} {s u : σ} {e : ε} {es : List ε}
    (h : run step s (e :: es) = some u) : ∃ t, step s e = some t ∧ run step t es = some u :=
  Option.bind_eq_some_iff.mp h

theorem run_append {step : σ → ε → Option σ} {s : σ} {first second : List ε} :
    run step s (first ++ second) = (run step s first).bind fun t => run step t second := by
  induction first generalizing s with
  | nil => rfl
  | cons e es ih =>
    simp only [List.cons_append, run, Option.bind_assoc]
    exact congrArg _ (funext fun t => ih)

/-- Deciding the side conditions of a run on concrete events. -/
instance Steps.decidable (step : σ → ε → Option σ) (ok : σ → ε → Prop)
    [∀ s e, Decidable (ok s e)] : ∀ s es, Decidable (Steps step ok s es)
  | _, [] => isTrue trivial
  | s, e :: es =>
    match h : step s e with
    | none => decidable_of_iff (ok s e) (by simp [Steps, h])
    | some t =>
      have := Steps.decidable step ok t es
      decidable_of_iff (ok s e ∧ Steps step ok t es) (by simp [Steps, h])

/-- A condition on the events alone is met step by step when every event meets it. -/
theorem Steps.of_forall {step : σ → ε → Option σ} {ok : ε → Prop} {s : σ} {es : List ε}
    (all : ∀ e ∈ es, ok e) : Steps step (fun _ e => ok e) s es := by
  induction es generalizing s with
  | nil => trivial
  | cons e es ih =>
    exact ⟨all e List.mem_cons_self, fun t _ => ih fun e member => all e (List.mem_cons_of_mem _ member)⟩

/-- Every run is admitted where every event is. -/
theorem Steps.any {step : σ → ε → Option σ} {s : σ} {es : List ε} : Steps step (fun _ _ => True) s es :=
  Steps.of_forall fun _ _ => trivial

theorem Steps.imp {step : σ → ε → Option σ} {ok ok' : σ → ε → Prop} (weaker : ∀ s e, ok s e → ok' s e) {s : σ}
    {es : List ε} (steps : Steps step ok s es) : Steps step ok' s es := by
  induction es generalizing s with
  | nil => trivial
  | cons e es ih => exact ⟨weaker s e steps.1, fun t taken => ih (steps.2 t taken)⟩

theorem Steps.and {step : σ → ε → Option σ} {ok ok' : σ → ε → Prop} {s : σ} {es : List ε} (first : Steps step ok s es)
    (second : Steps step ok' s es) : Steps step (fun s e => ok s e ∧ ok' s e) s es := by
  induction es generalizing s with
  | nil => trivial
  | cons e es ih => exact ⟨⟨first.1, second.1⟩, fun t taken => ih (first.2 t taken) (second.2 t taken)⟩

/-- Where the next state is known, the rest of the run is looked at from there. -/
theorem Steps.cons {step : σ → ε → Option σ} {ok : σ → ε → Prop} {s t : σ} {e : ε} {es : List ε} (allowed : ok s e)
    (taken : step s e = some t) (rest : Steps step ok t es) : Steps step ok s (e :: es) := by
  refine ⟨allowed, fun u other => ?_⟩
  cases taken.symm.trans other
  exact rest

theorem Steps.append {step : σ → ε → Option σ} {ok : σ → ε → Prop} {s : σ} {first second : List ε}
    (steps : Steps step ok s (first ++ second)) :
    Steps step ok s first ∧ ∀ t, run step s first = some t → Steps step ok t second := by
  induction first generalizing s with
  | nil => exact ⟨trivial, fun t same => Option.some.inj same ▸ steps⟩
  | cons e es ih =>
    refine ⟨⟨steps.1, fun t taken => (ih (steps.2 t taken)).1⟩, fun u whole => ?_⟩
    obtain ⟨t, taken, rest⟩ := run_cons whole
    exact (ih (steps.2 t taken)).2 u rest

/-- The induction rule for runs: what every admitted step preserves, an admitted run preserves. -/
theorem run_invariant {step : σ → ε → Option σ} {inv : σ → Prop} {ok : σ → ε → Prop}
    (preserved : ∀ s e t, inv s → ok s e → step s e = some t → inv t)
    {s t : σ} {es : List ε} (start : inv s) (steps : Steps step ok s es) (whole : run step s es = some t) :
    inv t := by
  induction es generalizing s with
  | nil => exact Option.some.inj whole ▸ start
  | cons e es ih =>
    obtain ⟨u, taken, rest⟩ := run_cons whole
    exact ih (preserved s e u start steps.1 taken) (steps.2 u taken) rest

theorem throughout_of_invariant {step : σ → ε → Option σ} {inv P : σ → Prop} {ok : σ → ε → Prop}
    (preserved : ∀ s e t, inv s → ok s e → step s e = some t → inv t) (enough : ∀ s, inv s → P s)
    {s : σ} {es : List ε} (start : inv s) (steps : Steps step ok s es) : Throughout step P s es := by
  intro before after split t reached
  subst split
  exact enough t (run_invariant preserved start steps.append.1 reached)

/-- A property of all states of a run is a property of its first state and of each step. -/
theorem throughout_iff {step : σ → ε → Option σ} {P : σ → Prop} {s : σ} {es : List ε} :
    Throughout step P s es ↔ P s ∧ Steps step (fun s e => ∀ t, step s e = some t → P t) s es := by
  constructor
  · intro all
    refine ⟨all [] es rfl s rfl, ?_⟩
    induction es generalizing s with
    | nil => trivial
    | cons e es ih =>
      have head : ∀ t, step s e = some t → P t := fun t taken =>
        all [e] es rfl t (by simp [run, taken])
      refine ⟨head, fun t taken => ih fun before after split u reached => ?_⟩
      exact all (e :: before) after (by rw [split]; rfl) u (by simpa [run, taken] using reached)
  · intro both before after split t reached
    subst split
    exact run_invariant (fun _ _ t _ next taken => next t taken) both.1 both.2.append.1 reached

/-- A measure never decreases over a run exactly when no single step decreases it. -/
theorem neverDecreases_iff {α : Type*} [Preorder α] {step : σ → ε → Option σ} {f : σ → α} {s : σ}
    {es : List ε} :
    NeverDecreases step f s es ↔ Steps step (fun s e => ∀ t, step s e = some t → f s ≤ f t) s es := by
  constructor
  · intro all
    induction es generalizing s with
    | nil => trivial
    | cons e es ih =>
      refine ⟨fun t taken => all [] [e] es rfl s t rfl (by simp [run, taken]), fun t taken => ih ?_⟩
      intro before between after split u v first second
      exact all (e :: before) between after (by rw [split]; rfl) u v
        (by simpa [run, taken] using first) second
  · intro steps before between after split t u first second
    subst split
    rw [List.append_assoc] at steps
    have later := (steps.append.2 t first).append.1
    have kept : ∀ v e w, f t ≤ f v → (∀ x, step v e = some x → f v ≤ f x) →
        step v e = some w → f t ≤ f w := fun v e w below next taken => below.trans (next w taken)
    exact run_invariant kept le_rfl later second

/-- Two side conditions agree on a run of admitted events when they agree on each admitted
step from states of an invariant that the steps meeting one of them preserve. -/
theorem steps_congr {step : σ → ε → Option σ} {inv : σ → Prop} {admitted ok ok' : σ → ε → Prop}
    (agree : ∀ s e, inv s → admitted s e → (ok s e ↔ ok' s e))
    (preserved : ∀ s e t, inv s → admitted s e → ok s e → step s e = some t → inv t)
    {s : σ} {es : List ε} (start : inv s) (events : Steps step admitted s es) :
    Steps step ok s es ↔ Steps step ok' s es := by
  induction es generalizing s with
  | nil => exact Iff.rfl
  | cons e es ih =>
    have head := agree s e start events.1
    have rest : ok s e → ∀ t, step s e = some t → (Steps step ok t es ↔ Steps step ok' t es) :=
      fun first t taken => ih (preserved s e t start events.1 first taken) (events.2 t taken)
    constructor
    · intro both
      exact ⟨head.mp both.1, fun t taken => (rest both.1 t taken).mp (both.2 t taken)⟩
    · intro both
      have first := head.mpr both.1
      exact ⟨first, fun t taken => (rest first t taken).mpr (both.2 t taken)⟩

/-- The same where every event is admitted. -/
theorem steps_iff {step : σ → ε → Option σ} {inv : σ → Prop} {ok ok' : σ → ε → Prop}
    (agree : ∀ s e, inv s → (ok s e ↔ ok' s e)) (preserved : ∀ s e t, inv s → ok s e → step s e = some t → inv t)
    {s : σ} {es : List ε} (start : inv s) : Steps step ok s es ↔ Steps step ok' s es := by
  exact steps_congr (fun s e held _ => agree s e held) (fun s e t held _ => preserved s e t held) start Steps.any

/-- A property holds in all states of a run of admitted events exactly when each step meets a
condition, if the condition decides it for every step from the states of an invariant. -/
theorem throughout_congr {step : σ → ε → Option σ} {P inv : σ → Prop} {admitted ok : σ → ε → Prop}
    (agree : ∀ s e, inv s → admitted s e → ((∀ t, step s e = some t → P t) ↔ ok s e))
    (preserved : ∀ s e t, inv s → admitted s e → ok s e → P t → step s e = some t → inv t)
    {s : σ} {es : List ε} (start : inv s) (first : P s) (events : Steps step admitted s es) :
    Throughout step P s es ↔ Steps step ok s es := by
  have kept : ∀ s e t, inv s → admitted s e → (∀ t, step s e = some t → P t) → step s e = some t → inv t :=
    fun s e t held allowed next taken =>
      preserved s e t held allowed ((agree s e held allowed).mp next) (next t taken) taken
  rw [throughout_iff, steps_congr agree kept start events]
  exact and_iff_right first

theorem throughout_iff_steps {step : σ → ε → Option σ} {P inv : σ → Prop} {ok : σ → ε → Prop}
    (agree : ∀ s e, inv s → ((∀ t, step s e = some t → P t) ↔ ok s e))
    (preserved : ∀ s e t, inv s → ok s e → P t → step s e = some t → inv t)
    {s : σ} {es : List ε} (start : inv s) (first : P s) : Throughout step P s es ↔ Steps step ok s es := by
  exact throughout_congr (fun s e held _ => agree s e held) (fun s e t held _ => preserved s e t held) start first
    Steps.any

/-- A property that is an invariant of its own. -/
theorem throughout_iff_self {step : σ → ε → Option σ} {P : σ → Prop} {ok : σ → ε → Prop}
    (agree : ∀ s e, P s → ((∀ t, step s e = some t → P t) ↔ ok s e)) {s : σ} {es : List ε} (first : P s) :
    Throughout step P s es ↔ Steps step ok s es :=
  throughout_iff_steps agree (fun _ _ _ _ _ next _ => next) first first

/-- One side condition brings another with it, where an invariant that it keeps shows so. -/
theorem Steps.of_invariant {step : σ → ε → Option σ} {inv : σ → Prop} {ok ok' : σ → ε → Prop}
    (enough : ∀ s e, inv s → ok s e → ok' s e) (preserved : ∀ s e t, inv s → ok s e → step s e = some t → inv t)
    {s : σ} {es : List ε} (start : inv s) (steps : Steps step ok s es) : Steps step ok' s es := by
  induction es generalizing s with
  | nil => trivial
  | cons e es ih =>
    refine ⟨enough s e start steps.1, fun t taken => ?_⟩
    exact ih (preserved s e t start steps.1 taken) (steps.2 t taken)

/-- A side condition is met throughout a run if a step that breaks it leads to states from which
the run cannot come to its end. -/
theorem Steps.of_end {step : σ → ε → Option σ} {inv late : σ → Prop} {ok ok' : σ → ε → Prop}
    (preserved : ∀ s e t, inv s → ok s e → step s e = some t → inv t)
    (leads : ∀ s e t, inv s → ok s e → ¬ ok' s e → step s e = some t → late t)
    (stays : ∀ s e t, inv s → late s → ok s e → step s e = some t → late t)
    {s last : σ} {es : List ε} (start : inv s) (steps : Steps step ok s es) (whole : run step s es = some last)
    (ended : ¬ late last) : Steps step ok' s es := by
  induction es generalizing s with
  | nil => trivial
  | cons e es ih =>
    obtain ⟨t, taken, rest⟩ := run_cons whole
    have next := preserved s e t start steps.1 taken
    refine Steps.cons (by_contra fun broken => ended ?_) taken (ih next (steps.2 t taken) rest)
    have kept : ∀ s e t, inv s ∧ late s → ok s e → step s e = some t → inv t ∧ late t :=
      fun s e t both allowed taken => ⟨preserved s e t both.1 allowed taken, stays s e t both.1 both.2 allowed taken⟩
    exact (run_invariant kept ⟨next, leads s e t start steps.1 broken taken⟩ (steps.2 t taken) rest).2

/-- A run meets what it is waiting for, if each of the events that count brings it nearer and
there are more of them in the run than it is away. -/
theorem exists_of_countdown {step : σ → ε → Option σ} {inv : σ → Prop} {ok hit : σ → ε → Prop} {left : σ → Nat}
    {counts : ε → Bool}
    (nearer : ∀ s e t, inv s → ok s e → ¬ hit s e → step s e = some t → inv t ∧ left t + (counts e).toNat ≤ left s)
    {s t : σ} {es : List ε} (start : inv s) (steps : Steps step ok s es) (whole : run step s es = some t)
    (enough : left s < es.countP counts) :
    ∃ before e after u, es = before ++ e :: after ∧ run step s before = some u ∧ hit u e := by
  induction es generalizing s with
  | nil => exact absurd enough (Nat.not_lt_zero _)
  | cons e es ih =>
    obtain ⟨u, taken, rest⟩ := run_cons whole
    by_cases found : hit s e
    · exact ⟨[], e, es, s, rfl, rfl, found⟩
    · obtain ⟨held, closer⟩ := nearer s e u start steps.1 found taken
      have still : left u < es.countP counts := by
        rw [List.countP_cons] at enough
        cases counted : counts e with
        | true =>
          rw [counted, Bool.toNat_true] at closer
          rw [if_pos counted] at enough
          omega
        | false =>
          rw [counted, Bool.toNat_false] at closer
          rw [if_neg (by simp [counted])] at enough
          omega
      obtain ⟨before, e', after, v, split, reached, found⟩ := ih held (steps.2 u taken) rest still
      exact ⟨e :: before, e', after, v, by rw [split]; rfl, by simpa [run, taken] using reached, found⟩

/-- Where an admitted event always leads nearer to the goal, it can be reached. -/
theorem exists_run_of_nearer {step : σ → ε → Option σ} {inv goal : σ → Prop} {ok : σ → ε → Prop} {left : σ → Nat}
    (nearer : ∀ s, inv s → ¬ goal s → ∃ e t, ok s e ∧ step s e = some t ∧ inv t ∧ left t < left s) {s : σ}
    (start : inv s) : ∃ es t, Steps step ok s es ∧ run step s es = some t ∧ goal t := by
  induction amount : left s using Nat.strongRecOn generalizing s with
  | ind amount ih =>
    by_cases there : goal s
    · exact ⟨[], s, trivial, rfl, there⟩
    · obtain ⟨e, next, allowed, taken, held, closer⟩ := nearer s start there
      obtain ⟨es, t, steps, reached, found⟩ := ih (left next) (amount ▸ closer) held rfl
      exact ⟨e :: es, t, steps.cons allowed taken, by simpa [run, taken] using reached, found⟩

end AdTerminal.Transition
