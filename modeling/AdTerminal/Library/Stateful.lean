import Mathlib.Order.Defs.Unbundled

/-! Programs with a state and exceptions. A program that throws leaves the state it has
reached, so what it does not touch is as before on either way out. -/

namespace AdTerminal.Stateful

variable {ε σ α β γ : Type}

/-- The state a program leaves, returning or throwing. -/
def final (prog : EStateM ε σ α) (s : σ) : σ :=
  match prog.run s with
  | .ok _ t => t
  | .error _ t => t

/-- The exception it throws, if any. -/
def thrown (prog : EStateM ε σ α) (s : σ) : Option ε :=
  match prog.run s with
  | .ok _ _ => none
  | .error e _ => some e

/-- A reference that may be missing is used, and the exception is thrown when it is. -/
def orThrow (e : ε) : Option α → EStateM ε σ α
  | none => throw e
  | some x => pure x

/-- From whatever state, the state a program leaves is related to the first one. -/
def Within (R : σ → σ → Prop) (prog : EStateM ε σ α) : Prop := ∀ s, R s (final prog s)

/-- The program leaves that part of the state alone. -/
abbrev Keeps (part : σ → β) : EStateM ε σ α → Prop := Within fun s t => part t = part s

/-- What holds before the program holds after it. -/
abbrev Preserves (inv : σ → Prop) : EStateM ε σ α → Prop := Within fun s t => inv s → inv t

instance keepsPreorder (part : σ → β) : IsPreorder σ fun s t => part t = part s where
  refl _ := rfl
  trans _ _ _ first second := second.trans first

instance preservesPreorder (inv : σ → Prop) : IsPreorder σ fun s t => inv s → inv t where
  refl _ := id
  trans _ _ _ first second := second ∘ first

theorem Keeps.preserves {part : σ → β} {inv : β → Prop} {prog : EStateM ε σ α} (keeps : Keeps part prog) :
    Preserves (fun s => inv (part s)) prog := by
  intro s held
  rw [keeps s]
  exact held

section
variable {R : σ → σ → Prop} {part : σ → β} {prog : EStateM ε σ α} {next : α → EStateM ε σ γ} {s t : σ}
  {x : α} {e : ε}

theorem final_bind_ok (returns : prog.run s = .ok x t) : final (prog >>= next) s = final (next x) t := by
  simp [final, returns]

theorem final_bind_error (throws : prog.run s = .error e t) : final (prog >>= next) s = t := by
  simp [final, throws]

theorem thrown_bind_ok (returns : prog.run s = .ok x t) : thrown (prog >>= next) s = thrown (next x) t := by
  simp [thrown, returns]

theorem final_of_ok (returns : prog.run s = .ok x t) : final prog s = t := by
  simp [final, returns]

theorem final_of_error (throws : prog.run s = .error e t) : final prog s = t := by
  simp [final, throws]

/-- What comes after the first program decides nothing about a part it keeps. -/
theorem part_final_bind (rest : ∀ x, Keeps part (next x)) : part (final (prog >>= next) s) = part (final prog s) := by
  cases ran : prog.run s with
  | ok x t => rw [final_bind_ok ran, final_of_ok ran, rest x t]
  | error e t => rw [final_bind_error ran, final_of_error ran]

namespace Within

variable [IsPreorder σ R]

theorem pure (x : α) : Within R (pure x : EStateM ε σ α) := fun s => refl_of R s

theorem throw (e : ε) : Within R (throw e : EStateM ε σ α) := fun s => refl_of R s

theorem get : Within R (get : EStateM ε σ σ) := fun s => refl_of R s

omit [IsPreorder σ R] in
theorem modify {f : σ → σ} (related : ∀ s, R s (f s)) : Within R (modify f : EStateM ε σ PUnit) := related

theorem orThrow (e : ε) (reference : Option α) : Within R (orThrow e reference : EStateM ε σ α) := by
  cases reference with
  | none => exact throw e
  | some x => exact pure x

theorem bind (first : Within R prog) (rest : ∀ x, Within R (next x)) : Within R (prog >>= next) := by
  intro s
  have before := first s
  cases ran : prog.run s with
  | ok x t =>
    rw [final_of_ok ran] at before
    rw [final_bind_ok ran]
    exact trans_of R before (rest x t)
  | error e t =>
    rw [final_of_error ran] at before
    rw [final_bind_error ran]
    exact before

omit [IsPreorder σ R] in
theorem ite {condition : Prop} [Decidable condition] {other : EStateM ε σ α} (yes : condition → Within R prog)
    (no : ¬ condition → Within R other) : Within R (if condition then prog else other) := by
  split
  next met => exact yes met
  next unmet => exact no unmet

theorem forM {body : γ → EStateM ε σ PUnit} (each : ∀ x, Within R (body x)) (xs : List γ) :
    Within R (xs.forM body) := by
  induction xs with
  | nil => exact pure _
  | cons x rest ih => exact bind (each x) fun _ => ih

end Within

theorem run_tryCatch (prog : EStateM ε σ α) (handler : ε → EStateM ε σ α) (s : σ) :
    (tryCatch prog handler).run s = match prog.run s with
      | .ok x t => .ok x t
      | .error e t => (handler e).run t := by
  change EStateM.tryCatch prog handler s = _
  delta EStateM.tryCatch EStateM.run
  cases prog s with
  | ok x t => rfl
  | error e t => rfl

/-- A handler that does nothing to the state leaves what was reached. -/
theorem final_tryCatch {handler : ε → EStateM ε σ α} (handled : ∀ e, Keeps id (handler e)) (s : σ) :
    final (tryCatch prog handler) s = final prog s := by
  rw [final, run_tryCatch]
  cases ran : prog.run s with
  | ok x t => exact (final_of_ok ran).symm
  | error e t =>
    rw [final_of_error ran]
    exact handled e t

/-- The program returns from every state. -/
def Returns (prog : EStateM ε σ α) : Prop := ∀ s, thrown prog s = none

namespace Returns

theorem run_ok (returns : Returns prog) (s : σ) : ∃ x, prog.run s = .ok x (final prog s) := by
  have none := returns s
  unfold thrown at none
  cases ran : prog.run s with
  | ok x t => exact ⟨x, by rw [final_of_ok ran]⟩
  | error e t => simp [ran] at none

theorem pure (x : α) : Returns (pure x : EStateM ε σ α) := fun _ => rfl

theorem get : Returns (get : EStateM ε σ σ) := fun _ => rfl

theorem modify (f : σ → σ) : Returns (modify f : EStateM ε σ PUnit) := fun _ => rfl

theorem bind (first : Returns prog) (rest : ∀ x, Returns (next x)) : Returns (prog >>= next) := by
  intro s
  obtain ⟨x, ran⟩ := run_ok first s
  rw [thrown_bind_ok ran]
  exact rest x _

theorem ite {condition : Prop} [Decidable condition] {other : EStateM ε σ α} (yes : Returns prog)
    (no : Returns other) : Returns (if condition then prog else other) := by
  split
  · exact yes
  · exact no

theorem forM {body : γ → EStateM ε σ PUnit} {xs : List γ} (each : ∀ x ∈ xs, Returns (body x)) :
    Returns (xs.forM body) := by
  induction xs with
  | nil => exact pure _
  | cons x rest ih =>
    exact bind (each x List.mem_cons_self) fun _ => ih fun y member => each y (List.mem_cons_of_mem _ member)

/-- After a program that returns, the rest starts from the state it left. -/
theorem final_bind {prog : EStateM ε σ PUnit} {next : PUnit → EStateM ε σ γ} (returns : Returns prog) (s : σ) :
    final (prog >>= next) s = final (next ⟨⟩) (final prog s) := by
  obtain ⟨x, ran⟩ := run_ok returns s
  exact final_bind_ok ran

end Returns

end

end AdTerminal.Stateful
