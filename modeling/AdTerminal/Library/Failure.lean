import Mathlib.Logic.Basic

/-! Pre- and postconditions for programs that may fail, with a condition of its own for the states they
fail in. -/

namespace AdTerminal.Failure

variable {ε σ α γ : Type}

/-- What a result has to meet. -/
def Ends (Q : α → σ → Prop) (E : σ → Prop) : EStateM.Result ε σ α → Prop
  | .ok a t => Q a t
  | .error _ t => E t

/-- From a state that meets `P` the program ends in one that meets `Q`, or fails in one that meets `E`. -/
def Triple (P : σ → Prop) (x : EStateM ε σ α) (Q : α → σ → Prop) (E : σ → Prop) : Prop :=
  ∀ s, P s → Ends Q E (x.run s)

namespace Triple

variable {P : σ → Prop} {E : σ → Prop}

theorem pure {Q : α → σ → Prop} {a : α} (holds : ∀ s, P s → Q a s) : Triple P (pure a : EStateM ε σ α) Q E :=
  fun s start => holds s start

theorem throw {Q : α → σ → Prop} {e : ε} (holds : ∀ s, P s → E s) : Triple P (throw e : EStateM ε σ α) Q E :=
  fun s start => holds s start

theorem modify {Q : Unit → σ → Prop} {f : σ → σ} (holds : ∀ s, P s → Q () (f s)) :
    Triple P (modify f : EStateM ε σ Unit) Q E :=
  fun s start => holds s start

theorem bind {R : α → σ → Prop} {Q : γ → σ → Prop} {x : EStateM ε σ α} {f : α → EStateM ε σ γ}
    (first : Triple P x R E) (rest : ∀ a, Triple (R a) (f a) Q E) : Triple P (x >>= f) Q E := by
  intro s start
  have middle := first s start
  rw [EStateM.run_bind]
  match result : x.run s with
  | .ok a t =>
    rw [result] at middle
    exact rest a t middle
  | .error e t =>
    rw [result] at middle
    exact middle

theorem ite {Q : α → σ → Prop} {p : Prop} [Decidable p] {x y : EStateM ε σ α} (yes : p → Triple P x Q E)
    (no : ¬ p → Triple P y Q E) : Triple P (if p then x else y) Q E := by
  split
  · exact yes ‹_›
  · exact no ‹_›

theorem conseq {P' : σ → Prop} {Q Q' : α → σ → Prop} {E' : σ → Prop} {x : EStateM ε σ α} (triple : Triple P x Q E)
    (pre : ∀ s, P' s → P s) (post : ∀ a s, Q a s → Q' a s) (fail : ∀ s, E s → E' s) : Triple P' x Q' E' := by
  intro s start
  have ends := triple s (pre s start)
  match result : x.run s with
  | .ok a t =>
    rw [result] at ends
    exact post a t ends
  | .error e t =>
    rw [result] at ends
    exact fail t ends

/-- What every state to start from shows may be used. -/
theorem have_pre {F : Prop} {Q : α → σ → Prop} {x : EStateM ε σ α} (shows : ∀ s, P s → F)
    (triple : F → Triple P x Q E) : Triple P x Q E :=
  fun s start => triple (shows s start) s start

end Triple

end AdTerminal.Failure
