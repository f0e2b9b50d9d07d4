import Mathlib.Logic.Basic

/-! Programs that read bytes from a buffer they share with a socket, and what it takes for two
buffers to make no difference to them. -/

namespace AdTerminal.Simulation

/-- What a program asks of its buffer: to wait for so many bytes and consume them, or to wait for
them and leave them where they are. -/
class ByteSource (ε : outParam Type) (β : Type) where
  read : Nat → EStateM ε β (List UInt8)
  peek : Nat → EStateM ε β (List UInt8)

variable {ε σ τ α γ : Type}

theorem bind_ok {x : EStateM ε σ α} {f : α → EStateM ε σ γ} {s t : σ} {a : α} (first : x.run s = .ok a t) :
    (x >>= f).run s = (f a).run t := by
  rw [EStateM.run_bind, first]

theorem bind_error {x : EStateM ε σ α} {f : α → EStateM ε σ γ} {s t : σ} {e : ε} (first : x.run s = .error e t) :
    (x >>= f).run s = .error e t := by
  rw [EStateM.run_bind, first]

/-- Two results with the same outcome, in states that the relation ties. -/
def Agree (R : σ → τ → Prop) : EStateM.Result ε σ α → EStateM.Result ε τ α → Prop
  | .ok a s, .ok b t => a = b ∧ R s t
  | .error e s, .error f t => e = f ∧ R s t
  | _, _ => False

/-- Two programs that agree whenever they start in related states. -/
def Sim (R : σ → τ → Prop) (x : EStateM ε σ α) (y : EStateM ε τ α) : Prop :=
  ∀ s t, R s t → Agree R (x.run s) (y.run t)

variable {R : σ → τ → Prop}

theorem Sim.pure (a : α) : Sim R (pure a : EStateM ε σ α) (pure a) :=
  fun _ _ related => ⟨rfl, related⟩

theorem Sim.throw (e : ε) : Sim R (throw e : EStateM ε σ α) (throw e) :=
  fun _ _ related => ⟨rfl, related⟩

theorem Sim.bind {x : EStateM ε σ α} {y : EStateM ε τ α} {f : α → EStateM ε σ γ} {g : α → EStateM ε τ γ}
    (first : Sim R x y) (rest : ∀ a, Sim R (f a) (g a)) : Sim R (x >>= f) (y >>= g) := by
  intro s t related
  have step := first s t related
  rw [EStateM.run_bind, EStateM.run_bind]
  match left : x.run s, right : y.run t with
  | .ok a u, .ok b v =>
    rw [left, right] at step
    obtain ⟨rfl, next⟩ := step
    exact rest a u v next
  | .error e u, .error f v =>
    rw [left, right] at step
    exact step
  | .ok _ _, .error _ _ =>
    rw [left, right] at step
    exact step.elim
  | .error _ _, .ok _ _ =>
    rw [left, right] at step
    exact step.elim

/-- What is read from the state may be anything the relation makes equal, and is one of those it allows. -/
theorem Sim.bind_get {p : σ → γ} {q : τ → γ} {F : γ → Prop} (same : ∀ s t, R s t → p s = q t ∧ F (q t))
    {f : γ → EStateM ε σ α} {g : γ → EStateM ε τ α} (rest : ∀ c, F c → Sim R (f c) (g c)) :
    Sim R ((do return p (← get)) >>= f) ((do return q (← get)) >>= g) := by
  intro s t related
  obtain ⟨equal, allowed⟩ := same s t related
  change Agree R ((f (p s)).run s) ((g (q t)).run t)
  rw [equal]
  exact rest (q t) allowed s t related

theorem Sim.get {p : σ → γ} {q : τ → γ} (same : ∀ s t, R s t → p s = q t) :
    Sim R (do return p (← get) : EStateM ε σ γ) (do return q (← get)) :=
  fun s t related => ⟨same s t related, related⟩

theorem Sim.modify {f : σ → σ} {g : τ → τ} (kept : ∀ s t, R s t → R (f s) (g t)) :
    Sim R (modify f : EStateM ε σ Unit) (modify g) :=
  fun s t related => ⟨rfl, kept s t related⟩

theorem Sim.ite {p : Prop} [Decidable p] {x x' : EStateM ε σ α} {y y' : EStateM ε τ α} (yes : p → Sim R x y)
    (no : ¬ p → Sim R x' y') : Sim R (if p then x else x') (if p then y else y') := by
  split
  · exact yes ‹_›
  · exact no ‹_›

end AdTerminal.Simulation
