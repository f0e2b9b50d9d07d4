import Mathlib.Data.List.Basic

/-! Programs that drive a device through its registers. What the device answers may depend on all
accesses so far; a program is known by its result and by the accesses it adds. -/

namespace AdTerminal.RegisterBus

variable {ρ β α γ : Type}

inductive Access (ρ β : Type) where
  | read (register : ρ) (value : β)
  | write (register : ρ) (value : β)
  deriving DecidableEq, Repr

abbrev Log (ρ β : Type) := List (Access ρ β)

/-- The answer to a read, after the accesses before it. -/
abbrev Chip (ρ β : Type) := Log ρ β → ρ → β

structure Outcome (ρ β α : Type) where
  result : α
  added : Log ρ β

def Bus (ρ β α : Type) := Chip ρ β → Log ρ β → Outcome ρ β α

namespace Bus

instance : Monad (Bus ρ β) where
  pure x := fun _ _ => ⟨x, []⟩
  bind prog next := fun chip log =>
    let first := prog chip log
    let rest := next first.result chip (log ++ first.added)
    ⟨rest.result, first.added ++ rest.added⟩

def result (prog : Bus ρ β α) (chip : Chip ρ β) (log : Log ρ β) : α := (prog chip log).result

def added (prog : Bus ρ β α) (chip : Chip ρ β) (log : Log ρ β) : Log ρ β := (prog chip log).added

def read (register : ρ) : Bus ρ β β := fun chip log => ⟨chip log register, [.read register (chip log register)]⟩

def write (register : ρ) (value : β) : Bus ρ β Unit := fun _ _ => ⟨(), [.write register value]⟩

section
variable (chip : Chip ρ β) (log : Log ρ β)

@[simp] theorem result_pure (x : α) : (pure x : Bus ρ β α).result chip log = x := rfl

@[simp] theorem added_pure (x : α) : (pure x : Bus ρ β α).added chip log = [] := rfl

@[simp] theorem result_bind (prog : Bus ρ β α) (next : α → Bus ρ β γ) :
    (prog >>= next).result chip log =
      (next (prog.result chip log)).result chip (log ++ prog.added chip log) := rfl

@[simp] theorem added_bind (prog : Bus ρ β α) (next : α → Bus ρ β γ) :
    (prog >>= next).added chip log =
      prog.added chip log ++ (next (prog.result chip log)).added chip (log ++ prog.added chip log) := rfl

@[simp] theorem result_read (register : ρ) : (read register).result chip log = chip log register := rfl

@[simp] theorem added_read (register : ρ) :
    (read register).added chip log = [.read register (chip log register)] := rfl

@[simp] theorem added_write (register : ρ) (value : β) :
    (write register value).added chip log = [.write register value] := rfl

end

/-- Reads until the value is enough, at most once more than the count says. -/
def poll (register : ρ) (enough : β → Bool) : Nat → Bus ρ β (β × Nat)
  | 0 => do
    let value ← read register
    pure (value, 0)
  | left + 1 => do
    let value ← read register
    if enough value then pure (value, left + 1) else poll register enough left

def readMany (register : ρ) : Nat → Bus ρ β (List β)
  | 0 => pure []
  | count + 1 => do
    let value ← read register
    let values ← readMany register count
    pure (value :: values)

def writeMany (register : ρ) : List β → Bus ρ β Unit
  | [] => pure ()
  | value :: values => do
    write register value
    writeMany register values

end Bus

section
variable [DecidableEq ρ]

/-- The values read from a register, in order. -/
def readsOf (register : ρ) (log : Log ρ β) : List β :=
  log.filterMap fun
    | .read other value => if other = register then some value else none
    | .write .. => none

/-- The values written to a register, in order. -/
def writesTo (register : ρ) (log : Log ρ β) : List β :=
  log.filterMap fun
    | .read .. => none
    | .write other value => if other = register then some value else none

variable {register other : ρ} {value : β} {log log' : Log ρ β}

@[simp] theorem readsOf_nil : readsOf register ([] : Log ρ β) = [] := rfl

@[simp] theorem writesTo_nil : writesTo register ([] : Log ρ β) = [] := rfl

@[simp] theorem readsOf_append : readsOf register (log ++ log') = readsOf register log ++ readsOf register log' :=
  List.filterMap_append ..

@[simp] theorem writesTo_append :
    writesTo register (log ++ log') = writesTo register log ++ writesTo register log' :=
  List.filterMap_append ..

@[simp] theorem readsOf_read_cons : readsOf register (.read other value :: log) =
    if other = register then value :: readsOf register log else readsOf register log := by
  simp only [readsOf, List.filterMap_cons]
  split <;> simp_all

@[simp] theorem readsOf_write_cons : readsOf register (.write other value :: log) = readsOf register log := rfl

@[simp] theorem writesTo_read_cons : writesTo register (.read other value :: log) = writesTo register log := rfl

@[simp] theorem writesTo_write_cons : writesTo register (.write other value :: log) =
    if other = register then value :: writesTo register log else writesTo register log := by
  simp only [writesTo, List.filterMap_cons]
  split <;> simp_all

theorem readsOf_map_read (values : List β) :
    readsOf register (values.map (Access.read other)) = if other = register then values else [] := by
  induction values with
  | nil => simp
  | cons value values ih =>
    rw [List.map_cons, readsOf_read_cons, ih]
    split <;> rfl

theorem writesTo_map_read (values : List β) : writesTo register (values.map (Access.read other)) = [] := by
  induction values with
  | nil => rfl
  | cons value values ih => exact ih

theorem readsOf_map_write (values : List β) : readsOf register (values.map (Access.write other)) = [] := by
  induction values with
  | nil => rfl
  | cons value values ih => exact ih

end

/-- From whatever log, the result and the accesses added are related so. -/
def Adds (chip : Chip ρ β) (prog : Bus ρ β α) (spec : α → Log ρ β → Prop) : Prop :=
  ∀ log, spec (prog.result chip log) (prog.added chip log)

/-- The device gives that value for the register at some time. -/
def Answers (chip : Chip ρ β) (register : ρ) (value : β) : Prop := ∃ log, chip log register = value

namespace Adds

variable {chip : Chip ρ β} {prog : Bus ρ β α} {next : α → Bus ρ β γ} {spec spec' : α → Log ρ β → Prop}
  {post : γ → Log ρ β → Prop}

theorem pure {x : α} (met : spec x []) : Adds chip (pure x : Bus ρ β α) spec := fun _ => met

theorem bind (first : Adds chip prog spec)
    (rest : ∀ x before, spec x before → Adds chip (next x) fun y after => post y (before ++ after)) :
    Adds chip (prog >>= next) post :=
  fun log => rest _ _ (first log) _

theorem imp (first : Adds chip prog spec) (weaker : ∀ x log, spec x log → spec' x log) : Adds chip prog spec' :=
  fun log => weaker _ _ (first log)

theorem read (register : ρ) : Adds chip (Bus.read register) fun value log =>
    log = [.read register value] ∧ Answers chip register value :=
  fun log => ⟨rfl, log, rfl⟩

theorem write (register : ρ) (value : β) :
    Adds chip (Bus.write register value) fun _ log => log = [.write register value] :=
  fun _ => rfl

theorem ite {condition : Prop} [Decidable condition] {other : Bus ρ β α} (yes : condition → Adds chip prog spec)
    (no : ¬ condition → Adds chip other spec) : Adds chip (if condition then prog else other) spec := by
  split
  next met => exact yes met
  next unmet => exact no unmet

theorem readMany (register : ρ) (count : Nat) : Adds chip (Bus.readMany register count) fun values log =>
    values.length = count ∧ log = values.map (.read register) := by
  induction count with
  | zero => exact .pure ⟨rfl, rfl⟩
  | succ count ih =>
    refine (read register).bind fun value _ first => ih.bind fun values _ rest => .pure ?_
    obtain ⟨length, rfl⟩ := rest
    simp [length, first.1]

theorem writeMany (register : ρ) (values : List β) :
    Adds chip (Bus.writeMany register values) fun _ log => log = values.map (.write register) := by
  induction values with
  | nil => exact .pure rfl
  | cons value values ih =>
    refine (write register value).bind fun _ _ first => ih.imp fun _ _ rest => ?_
    subst first rest
    rfl

/-- The last value of a poll is its result, and is enough if reads are left. -/
theorem poll (register : ρ) (enough : β → Bool) (count : Nat) :
    Adds chip (Bus.poll register enough count) fun last log =>
      ∃ values : List β, log = values.map (.read register) ∧ values.length + last.2 = count + 1 ∧
        Answers chip register last.1 ∧ (last.2 ≠ 0 → enough last.1 = true) := by
  induction count with
  | zero =>
    refine (read register).bind fun value _ first => .pure ⟨[value], ?_, rfl, first.2, fun left => absurd rfl left⟩
    simp [first.1]
  | succ count ih =>
    refine (read register).bind fun value _ first => ?_
    refine .ite (fun met => .pure ⟨[value], ?_, ?_, first.2, fun _ => met⟩) fun _ => ?_
    · simp [first.1]
    · exact Nat.add_comm _ _
    · refine ih.imp fun last _ rest => ?_
      obtain ⟨values, rfl, length, answered, enough⟩ := rest
      exact ⟨value :: values, by simp [first.1], by rw [List.length_cons]; omega, answered, enough⟩

end Adds

end AdTerminal.RegisterBus
