import AdTerminal.Library.Cursor
import AdTerminal.Library.Transition

/-! The elements of a list in turn, by a position that is moved on before it is used. The list
may be replaced by another one at any time, and the position stays where it is. -/

namespace AdTerminal.RoundRobin
open Transition

variable {α : Type}

/-- The next position, the first one after the last. -/
def advance (position size : Nat) : Nat := if size ≤ position + 1 then 0 else position + 1

/-- The next element with its position, and null if there is none. A position out of bounds throws. -/
def getByOrder (list : Option (List α)) (position : Nat) : Option (Option α × Nat) :=
  match list with
  | none => some (none, position)
  | some list =>
    if list.length ≤ 0 then some (none, position)
    else
      let position := advance position list.length
      list[position]?.map fun item => (some item, position)

/-- A missing list has no elements. -/
def elements (list : Option (List α)) : List α := list.getD []

def upcoming (list : Option (List α)) (position : Nat) : Option α :=
  (elements list)[advance position (elements list).length]?

def moved (list : Option (List α)) (position : Nat) : Nat :=
  if elements list = [] then position else advance position (elements list).length

/-- The order at work: the list, the position, and what has been returned since the list was set,
each element with its position. -/
structure Order (α : Type) where
  list : Option (List α)
  position : Nat
  returned : List (Option (α × Nat)) := []

namespace Order

def elements (o : Order α) : List α := RoundRobin.elements o.list

def upcoming (o : Order α) : Option α := RoundRobin.upcoming o.list o.position

def next (o : Order α) : Order α :=
  let position := moved o.list o.position
  { o with position, returned := o.returned ++ [o.upcoming.map fun item => (item, position)] }

def replace (list : Option (List α)) (o : Order α) : Order α := { o with list, returned := [] }

end Order

variable {list : Option (List α)} {position index size : Nat} {o : Order α} {item : α}

theorem advance_lt (some : 0 < size) : advance position size < size := by
  unfold advance
  split_ifs <;> omega

theorem advance_eq_mod (inside : position < size) : advance position size = (position + 1) % size := by
  unfold advance
  split_ifs with last
  · have end_ : position + 1 = size := by omega
    rw [end_, Nat.mod_self]
  · exact (Nat.mod_eq_of_lt (by omega)).symm

theorem moved_eq (some : elements list ≠ []) : moved list position = advance position (elements list).length :=
  if_neg some

theorem upcoming_eq_none : upcoming list position = none ↔ elements list = [] := by
  unfold upcoming
  rw [List.getElem?_eq_none_iff]
  constructor
  · intro outside
    by_contra some
    exact absurd (advance_lt (List.length_pos_of_ne_nil some)) (Nat.not_lt.mpr outside)
  · intro empty
    simp [empty]

/-- What is returned is the element at the position that is left. -/
theorem getElem?_moved (next : upcoming list position = some item) :
    (elements list)[moved list position]? = some item := by
  have some : elements list ≠ [] := fun empty => nomatch (upcoming_eq_none.mpr empty).symm.trans next
  rw [moved_eq some]
  exact next

/-- Whatever the position, it is in bounds when it is used. -/
theorem getByOrder_eq : getByOrder list position = some (upcoming list position, moved list position) := by
  cases list with
  | none => rfl
  | some list =>
    unfold getByOrder upcoming moved elements
    by_cases empty : list = []
    · simp [empty]
    · have inside : advance position list.length < list.length := advance_lt (List.length_pos_of_ne_nil empty)
      simp [empty, List.getElem?_eq_getElem inside]

/-- The position was left by a longer list. -/
example : getByOrder (some ["a", "b"]) 7 = some (some "a", 0) := by decide

/-- What has been returned are the elements of the list around and around, each with its index,
from the one on that was next when the list was set. -/
def Turning (o : Order α) : Prop :=
  ∃ first, Cursor.Cyclic (o.elements.zipIdx.rotate first) o.returned ∧
    (o.elements ≠ [] → advance o.position o.elements.length = (first + o.returned.length) % o.elements.length)

namespace Turning

/-- A list that is set starts a turn, at whatever position. -/
theorem start (fresh : o.returned = []) : Turning o := by
  refine ⟨advance o.position o.elements.length, fresh ▸ .nil, fun some => ?_⟩
  rw [fresh]
  exact (Nat.mod_eq_of_lt (advance_lt (List.length_pos_of_ne_nil some))).symm

theorem next (turning : Turning o) : Turning o.next := by
  obtain ⟨first, cyclic, at_⟩ := turning
  have row : (o.elements.zipIdx.rotate first)[o.returned.length % (o.elements.zipIdx.rotate first).length]? =
      o.upcoming.map fun item => (item, moved o.list o.position) := by
    by_cases empty : o.elements = []
    · simp [upcoming_eq_none.mpr empty, Order.upcoming, empty]
    · have some := List.length_pos_of_ne_nil empty
      rw [List.length_rotate, List.length_zipIdx, List.getElem?_rotate (by simpa using Nat.mod_lt _ some),
        List.length_zipIdx, Nat.mod_add_mod, Nat.add_comm, ← at_ empty, List.getElem?_zipIdx, moved_eq empty]
      simp [Order.upcoming, upcoming, Order.elements]
  have returned := cyclic.concat
  rw [row] at returned
  refine ⟨first, returned, fun (some : o.elements ≠ []) => ?_⟩
  have inside : advance o.position o.elements.length < o.elements.length := advance_lt (List.length_pos_of_ne_nil some)
  have position : o.next.position = advance o.position o.elements.length := moved_eq some
  calc advance o.next.position o.elements.length
      = (advance o.position o.elements.length + 1) % o.elements.length := by rw [position, advance_eq_mod inside]
    _ = (first + (o.returned.length + 1)) % o.elements.length := by rw [at_ some, Nat.mod_add_mod, Nat.add_assoc]
    _ = (first + o.next.returned.length) % o.elements.length := by simp [Order.next]

/-- As many answers as there are elements give every index once, in cyclic order. -/
theorem window (turning : Turning o) {before window after : List (Option (α × Nat))}
    (split : o.returned = before ++ window ++ after) (full : window.length = o.elements.length) :
    ∃ k, window = (o.elements.zipIdx.rotate k).map some := by
  obtain ⟨first, cyclic, -⟩ := turning
  refine ⟨first + before.length, ?_⟩
  rw [cyclic.window_eq split (by simpa using full), List.rotate_rotate]

end Turning

/-- How many elements come before that of an index. -/
def ahead (position index size : Nat) : Nat :=
  let next := advance position size
  if next ≤ index then index - next else index + size - next

theorem ahead_lt (inside : index < size) : ahead position index size < size := by
  have next : advance position size < size := advance_lt (by omega)
  unfold ahead
  dsimp only
  split_ifs <;> omega

/-- An element that is not the next one comes one nearer. -/
theorem ahead_advance (inside : index < size) (other : advance position size ≠ index) :
    ahead (advance position size) index size + 1 = ahead position index size := by
  have next : advance position size < size := advance_lt (by omega)
  unfold ahead
  dsimp only
  generalize advance position size = place at next other
  unfold advance
  split_ifs <;> omega

/-- In a system that asks in order, an element of the list is asked for before more questions than
the list is long have been asked. -/
theorem exists_asked {σ ε : Type*} {step : σ → ε → Option σ} {order : σ → Order α} {asks : ε → Bool}
    {ok hit : σ → ε → Prop} (moves : ∀ s e t, ok s e → step s e = some t →
      order t = if asks e then (order s).next else order s)
    (found : ∀ s e t, ok s e → asks e → step s e = some t → (order s).upcoming = some item → hit s e)
    {s t : σ} {es : List ε} (member : item ∈ (order s).elements) (steps : Steps step ok s es)
    (whole : run step s es = some t) (enough : (order s).elements.length ≤ es.countP asks) :
    ∃ before e after u, es = before ++ e :: after ∧ run step s before = some u ∧ hit u e := by
  obtain ⟨index, inside, at_⟩ := List.mem_iff_getElem.mp member
  have nearer : ∀ u e v, (order u).list = (order s).list → ok u e → ¬ hit u e → step u e = some v →
      (order v).list = (order s).list ∧
        ahead (order v).position index (order s).elements.length + (asks e).toNat ≤
          ahead (order u).position index (order s).elements.length := by
    intro u e v same allowed missed taken
    rw [moves u e v allowed taken]
    cases asked : asks e with
    | false => exact ⟨same, le_rfl⟩
    | true =>
      have elements : (order u).elements = (order s).elements := congrArg RoundRobin.elements same
      have some : (order u).elements ≠ [] := elements ▸ List.ne_nil_of_mem member
      have other : advance (order u).position (order s).elements.length ≠ index := by
        intro next
        refine missed (found u e v allowed asked taken ?_)
        change (order u).elements[advance (order u).position (order u).elements.length]? = _
        rw [elements, next, List.getElem?_eq_getElem inside, at_]
      have moved : (order u).next.position = advance (order u).position (order s).elements.length :=
        elements ▸ moved_eq some
      refine ⟨same, ?_⟩
      rw [if_pos rfl, moved]
      exact (ahead_advance inside other).le
  exact exists_of_countdown nearer rfl steps whole ((ahead_lt inside).trans_le enough)

end AdTerminal.RoundRobin
