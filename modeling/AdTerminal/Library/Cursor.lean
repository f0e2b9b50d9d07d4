import Mathlib.Data.List.Rotate

/-! Cursors over the rows of a query. A fresh cursor stands before the first row, and reading is
possible on a row only. -/

namespace AdTerminal

structure Cursor (α : Type) where
  rows : List α
  position : Int := -1
  deriving DecidableEq, Repr

namespace Cursor

variable {α : Type}

def getCount (c : Cursor α) : Nat := c.rows.length

/-- A position out of range takes the cursor before the first row or after the last. -/
def moveToPosition (position : Int) (c : Cursor α) : Bool × Cursor α :=
  if c.getCount ≤ position then (false, { c with position := c.getCount })
  else if position < 0 then (false, { c with position := -1 })
  else (true, { c with position := position })

def moveToFirst (c : Cursor α) : Bool × Cursor α := c.moveToPosition 0

def moveToNext (c : Cursor α) : Bool × Cursor α := c.moveToPosition (c.position + 1)

/-- The row the cursor stands on. On none, an exception is thrown. -/
def get (c : Cursor α) : Option α := if c.position < 0 then none else c.rows[c.position.toNat]?

variable {c : Cursor α} {rows : List α} {read : List (Option α)}

@[simp] theorem rows_moveToPosition (position : Int) : (c.moveToPosition position).2.rows = c.rows := by
  unfold moveToPosition
  split_ifs <;> rfl

@[simp] theorem rows_moveToFirst : c.moveToFirst.2.rows = c.rows := rows_moveToPosition 0

@[simp] theorem rows_moveToNext : c.moveToNext.2.rows = c.rows := rows_moveToPosition _

theorem moveToPosition_of_lt {n : Nat} (inside : n < c.rows.length) :
    c.moveToPosition n = (true, { c with position := n }) := by
  unfold moveToPosition getCount
  rw [if_neg (by omega), if_neg (by omega)]

theorem position_moveToFirst (some : c.rows ≠ []) : c.moveToFirst.2.position = 0 := by
  have first : c.moveToFirst = (true, { c with position := 0 }) :=
    moveToPosition_of_lt (List.length_pos_of_ne_nil some)
  rw [first]

theorem moveToNext_last {n : Nat} (last : c.position = n) (end_ : n + 1 = c.rows.length) :
    c.moveToNext = (false, { c with position := c.rows.length }) := by
  unfold moveToNext moveToPosition getCount
  rw [if_pos (by omega)]

theorem get_of_position {n : Nat} (at_ : c.position = n) : c.get = c.rows[n]? := by
  unfold get
  rw [at_, if_neg (by omega), Int.toNat_natCast]

/-- Moving on, and to the first row after the last, a cursor goes around. -/
theorem moveAround {k : Nat} (some : c.rows ≠ []) (at_ : c.position = (k % c.rows.length : Nat)) :
    (if c.moveToNext.1 then c.moveToNext.2 else c.moveToNext.2.moveToFirst.2) =
      { c with position := ((k + 1) % c.rows.length : Nat) } := by
  have inside := Nat.mod_lt k (List.length_pos_of_ne_nil some)
  by_cases last : k % c.rows.length + 1 = c.rows.length
  · have around : (k + 1) % c.rows.length = 0 := by rw [← Nat.mod_add_mod, last, Nat.mod_self]
    have first : ({ c with position := c.rows.length } : Cursor α).moveToFirst = (true, { c with position := 0 }) :=
      moveToPosition_of_lt (List.length_pos_of_ne_nil some)
    rw [moveToNext_last at_ last, around]
    simp [first]
  · have next : k % c.rows.length + 1 < c.rows.length := by omega
    have on : (k + 1) % c.rows.length = k % c.rows.length + 1 := by rw [← Nat.mod_add_mod, Nat.mod_eq_of_lt next]
    have moved : c.moveToNext = (true, { c with position := (k % c.rows.length + 1 : Nat) }) := by
      unfold moveToNext
      rw [at_]
      exact moveToPosition_of_lt next
    rw [moved, on]
    rfl

/-- What is read is what a cursor reads that goes around from the first row. -/
def Cyclic (rows : List α) (read : List (Option α)) : Prop :=
  ∀ i < read.length, read[i]? = some rows[i % rows.length]?

namespace Cyclic

theorem nil : Cyclic rows [] := fun i below => absurd below (Nat.not_lt_zero i)

theorem concat (cyclic : Cyclic rows read) : Cyclic rows (read ++ [rows[read.length % rows.length]?]) := by
  intro i below
  rw [List.length_append, List.length_singleton, Nat.lt_succ_iff_lt_or_eq] at below
  rcases below with below | rfl
  · rw [List.getElem?_append_left below]
    exact cyclic i below
  · exact List.getElem?_concat_length

/-- As many readings as there are rows give the rows in their order, from one of them on. -/
theorem window_eq (cyclic : Cyclic rows read) {before window after : List (Option α)}
    (split : read = before ++ window ++ after) (full : window.length = rows.length) :
    window = (rows.rotate before.length).map some := by
  rw [List.map_rotate]
  refine List.ext_getElem (by simp [full]) fun j inside inside' => ?_
  have row : (before.length + j) % rows.length < rows.length := Nat.mod_lt _ (by omega)
  have at_ : read[before.length + j]? = some window[j] := by
    rw [split, List.append_assoc, List.getElem?_append_right (Nat.le_add_right _ _), Nat.add_sub_cancel_left,
      List.getElem?_append_left inside, List.getElem?_eq_getElem inside]
  have within := (List.getElem?_eq_some_iff.mp at_).1
  have same := Option.some.inj (at_.symm.trans (cyclic _ within))
  rw [same, List.getElem?_eq_getElem row, List.getElem_rotate]
  simp [Nat.add_comm]

/-- As many readings as there are rows give each row once. -/
theorem window_perm (cyclic : Cyclic rows read) {before window after : List (Option α)}
    (split : read = before ++ window ++ after) (full : window.length = rows.length) :
    window.Perm (rows.map some) := by
  rw [cyclic.window_eq split full]
  exact (List.rotate_perm _ _).map some

end Cyclic

end Cursor

end AdTerminal
