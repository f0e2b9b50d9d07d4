import Mathlib.Algebra.BigOperators.Group.List.Basic
import Mathlib.Algebra.Ring.Int.Defs
import Mathlib.Data.Set.Function
import Mathlib.Order.Interval.Set.Defs
import Mathlib.Order.Monotone.Basic

/-! Files that are written in pieces at arbitrary positions: what a write changes, when the
pieces written so far agree with a source, and how an interval is cut into tiles. -/

namespace AdTerminal.RandomAccess

variable {α : Type*}

/-- The file cut off or filled up to a length. -/
def setLength (fill : α) (file : List α) (length : Nat) : List α :=
  file.take length ++ List.replicate (length - file.length) fill

/-- The file after a write of some bytes at a position, with a gap before it filled. -/
def writeAt (fill : α) (file : List α) (pos : Nat) (bytes : List α) : List α :=
  let reached := setLength fill file (max file.length pos)
  reached.take pos ++ bytes ++ reached.drop (pos + bytes.length)

/-- Two files hold the same at all given positions. -/
abbrev AgreeOn (first second : List α) (positions : Set Nat) : Prop :=
  Set.EqOn (fun i => first[i]?) (fun i => second[i]?) positions

@[simp] theorem length_setLength (fill : α) (file : List α) (length : Nat) :
    (setLength fill file length).length = length := by
  simp only [setLength, List.length_append, List.length_take, List.length_replicate]
  omega

theorem setLength_self (fill : α) (file : List α) : setLength fill file file.length = file := by
  simp [setLength]

theorem length_writeAt (fill : α) {file : List α} {pos : Nat} {bytes : List α}
    (fits : pos + bytes.length ≤ file.length) : (writeAt fill file pos bytes).length = file.length := by
  have inside : max file.length pos = file.length := by omega
  simp only [writeAt, inside, setLength_self, List.length_append, List.length_take, List.length_drop]
  omega

theorem getElem?_writeAt (fill : α) {file : List α} {pos : Nat} (bytes : List α) (inside : pos ≤ file.length)
    (i : Nat) : (writeAt fill file pos bytes)[i]? =
      if pos ≤ i ∧ i < pos + bytes.length then bytes[i - pos]? else file[i]? := by
  have start : (file.take pos).length = pos := List.length_take_of_le inside
  simp only [writeAt, max_eq_left inside, setLength_self, List.append_assoc]
  by_cases before : i < pos
  · rw [List.getElem?_append_left (by omega), List.getElem?_take_of_lt before, if_neg (by omega)]
  · rw [List.getElem?_append_right (by omega), start]
    by_cases within : i - pos < bytes.length
    · rw [List.getElem?_append_left within, if_pos (by omega)]
    · rw [List.getElem?_append_right (by omega), List.getElem?_drop, if_neg (by omega)]
      congr 1
      omega

/-- Writing a piece of the source where it belongs keeps what agrees and adds the piece. -/
theorem AgreeOn.writeAt {fill : α} {file source bytes : List α} {positions : Set Nat} {pos : Nat}
    (agree : AgreeOn file source positions) (inside : pos ≤ file.length)
    (piece : ∀ k, k < bytes.length → bytes[k]? = source[pos + k]?) :
    AgreeOn (writeAt fill file pos bytes) source (positions ∪ Set.Ico pos (pos + bytes.length)) := by
  intro i member
  change (RandomAccess.writeAt fill file pos bytes)[i]? = source[i]?
  rw [getElem?_writeAt fill bytes inside]
  split
  next range =>
    rw [piece (i - pos) (by omega)]
    congr 1
    omega
  next outside => exact agree (member.resolve_right outside)

theorem eq_of_agreeOn {file source : List α} (length : file.length = source.length)
    (agree : AgreeOn file source (Set.Iio source.length)) : file = source := by
  apply List.ext_getElem?
  intro i
  rcases Nat.lt_or_ge i source.length with inside | outside
  · exact agree inside
  · rw [List.getElem?_eq_none (length.trans_le outside), List.getElem?_eq_none outside]

/-- What comes first of the rest of a source is a piece of it. -/
theorem piece_of_append {source bytes rest : List α} {stop pos : Nat}
    (split : bytes ++ rest = (source.take stop).drop pos) (k : Nat) (within : k < bytes.length) :
    bytes[k]? = source[pos + k]? := by
  have length := congrArg List.length split
  simp only [List.length_append, List.length_drop, List.length_take] at length
  have first : (bytes ++ rest)[k]? = bytes[k]? := List.getElem?_append_left within
  rw [← first, split, List.getElem?_drop, List.getElem?_take_of_lt (by omega)]

theorem rest_of_append {source bytes rest : List α} {stop pos : Nat}
    (split : bytes ++ rest = (source.take stop).drop pos) :
    rest = (source.take stop).drop (pos + bytes.length) := by
  have dropped := congrArg (List.drop bytes.length) split
  rwa [List.drop_left, List.drop_drop] at dropped

/-- A point below the last of some ascending boundaries lies in exactly one tile. -/
theorem countP_tiles {boundary : Nat → Nat} (ascending : Monotone boundary) (zero : boundary 0 = 0)
    {n p : Nat} (below : p < boundary n) :
    (List.range n).countP (fun i => decide (boundary i ≤ p ∧ p < boundary (i + 1))) = 1 := by
  induction n with
  | zero => omega
  | succ n ih =>
    rw [List.range_succ, List.countP_append, List.countP_singleton]
    rcases Nat.lt_or_ge p (boundary n) with earlier | last
    · have outside : ¬ (boundary n ≤ p ∧ p < boundary (n + 1)) := by omega
      rw [ih earlier, decide_eq_false outside]
      rfl
    · have none_before : (List.range n).countP (fun i => decide (boundary i ≤ p ∧ p < boundary (i + 1))) = 0 := by
        apply List.countP_eq_zero.mpr
        intro i member
        have ordered : boundary (i + 1) ≤ boundary n := ascending (Nat.succ_le_of_lt (List.mem_range.mp member))
        rw [decide_eq_true_eq]
        omega
      rw [none_before, decide_eq_true ⟨last, below⟩]
      rfl

theorem sum_tiles (boundary : Nat → Nat) (zero : boundary 0 = 0) (n : Nat) :
    ((List.range n).map fun i => (boundary (i + 1) : Int) - boundary i).sum = boundary n := by
  induction n with
  | zero => simp [zero]
  | succ n ih =>
    simp only [List.range_succ, List.map_append, List.sum_append, ih, List.map_cons, List.map_nil,
      List.sum_singleton]
    omega

end AdTerminal.RandomAccess
