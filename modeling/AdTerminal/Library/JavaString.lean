import Mathlib.Data.List.DropRight
import Mathlib.Data.List.Lex

/-! Java strings as lists of UTF-16 code units: how they are compared, trimmed, split and
read as integers. -/

namespace AdTerminal

abbrev JavaString := List Nat

namespace JavaString

/-- One code unit, or a surrogate pair. -/
def ofChar (c : Char) : JavaString :=
  if c.toNat < 0x10000 then [c.toNat]
  else [0xD800 + (c.toNat - 0x10000) / 0x400, 0xDC00 + (c.toNat - 0x10000) % 0x400]

def ofString (s : String) : JavaString := s.toList.flatMap ofChar

/-- `String.compareTo`: the difference of the first two units that differ, or of the lengths. -/
def compareTo : JavaString → JavaString → Int
  | [], b => -b.length
  | x :: a, [] => (x :: a).length
  | x :: a, y :: b => if x = y then compareTo a b else x - y

/-- `String.trim` takes away everything up to the space at both ends. -/
def trim (s : JavaString) : JavaString := (s.dropWhile (· ≤ 0x20)).rdropWhile (· ≤ 0x20)

/-- `String.split` at a single character: empty parts at the end are left out, but a string
without the character is its only part. -/
def split (s : JavaString) (separator : Nat) : List JavaString :=
  let parts := s.splitOn separator
  if parts.length = 1 then parts else parts.rdropWhile fun part => decide (part = [])

/-- The zeros of the decimal digits that are one code unit. -/
def zeros : List Nat :=
  [0x0030, 0x0660, 0x06F0, 0x07C0, 0x0966, 0x09E6, 0x0A66, 0x0AE6, 0x0B66, 0x0BE6, 0x0C66, 0x0CE6, 0x0D66,
   0x0DE6, 0x0E50, 0x0ED0, 0x0F20, 0x1040, 0x1090, 0x17E0, 0x1810, 0x1946, 0x19D0, 0x1A80, 0x1A90, 0x1B50,
   0x1BB0, 0x1C40, 0x1C50, 0xA620, 0xA8D0, 0xA900, 0xA9D0, 0xA9F0, 0xAA50, 0xABF0, 0xFF10]

/-- `Character.digit` for the radix 10. -/
def digit (c : Nat) : Option Nat :=
  (zeros.find? fun first => first ≤ c ∧ c ≤ first + 9).map fun first => c - first

/-- `Integer.parseInt`, with nothing for a `NumberFormatException`. -/
def parseInt (s : JavaString) : Option Int := do
  let negative := s.head? = some 0x2D
  let digits := if negative ∨ s.head? = some 0x2B then s.tail else s
  if digits = [] then none
  else
    let value ← digits.foldlM (fun (value : Nat) c => (digit c).map fun d => value * 10 + d) 0
    let signed : Int := if negative then -value else value
    if -2147483648 ≤ signed ∧ signed < 2147483648 then some signed else none

/-- Nothing is trimmed from a string with no blank at its ends. -/
theorem trim_eq_self {s : JavaString} (first : ∀ c ∈ s.head?, 0x20 < c) (last : ∀ c ∈ s.getLast?, 0x20 < c) :
    trim s = s := by
  have front : s.dropWhile (· ≤ 0x20) = s := by
    cases s with
    | nil => rfl
    | cons c s => exact List.dropWhile_cons_of_neg (by simpa using first c rfl)
  rw [trim, front, List.rdropWhile_eq_self_iff]
  intro some
  simpa using last _ (List.getLast_mem_getLast? some)

/-- A string joined from parts is split into these, if the last one is not empty. -/
theorem split_intercalate {parts : List JavaString} {separator : Nat} (free : ∀ part ∈ parts, separator ∉ part)
    (some : parts ≠ []) (last : parts.getLast some ≠ []) : split ([separator].intercalate parts) separator = parts := by
  rw [split, List.splitOn_intercalate separator free some]
  split
  · rfl
  · rw [List.rdropWhile_eq_self_iff]
    intro _
    simpa using last

/-- Java compares strings lexicographically. -/
theorem compareTo_neg_iff (a b : JavaString) : compareTo a b < 0 ↔ a < b := by
  induction a generalizing b with
  | nil =>
    cases b with
    | nil => simp [compareTo]
    | cons y b =>
      simp only [compareTo, List.length_cons, List.nil_lt_cons, iff_true]
      omega
  | cons x a ih =>
    cases b with
    | nil =>
      simp only [compareTo, List.length_cons, List.not_lt_nil, iff_false]
      omega
    | cons y b =>
      rw [compareTo, List.cons_lt_cons_iff]
      by_cases same : x = y
      · rw [if_pos same, ih]
        simp [same]
      · rw [if_neg same]
        simp only [same, false_and, or_false]
        omega

theorem compareTo_antisymm (a b : JavaString) : compareTo b a = -compareTo a b := by
  induction a generalizing b with
  | nil =>
    cases b with
    | nil => rfl
    | cons y b => simp [compareTo]
  | cons x a ih =>
    cases b with
    | nil => simp [compareTo]
    | cons y b =>
      simp only [compareTo]
      by_cases same : x = y
      · rw [if_pos same, if_pos same.symm, ih]
      · rw [if_neg same, if_neg (Ne.symm same)]
        omega

theorem le_compareTo_iff (a b : JavaString) : 0 ≤ compareTo a b ↔ b ≤ a :=
  calc 0 ≤ compareTo a b ↔ ¬ compareTo a b < 0 := Int.not_lt.symm
    _ ↔ ¬ a < b := not_congr (compareTo_neg_iff a b)
    _ ↔ b ≤ a := not_lt

theorem compareTo_le_iff (a b : JavaString) : compareTo a b ≤ 0 ↔ a ≤ b := by
  rw [← le_compareTo_iff b a, compareTo_antisymm a b]
  omega

end JavaString

end AdTerminal
