import Mathlib.Data.List.Infix

/-! Regular expressions as a backtracking matcher takes them: classes of characters, greedy
repetition of a class, alternatives in order, groups, and conditions on what is left. -/

namespace AdTerminal

inductive Regex (α : Type) where
  | empty
  | one (accepts : α → Bool)
  | many (accepts : α → Bool)
  | seq (first second : Regex α)
  | either (first second : Regex α)
  | group (number : Nat) (inner : Regex α)
  | ahead (condition : List α → Bool)

namespace Regex

variable {α : Type}

/-- What the groups have matched. -/
abbrev Groups (α : Type) := List (Nat × List α)

/-- What is left after a greedy repetition, the longest match first. -/
def repeated (accepts : α → Bool) : List α → List (List α)
  | [] => [[]]
  | x :: s => if accepts x then repeated accepts s ++ [x :: s] else [x :: s]

/-- The matches at the front of a text in their order of preference, with what is left. -/
def ways : Regex α → List α → List (Groups α × List α)
  | empty, s => [([], s)]
  | one _, [] => []
  | one accepts, x :: s => if accepts x then [([], s)] else []
  | many accepts, s => (repeated accepts s).map fun rest => ([], rest)
  | seq first second, s =>
    (ways first s).flatMap fun way => (ways second way.2).map fun next => (way.1 ++ next.1, next.2)
  | either first second, s => ways first s ++ ways second s
  | group number inner, s =>
    (ways inner s).map fun way => (way.1 ++ [(number, s.take (s.length - way.2.length))], way.2)
  | ahead condition, s => if condition s then [([], s)] else []

/-- A match of the whole text. -/
def wholeMatch (pattern : Regex α) (s : List α) : Option (Groups α) :=
  ((ways pattern s).find? fun way => way.2.isEmpty).map Prod.fst

/-- There is a match somewhere in the text. -/
def find (pattern : Regex α) (s : List α) : Bool := s.tails.any fun rest => !(ways pattern rest).isEmpty

/-- One of some alternatives. -/
def anyOf (patterns : List (Regex α)) : Regex α := patterns.foldr either (one fun _ => false)

/-- A word, its characters taken for the same by `fold`. -/
def word [DecidableEq α] (fold : α → α) : List α → Regex α
  | [] => empty
  | x :: w => seq (one fun y => fold y = x) (word fold w)

variable {pattern first second : Regex α} {accepts : α → Bool} {condition : List α → Bool} {groups : Groups α}
  {s rest : List α} {number : Nat}

theorem mem_repeated : rest ∈ repeated accepts s ↔ ∃ taken, s = taken ++ rest ∧ ∀ x ∈ taken, accepts x := by
  induction s with
  | nil => simp [repeated]
  | cons x s ih =>
    unfold repeated
    constructor
    · intro member
      by_cases accepted : accepts x
      · rw [if_pos accepted, List.mem_append, ih] at member
        rcases member with ⟨taken, split, all⟩ | member
        · exact ⟨x :: taken, by rw [split]; rfl, List.forall_mem_cons.mpr ⟨accepted, all⟩⟩
        · exact ⟨[], (List.mem_singleton.mp member).symm, by simp⟩
      · rw [if_neg accepted] at member
        exact ⟨[], (List.mem_singleton.mp member).symm, by simp⟩
    · rintro ⟨taken, split, all⟩
      cases taken with
      | nil =>
        subst split
        split_ifs <;> simp
      | cons y taken =>
        obtain ⟨rfl, rfl⟩ := List.cons.inj split
        rw [if_pos (all x List.mem_cons_self), List.mem_append, ih]
        exact .inl ⟨taken, rfl, fun y member => all y (List.mem_cons_of_mem _ member)⟩

@[simp] theorem mem_ways_empty : (groups, rest) ∈ ways empty s ↔ groups = [] ∧ rest = s := by
  simp [ways]

@[simp] theorem mem_ways_one : (groups, rest) ∈ ways (one accepts) s ↔
    groups = [] ∧ ∃ x, s = x :: rest ∧ accepts x := by
  cases s with
  | nil => simp [ways]
  | cons x s =>
    rw [ways]
    by_cases accepted : accepts x
    · rw [if_pos accepted, List.mem_singleton, Prod.mk.injEq]
      constructor
      · exact fun both => ⟨both.1, x, by rw [both.2], accepted⟩
      · intro both
        obtain ⟨y, same, -⟩ := both.2
        exact ⟨both.1, (List.cons.inj same).2.symm⟩
    · rw [if_neg accepted]
      constructor
      · exact fun member => absurd member List.not_mem_nil
      · intro both
        obtain ⟨y, same, other⟩ := both.2
        exact absurd ((List.cons.inj same).1 ▸ other) accepted

@[simp] theorem mem_ways_many : (groups, rest) ∈ ways (many accepts) s ↔
    groups = [] ∧ ∃ taken, s = taken ++ rest ∧ ∀ x ∈ taken, accepts x := by
  rw [ways, List.mem_map, ← mem_repeated]
  constructor
  · intro member
    obtain ⟨left, repeats, same⟩ := member
    cases same
    exact ⟨rfl, repeats⟩
  · intro both
    exact ⟨rest, both.2, by rw [both.1]⟩

@[simp] theorem mem_ways_seq : (groups, rest) ∈ ways (seq first second) s ↔
    ∃ before middle after, (before, middle) ∈ ways first s ∧ (after, rest) ∈ ways second middle ∧
      groups = before ++ after := by
  rw [ways, List.mem_flatMap]
  constructor
  · intro member
    obtain ⟨way, taken, next⟩ := member
    obtain ⟨last, followed, same⟩ := List.mem_map.mp next
    cases same
    exact ⟨way.1, way.2, last.1, taken, followed, rfl⟩
  · intro split
    obtain ⟨before, middle, after, taken, followed, same⟩ := split
    exact ⟨(before, middle), taken, List.mem_map.mpr ⟨(after, rest), followed, by rw [same]⟩⟩

@[simp] theorem mem_ways_either : (groups, rest) ∈ ways (either first second) s ↔
    (groups, rest) ∈ ways first s ∨ (groups, rest) ∈ ways second s := by
  simp [ways]

@[simp] theorem mem_ways_group : (groups, rest) ∈ ways (group number pattern) s ↔
    ∃ inside, (inside, rest) ∈ ways pattern s ∧
      groups = inside ++ [(number, s.take (s.length - rest.length))] := by
  rw [ways, List.mem_map]
  constructor
  · intro member
    obtain ⟨way, taken, same⟩ := member
    cases same
    exact ⟨way.1, taken, rfl⟩
  · intro split
    obtain ⟨inside, taken, same⟩ := split
    exact ⟨(inside, rest), taken, by rw [same]⟩

@[simp] theorem mem_ways_ahead : (groups, rest) ∈ ways (ahead condition) s ↔
    groups = [] ∧ rest = s ∧ condition s := by
  rw [ways]
  split_ifs with met <;> simp [met]

theorem mem_ways_anyOf {patterns : List (Regex α)} :
    (groups, rest) ∈ ways (anyOf patterns) s ↔ ∃ pattern ∈ patterns, (groups, rest) ∈ ways pattern s := by
  unfold anyOf
  induction patterns with
  | nil => simp
  | cons pattern patterns ih => simp [ih]

theorem mem_ways_word [DecidableEq α] {fold : α → α} {w : List α} : (groups, rest) ∈ ways (word fold w) s ↔
    groups = [] ∧ ∃ taken, s = taken ++ rest ∧ taken.map fold = w := by
  induction w generalizing groups s with
  | nil =>
    unfold word
    simp [eq_comm]
  | cons x w ih =>
    unfold word
    simp only [mem_ways_seq, mem_ways_one, ih, decide_eq_true_eq]
    constructor
    · intro split
      obtain ⟨_, middle, _, ⟨rfl, y, rfl, same⟩, ⟨rfl, taken, rfl, folded⟩, rfl⟩ := split
      exact ⟨rfl, y :: taken, rfl, by rw [List.map_cons, same, folded]⟩
    · intro split
      obtain ⟨rfl, taken, rfl, folded⟩ := split
      obtain ⟨y, tail, rfl, same, rest⟩ := List.map_eq_cons_iff.mp folded
      exact ⟨[], _, [], ⟨rfl, y, rfl, same⟩, ⟨rfl, tail, rfl, rest⟩, rfl⟩

/-- The match that is found is one that leaves nothing. -/
theorem mem_of_wholeMatch (found : wholeMatch pattern s = some groups) : (groups, []) ∈ ways pattern s := by
  obtain ⟨way, first, same⟩ := Option.map_eq_some_iff.mp found
  have none := List.find?_some first
  have left : way.2 = [] := List.isEmpty_iff.mp none
  exact same ▸ left ▸ List.mem_of_find?_eq_some first

theorem wholeMatch_isSome : (wholeMatch pattern s).isSome ↔ ∃ groups, (groups, []) ∈ ways pattern s := by
  unfold wholeMatch
  rw [Option.isSome_map, List.find?_isSome]
  constructor
  · intro found
    obtain ⟨way, member, none⟩ := found
    have left : way.2 = [] := List.isEmpty_iff.mp none
    exact ⟨way.1, left ▸ member⟩
  · intro found
    obtain ⟨groups, member⟩ := found
    exact ⟨(groups, []), member, rfl⟩

theorem find_iff : find pattern s ↔ ∃ before middle, s = before ++ middle ∧ ∃ way, way ∈ ways pattern middle := by
  unfold find
  rw [List.any_eq_true]
  constructor
  · intro found
    obtain ⟨middle, tail, some⟩ := found
    obtain ⟨before, split⟩ := (List.mem_tails _ _).mp tail
    exact ⟨before, middle, split.symm, List.exists_mem_of_ne_nil _ (by simpa using some)⟩
  · intro found
    obtain ⟨before, middle, split, way, member⟩ := found
    refine ⟨middle, (List.mem_tails _ _).mpr ⟨before, split.symm⟩, ?_⟩
    simpa using List.ne_nil_of_mem member

end Regex

end AdTerminal
