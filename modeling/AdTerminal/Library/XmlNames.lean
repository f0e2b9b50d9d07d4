import Mathlib.Data.List.Infix

/-! The characters and names of XML 1.0, and what is made of them without markup: references,
values, the insides of comments and instructions. -/

namespace AdTerminal.Xml

def isSpace (c : Char) : Bool := c = ' ' || c = '\t' || c = '\r' || c = '\n'

/-- `S?`. -/
def White (text : List Char) : Prop := ∀ c ∈ text, isSpace c = true

instance : DecidablePred White := fun _ => decidable_of_iff _ List.all_eq_true

/-- `Char`. A Lean character is no surrogate. -/
def isChar (c : Char) : Bool := isSpace c || (0x20 ≤ c.toNat && c.toNat ≠ 0xFFFE && c.toNat ≠ 0xFFFF)

def nameStartRanges : List (Nat × Nat) :=
  [(0x3A, 0x3A), (0x41, 0x5A), (0x5F, 0x5F), (0x61, 0x7A), (0xC0, 0xD6), (0xD8, 0xF6), (0xF8, 0x2FF),
   (0x370, 0x37D), (0x37F, 0x1FFF), (0x200C, 0x200D), (0x2070, 0x218F), (0x2C00, 0x2FEF), (0x3001, 0xD7FF),
   (0xF900, 0xFDCF), (0xFDF0, 0xFFFD), (0x10000, 0xEFFFF)]

def nameRanges : List (Nat × Nat) :=
  nameStartRanges ++ [(0x2D, 0x2D), (0x2E, 0x2E), (0x30, 0x39), (0xB7, 0xB7), (0x300, 0x36F), (0x203F, 0x2040)]

def within (ranges : List (Nat × Nat)) (c : Char) : Bool :=
  ranges.any fun range => range.1 ≤ c.toNat && c.toNat ≤ range.2

def isNameStartChar (c : Char) : Bool := within nameStartRanges c

def isNameChar (c : Char) : Bool := within nameRanges c

/-- `Name`. -/
def IsName : List Char → Prop
  | [] => False
  | first :: rest => isNameStartChar first = true ∧ ∀ c ∈ rest, isNameChar c = true

instance : DecidablePred IsName
  | [] => isFalse id
  | first :: rest =>
    decidable_of_iff (isNameStartChar first = true ∧ rest.all isNameChar = true) (and_congr_right' List.all_eq_true)

def isDigit (c : Char) : Bool := within [(0x30, 0x39)] c

def isHexDigit (c : Char) : Bool := within [(0x30, 0x39), (0x41, 0x46), (0x61, 0x66)] c

def isLetter (c : Char) : Bool := within [(0x41, 0x5A), (0x61, 0x7A)] c

def digitValue (c : Char) : Nat :=
  if isDigit c then c.toNat - '0'.toNat
  else if 'a' ≤ c then c.toNat - 'a'.toNat + 10
  else c.toNat - 'A'.toNat + 10

/-- The digits of a `CharRef` give a `Char`. -/
def IsCharRef (base : Nat) (allowed : Char → Bool) (digits : List Char) : Prop :=
  digits ≠ [] ∧ (∀ c ∈ digits, allowed c = true) ∧
    ∃ c : Char, c.toNat = digits.foldl (fun value digit => value * base + digitValue digit) 0 ∧ isChar c = true

/-- `Reference` between its `&` and `;`. Whether an entity is declared is not the grammar's business. -/
inductive IsReference : List Char → Prop
  | entity (name : List Char) (isName : IsName name) : IsReference name
  | decimal (digits : List Char) (number : IsCharRef 10 isDigit digits) : IsReference ('#' :: digits)
  | hexadecimal (digits : List Char) (number : IsCharRef 16 isHexDigit digits) : IsReference ('#' :: 'x' :: digits)

/-- `AttValue` between its quotes. -/
inductive IsAttValue : List Char → Prop
  | nil : IsAttValue []
  | char (c : Char) (rest : List Char) (plain : c ≠ '<' ∧ c ≠ '&') (legal : isChar c = true) (tail : IsAttValue rest) :
      IsAttValue (c :: rest)
  | reference (raw rest : List Char) (head : IsReference raw) (tail : IsAttValue rest) :
      IsAttValue ('&' :: (raw ++ ';' :: rest))

/-- `PITarget`. -/
def IsPITarget (name : List Char) : Prop := IsName name ∧ name.map Char.toLower ≠ "xml".toList

/-- `PI` between `<?` and `?>`. -/
inductive IsPI : List Char → Prop
  | target (name : List Char) (isTarget : IsPITarget name) : IsPI name
  | data (name space data : List Char) (isTarget : IsPITarget name) (white : White space) (apart : space ≠ []) :
      IsPI (name ++ (space ++ data))

/-- `Comment` between `<!--` and `-->`. -/
def IsComment (raw : List Char) : Prop := ¬ ['-', '-'] <:+: raw ++ ['-']

theorem isNameChar_of_start {c : Char} (start : isNameStartChar c = true) : isNameChar c = true := by
  unfold isNameChar nameRanges within
  rw [List.any_append, Bool.or_eq_true]
  exact Or.inl start

theorem not_space_of_name {c : Char} (name : isNameChar c = true) : isSpace c = false := by
  by_contra space
  simp only [isSpace, Bool.not_eq_false, Bool.or_eq_true, decide_eq_true_eq] at space
  rcases space with ((same | same) | same) | same
  all_goals
    subst same
    exact absurd name (by decide)

theorem not_name_of_space {c : Char} (space : isSpace c = true) : isNameChar c = false := by
  by_contra name
  rw [not_space_of_name (by simpa using name)] at space
  cases space

theorem IsName.all {name : List Char} (isName : IsName name) : ∀ c ∈ name, isNameChar c = true := by
  cases name with
  | nil => exact isName.elim
  | cons first rest =>
    intro c member
    cases List.mem_cons.mp member with
    | inl same => exact same ▸ isNameChar_of_start isName.1
    | inr tail => exact isName.2 c tail

theorem within_of_subset {ranges others : List (Nat × Nat)} {c : Char} (inside : within ranges c = true)
    (subset : ∀ range ∈ ranges, ∃ other ∈ others, other.1 ≤ range.1 ∧ range.2 ≤ other.2) : within others c = true := by
  obtain ⟨range, member, bounds⟩ := List.any_eq_true.mp inside
  obtain ⟨other, other_member, lower, upper⟩ := subset range member
  simp only [Bool.and_eq_true, decide_eq_true_eq] at bounds
  exact List.any_eq_true.mpr ⟨other, other_member, by simp only [Bool.and_eq_true, decide_eq_true_eq]; omega⟩

theorem isNameChar_of_digit {c : Char} (digit : isDigit c = true) : isNameChar c = true :=
  within_of_subset digit (by decide)

theorem isNameChar_of_letter {c : Char} (letter : isLetter c = true) : isNameChar c = true :=
  within_of_subset letter (by decide)

theorem isNameChar_of_hexDigit {c : Char} (digit : isHexDigit c = true) : isNameChar c = true :=
  within_of_subset digit (by decide)

theorem IsReference.not_space {raw : List Char} (isReference : IsReference raw) : ∀ c ∈ raw, isSpace c = false := by
  cases isReference with
  | entity name isName => exact fun c member => not_space_of_name (isName.all c member)
  | decimal digits number =>
    rintro c (_ | ⟨_, member⟩)
    · rfl
    · exact not_space_of_name (isNameChar_of_digit (number.2.1 c member))
  | hexadecimal digits number =>
    rintro c (_ | ⟨_, _ | ⟨_, member⟩⟩)
    · rfl
    · rfl
    · exact not_space_of_name (isNameChar_of_hexDigit (number.2.1 c member))

end AdTerminal.Xml
