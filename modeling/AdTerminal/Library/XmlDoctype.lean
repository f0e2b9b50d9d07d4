import AdTerminal.Library.XmlNames
import Mathlib.Computability.Language

/-! Document type declarations of XML 1.0. The grammar is given as languages under the names of its
productions, and a scanner finds the end of a declaration: what the grammar accepts is told apart
from anything that follows it. -/

namespace AdTerminal.Xml
open scoped Computability

def word (text : String) : Language Char := {text.toList}

def oneOf (words : List String) : Language Char := {text | ∃ word ∈ words, text = word.toList}

def opt (l : Language Char) : Language Char := 1 + l

def S : Language Char := {text | White text ∧ text ≠ []}

def Name : Language Char := {text | IsName text}

def Nmtoken : Language Char := {text | text ≠ [] ∧ ∀ c ∈ text, isNameChar c = true}

def isQuote (c : Char) : Bool := c = '"' || c = '\''

/-- A value between two quotes that are not in it. -/
def quoted (l : Language Char) : Language Char :=
  {text | ∃ quote value, isQuote quote = true ∧ value ∈ l ∧ quote ∉ value ∧ text = quote :: (value ++ [quote])}

def SystemLiteral : Language Char := quoted {_value | True}

def isPubidChar (c : Char) : Bool :=
  c = ' ' || c = '\r' || c = '\n' || isLetter c || isDigit c || c ∈ "-'()+,./:=?;!*#@$_%".toList

def PubidLiteral : Language Char := quoted {value | ∀ c ∈ value, isPubidChar c = true}

def PublicID : Language Char := word "PUBLIC" * S * PubidLiteral

def ExternalID : Language Char := word "SYSTEM" * S * SystemLiteral + PublicID * S * SystemLiteral

def PEReference : Language Char := word "%" * Name * word ";"

def Reference : Language Char := {text | ∃ raw, IsReference raw ∧ text = '&' :: (raw ++ [';'])}

/-- `[^%&]`. -/
def entityChar : Language Char := {text | ∃ c, c ≠ '%' ∧ c ≠ '&' ∧ text = [c]}

def EntityValue : Language Char := quoted (entityChar + PEReference + Reference)∗

def AttValue : Language Char := quoted {value | IsAttValue value}

def bracketed (l : Language Char) : Language Char := word "(" * opt S * l * opt S * word ")"

/-- One more of a list. -/
def further (mark : String) (l : Language Char) : Language Char := opt S * word mark * opt S * l

def alternatives (l : Language Char) : Language Char := bracketed (l * (further "|" l)∗)

def choice (cp : Language Char) : Language Char := bracketed (cp * (further "|" cp * (further "|" cp)∗))

def seq (cp : Language Char) : Language Char := bracketed (cp * (further "," cp)∗)

def occurrence : Language Char := oneOf ["", "?", "*", "+"]

/-- `cp` with brackets up to some depth. -/
def cp : Nat → Language Char
  | 0 => Name * occurrence
  | depth + 1 => Name * occurrence + (choice (cp depth) + seq (cp depth)) * occurrence

def children : Language Char := {text | ∃ depth, text ∈ (choice (cp depth) + seq (cp depth)) * occurrence}

def Mixed : Language Char :=
  bracketed (word "#PCDATA" * (further "|" Name)∗) * word "*" + bracketed (word "#PCDATA")

def contentspec : Language Char := oneOf ["EMPTY", "ANY"] + Mixed + children

def AttType : Language Char :=
  oneOf ["CDATA", "ID", "IDREF", "IDREFS", "ENTITY", "ENTITIES", "NMTOKEN", "NMTOKENS"] +
    word "NOTATION" * S * alternatives Name + alternatives Nmtoken

def DefaultDecl : Language Char := oneOf ["#REQUIRED", "#IMPLIED"] + opt (word "#FIXED" * S) * AttValue

def AttDef : Language Char := S * Name * S * AttType * S * DefaultDecl

def EntityDef : Language Char := EntityValue + ExternalID * opt (S * word "NDATA" * S * Name)

def PEDef : Language Char := EntityValue + ExternalID

/-- A declaration from its keyword to its end. -/
def declaration (keyword : String) (l : Language Char) : Language Char := word keyword * l * opt S * word ">"

def elementdecl : Language Char := declaration "<!ELEMENT" (S * Name * S * contentspec)

def AttlistDecl : Language Char := declaration "<!ATTLIST" (S * Name * AttDef∗)

def EntityDecl : Language Char :=
  declaration "<!ENTITY" (S * Name * S * EntityDef) + declaration "<!ENTITY" (S * word "%" * S * Name * S * PEDef)

def NotationDecl : Language Char := declaration "<!NOTATION" (S * Name * S * (ExternalID + PublicID))

def instructionText : Language Char := {raw | IsPI raw ∧ ¬ ['?', '>'] <:+: raw}

def PI : Language Char := word "<?" * instructionText * word "?>"

def commentText : Language Char := {raw | IsComment raw}

def Comment : Language Char := word "<!--" * commentText * word "-->"

def markupdecl : Language Char := elementdecl + AttlistDecl + EntityDecl + NotationDecl + PI + Comment

def intSubset : Language Char := (markupdecl + PEReference + S)∗

/-- `doctypedecl` between `<!DOCTYPE` and its last `>`. -/
def doctypedecl : Language Char :=
  S * Name * opt (S * ExternalID) * opt S * opt (word "[" * intSubset * word "]" * opt S)

theorem isSpace_of_doctypedecl {c : Char} {rest : List Char} (isDoctype : c :: rest ∈ doctypedecl) :
    isSpace c = true := by
  obtain ⟨_, ⟨_, ⟨_, ⟨space, white, name, _, rfl⟩, external, _, rfl⟩, after, _, rfl⟩, subset, _, same⟩ := isDoctype
  cases space with
  | nil => exact absurd rfl white.2
  | cons d space =>
    obtain ⟨first, _⟩ := List.cons_eq_cons.mp same
    exact first ▸ white.1 d List.mem_cons_self

/-! The scanner. -/

/-- Where in a declaration the scanner is. -/
inductive Scan where
  | top
  | subset
  /-- After `<`, `<!` and `<!-`. -/
  | angle
  | bang
  | dash
  | comment
  | commentDash
  | commentDashes
  | instruction
  | instructionMark
  | decl
  /-- A literal of the declaration itself, or of one in its subset. -/
  | literal (inner : Bool) (quote : Char)
  | ended
  deriving DecidableEq, Repr

namespace Scan

def next : Scan → Char → Scan
  | top, c => if c = '>' then ended else if c = '[' then subset else if isQuote c then literal false c else top
  | subset, c => if c = '<' then angle else if c = ']' then top else subset
  | angle, c => if c = '!' then bang else if c = '?' then instruction else decl
  | bang, c => if c = '-' then dash else decl
  | dash, c => if c = '-' then comment else decl
  | comment, c => if c = '-' then commentDash else comment
  | commentDash, c => if c = '-' then commentDashes else comment
  | commentDashes, c => if c = '>' then subset else comment
  | instruction, c => if c = '?' then instructionMark else instruction
  | instructionMark, c => if c = '>' then subset else if c = '?' then instructionMark else instruction
  | decl, c => if c = '>' then subset else if isQuote c then literal true c else decl
  | literal inner quote, c => if c = quote then (if inner then decl else top) else literal inner quote
  | ended, _ => ended

def run (scan : Scan) (text : List Char) : Scan := text.foldl next scan

@[simp] theorem run_nil (scan : Scan) : scan.run [] = scan := rfl

@[simp] theorem run_cons (scan : Scan) (c : Char) (text : List Char) :
    scan.run (c :: text) = (scan.next c).run text := rfl

@[simp] theorem run_append (scan : Scan) (first second : List Char) :
    scan.run (first ++ second) = (scan.run first).run second := List.foldl_append

@[simp] theorem run_ended (text : List Char) : ended.run text = ended := by
  induction text with
  | nil => rfl
  | cons c text ih => exact ih

/-- Inside a comment or an instruction. -/
def isSilent : Scan → Bool
  | comment | commentDash | commentDashes | instruction | instructionMark => true
  | _ => false

def isLiteral : Scan → Bool
  | literal _ _ => true
  | _ => false

/-- Literals as they are written, one space between two words, no other white space, and nothing of
what stands inside comments and instructions. -/
def tidy (scan : Scan) (inWord spaced : Bool) : List Char → List Char
  | [] => []
  | c :: rest =>
    if scan.isLiteral then c :: tidy (scan.next c) false false rest
    else if scan.isSilent then tidy (scan.next c) false false rest
    else if isSpace c then tidy (scan.next c) inWord true rest
    else if inWord && spaced && isNameChar c then ' ' :: c :: tidy (scan.next c) true false rest
    else c :: tidy (scan.next c) (isNameChar c) false rest

end Scan

/-- What a declaration says. -/
def declared (raw : List Char) : List Char := Scan.top.tidy false false raw

example : declared " ad\n SYSTEM \t'a  b' [ <!ELEMENT  ad ( a | b )>  <!-- c --> ] ".toList =
    "ad SYSTEM'a  b'[<!ELEMENT ad(a|b)><!--]".toList := by decide

/-- The declaration has not come to its end, and the next `>` is it. -/
def Closed (raw : List Char) : Prop := Scan.top.run raw = .top

instance : DecidablePred Closed := fun _ => inferInstanceAs (Decidable (_ = _))

theorem Closed.shorter {a b x y : List Char} (closed : Closed b) {more : List Char} (longer : b = a ++ more)
    (shut : Closed a) (same : '>' :: x = more ++ '>' :: y) : more = [] := by
  cases more with
  | nil => rfl
  | cons c more =>
    obtain ⟨first, _⟩ := List.cons_eq_cons.mp same
    subst first
    -- The scanner has come to the end after `a`, and stays there.
    have at_end : Scan.top.run b = .ended := by
      rw [longer, Scan.run_append, shut, Scan.run_cons]
      exact Scan.run_ended more
    rw [closed] at at_end
    cases at_end

theorem Closed.unique {a b x y : List Char} (a_closed : Closed a) (b_closed : Closed b)
    (same : a ++ '>' :: x = b ++ '>' :: y) : a = b ∧ x = y := by
  obtain ⟨more, longer, rest⟩ | ⟨more, longer, rest⟩ := List.append_eq_append_iff.mp same
  · have none := b_closed.shorter longer a_closed rest
    subst none
    exact ⟨by rw [longer, List.append_nil], (List.cons_eq_cons.mp rest).2⟩
  · have none := a_closed.shorter longer b_closed rest
    subst none
    exact ⟨by rw [longer, List.append_nil], (List.cons_eq_cons.mp rest).2.symm⟩

/-! What the grammar accepts is closed. -/

def Reads (s t : Scan) (l : Language Char) : Prop := ∀ text ∈ l, s.run text = t

theorem Reads.mul {s t u : Scan} {l m : Language Char} (first : Reads s t l) (second : Reads t u m) :
    Reads s u (l * m) := by
  rintro _ ⟨a, a_mem, b, b_mem, rfl⟩
  show s.run (a ++ b) = u
  rw [Scan.run_append, first a a_mem, second b b_mem]

theorem Reads.add {s t : Scan} {l m : Language Char} (first : Reads s t l) (second : Reads s t m) :
    Reads s t (l + m) := by
  intro text member
  cases (Language.mem_add l m text).mp member with
  | inl left => exact first text left
  | inr right => exact second text right

theorem reads_one (s : Scan) : Reads s s 1 := fun text member => by rw [(Language.mem_one text).mp member]; rfl

theorem Reads.opt {s : Scan} {l : Language Char} (once : Reads s s l) : Reads s s (opt l) := (reads_one s).add once

theorem Reads.kstar {s : Scan} {l : Language Char} (once : Reads s s l) : Reads s s l∗ := by
  intro text member
  obtain ⟨texts, rfl, members⟩ := Language.mem_kstar.mp member
  clear member
  induction texts with
  | nil => rfl
  | cons first rest ih =>
    rw [List.flatten_cons, Scan.run_append, once first (members first List.mem_cons_self)]
    exact ih fun y tail => members y (List.mem_cons_of_mem _ tail)

theorem reads_word {s t : Scan} {text : String} (run : s.run text.toList = t) : Reads s t (word text) := by
  intro other member
  cases Set.mem_singleton_iff.mp member
  exact run

/-- A character that means something to the scanner outside of literals, comments and instructions. -/
def isMark (c : Char) : Bool := isQuote c || c = '<' || c = '>' || c = '[' || c = ']'

theorem run_plain {s : Scan} (outside : s = .top ∨ s = .decl ∨ s = .subset) {text : List Char}
    (plain : ∀ c ∈ text, isMark c = false) : s.run text = s := by
  induction text with
  | nil => rfl
  | cons c text ih =>
    have stays : s.next c = s := by
      have mark := plain c List.mem_cons_self
      simp only [isMark, Bool.or_eq_false_iff, decide_eq_false_iff_not] at mark
      obtain rfl | rfl | rfl := outside
      · simp [Scan.next, mark]
      · simp [Scan.next, mark]
      · simp [Scan.next, mark]
    rw [Scan.run_cons, stays]
    exact ih fun c member => plain c (List.mem_cons_of_mem _ member)

/-- A part of a declaration in which it does not end. -/
def Steady (l : Language Char) : Prop := Reads .top .top l ∧ Reads .decl .decl l

theorem Steady.of_plain {l : Language Char} (plain : ∀ text ∈ l, ∀ c ∈ text, isMark c = false) : Steady l :=
  ⟨fun text member => run_plain (Or.inl rfl) (plain text member),
    fun text member => run_plain (Or.inr (Or.inl rfl)) (plain text member)⟩

theorem Steady.mul {l m : Language Char} (first : Steady l) (second : Steady m) : Steady (l * m) :=
  ⟨first.1.mul second.1, first.2.mul second.2⟩

theorem Steady.add {l m : Language Char} (first : Steady l) (second : Steady m) : Steady (l + m) :=
  ⟨first.1.add second.1, first.2.add second.2⟩

theorem Steady.opt {l : Language Char} (once : Steady l) : Steady (opt l) := ⟨once.1.opt, once.2.opt⟩

theorem Steady.kstar {l : Language Char} (once : Steady l) : Steady l∗ := ⟨once.1.kstar, once.2.kstar⟩

theorem steady_word {text : String} (plain : text.toList.all (fun c => !isMark c) = true) : Steady (word text) := by
  refine .of_plain fun other member c inside => ?_
  cases Set.mem_singleton_iff.mp member
  simpa using List.all_eq_true.mp plain c inside

theorem steady_oneOf {words : List String} (plain : words.all (fun word => word.toList.all fun c => !isMark c) = true) :
    Steady (oneOf words) := by
  refine .of_plain fun text member c inside => ?_
  obtain ⟨word, own, rfl⟩ := member
  simpa using List.all_eq_true.mp (List.all_eq_true.mp plain word own) c inside

theorem isMark_of_space {c : Char} (space : isSpace c = true) : isMark c = false := by
  simp only [isSpace, Bool.or_eq_true, decide_eq_true_eq] at space
  obtain ((rfl | rfl) | rfl) | rfl := space
  all_goals decide

theorem isMark_of_name {c : Char} (name : isNameChar c = true) : isMark c = false := by
  by_contra mark
  simp only [isMark, isQuote, Bool.not_eq_false, Bool.or_eq_true, decide_eq_true_eq] at mark
  obtain ((((rfl | rfl) | rfl) | rfl) | rfl) | rfl := mark
  all_goals exact absurd name (by decide)

theorem steady_S : Steady S := .of_plain fun _ member c inside => isMark_of_space (member.1 c inside)

theorem steady_Name : Steady Name := .of_plain fun _ member c inside => isMark_of_name (member.all c inside)

theorem steady_Nmtoken : Steady Nmtoken := .of_plain fun _ member c inside => isMark_of_name (member.2 c inside)

theorem run_literal {inner : Bool} {quote : Char} {value : List Char} (inside : quote ∉ value) :
    (Scan.literal inner quote).run value = .literal inner quote := by
  induction value with
  | nil => rfl
  | cons c value ih =>
    have other : c ≠ quote := fun same => inside (same ▸ List.mem_cons_self)
    rw [Scan.run_cons, Scan.next, if_neg other]
    exact ih fun member => inside (List.mem_cons_of_mem _ member)

theorem next_quote {quote : Char} (isQuote : isQuote quote = true) :
    Scan.top.next quote = .literal false quote ∧ Scan.decl.next quote = .literal true quote := by
  simp only [Xml.isQuote, Bool.or_eq_true, decide_eq_true_eq] at isQuote
  obtain rfl | rfl := isQuote
  · exact ⟨rfl, rfl⟩
  · exact ⟨rfl, rfl⟩

theorem steady_quoted (l : Language Char) : Steady (quoted l) := by
  constructor
  all_goals
    rintro _ ⟨quote, value, isQuote, _, inside, rfl⟩
    obtain ⟨outer, inner⟩ := next_quote isQuote
    simp only [Scan.run_cons, outer, inner, Scan.run_append, run_literal inside, Scan.run_nil]
    exact if_pos rfl

theorem steady_PublicID : Steady PublicID := ((steady_word (by decide)).mul steady_S).mul (steady_quoted _)

theorem steady_ExternalID : Steady ExternalID :=
  (((steady_word (by decide)).mul steady_S).mul (steady_quoted _)).add
    ((steady_PublicID.mul steady_S).mul (steady_quoted _))

theorem Steady.bracketed {l : Language Char} (once : Steady l) : Steady (bracketed l) :=
  ((((steady_word (by decide)).mul steady_S.opt).mul once).mul steady_S.opt).mul (steady_word (by decide))

theorem Steady.further {mark : String} (plain : mark.toList.all (fun c => !isMark c) = true) {l : Language Char}
    (once : Steady l) : Steady (further mark l) :=
  ((steady_S.opt.mul (steady_word plain)).mul steady_S.opt).mul once

theorem Steady.alternatives {l : Language Char} (once : Steady l) : Steady (alternatives l) :=
  (once.mul (once.further (by decide)).kstar).bracketed

theorem Steady.groups {l : Language Char} (once : Steady l) : Steady ((choice l + seq l) * occurrence) :=
  have either : Steady (Xml.further "|" l) := once.further (by decide)
  have next : Steady (Xml.further "," l) := once.further (by decide)
  ((once.mul (either.mul either.kstar)).bracketed.add (once.mul next.kstar).bracketed).mul (steady_oneOf (by decide))

theorem steady_cp (depth : Nat) : Steady (cp depth) := by
  have name : Steady (Name * occurrence) := steady_Name.mul (steady_oneOf (by decide))
  induction depth with
  | zero => exact name
  | succ depth ih => exact name.add ih.groups

theorem steady_children : Steady children :=
  ⟨fun text ⟨depth, member⟩ => (steady_cp depth).groups.1 text member,
    fun text ⟨depth, member⟩ => (steady_cp depth).groups.2 text member⟩

theorem steady_contentspec : Steady contentspec := by
  have data : Steady (word "#PCDATA") := steady_word (by decide)
  have name : Steady (further "|" Name) := steady_Name.further (by decide)
  have mixed := (data.mul name.kstar).bracketed
  exact ((steady_oneOf (by decide)).add ((mixed.mul (steady_word (by decide))).add data.bracketed)).add steady_children

theorem steady_AttType : Steady AttType :=
  ((steady_oneOf (by decide)).add (((steady_word (by decide)).mul steady_S).mul steady_Name.alternatives)).add
    steady_Nmtoken.alternatives

theorem steady_DefaultDecl : Steady DefaultDecl :=
  (steady_oneOf (by decide)).add (((steady_word (by decide)).mul steady_S).opt.mul (steady_quoted _))

theorem steady_AttDef : Steady AttDef :=
  ((((steady_S.mul steady_Name).mul steady_S).mul steady_AttType).mul steady_S).mul steady_DefaultDecl

theorem steady_EntityDef : Steady EntityDef :=
  (steady_quoted _).add (steady_ExternalID.mul
    (((steady_S.mul (steady_word (by decide))).mul steady_S).mul steady_Name).opt)

theorem steady_PEDef : Steady PEDef := (steady_quoted _).add steady_ExternalID

theorem Steady.declaration {keyword : String} (begins : Scan.subset.run keyword.toList = .decl) {l : Language Char}
    (once : Steady l) : Reads .subset .subset (declaration keyword l) :=
  (((reads_word begins).mul once.2).mul steady_S.opt.2).mul (reads_word rfl)

theorem run_instruction (text : List Char) :
    (¬ ['?', '>'] <:+: text → Scan.instruction.run text = .instruction ∨ Scan.instruction.run text = .instructionMark) ∧
      (¬ ['?', '>'] <:+: '?' :: text →
        Scan.instructionMark.run text = .instruction ∨ Scan.instructionMark.run text = .instructionMark) := by
  induction text with
  | nil => exact ⟨fun _ => Or.inl rfl, fun _ => Or.inr rfl⟩
  | cons c text ih =>
    have tail : ∀ {d : Char} {text : List Char}, ¬ ['?', '>'] <:+: d :: text → ¬ ['?', '>'] <:+: text :=
      fun unclosed inside => unclosed (List.infix_cons inside)
    by_cases question : c = '?'
    · subst question
      exact ⟨ih.2, fun unclosed => ih.2 (tail unclosed)⟩
    · constructor
      · intro unclosed
        have stays : Scan.instruction.next c = .instruction := if_neg question
        rw [Scan.run_cons, stays]
        exact ih.1 (tail unclosed)
      · intro unclosed
        by_cases angle : c = '>'
        · exact absurd ⟨[], text, by rw [angle]; rfl⟩ unclosed
        · have back : Scan.instructionMark.next c = .instruction := by simp [Scan.next, angle, question]
          rw [Scan.run_cons, back]
          exact ih.1 (tail (tail unclosed))

theorem run_comment (text : List Char) :
    (¬ ['-', '-'] <:+: text ++ ['-'] → Scan.comment.run text = .comment) ∧
      (¬ ['-', '-'] <:+: '-' :: (text ++ ['-']) → Scan.commentDash.run text = .comment) := by
  induction text with
  | nil => exact ⟨fun _ => rfl, fun single => absurd (List.infix_refl _) single⟩
  | cons c text ih =>
    have tail : ∀ {d : Char} {text : List Char}, ¬ ['-', '-'] <:+: d :: text → ¬ ['-', '-'] <:+: text :=
      fun single inside => single (List.infix_cons inside)
    by_cases dash : c = '-'
    · subst dash
      exact ⟨ih.2, fun single => absurd ⟨[], text ++ ['-'], rfl⟩ single⟩
    · have stays : Scan.comment.next c = .comment := if_neg dash
      have back : Scan.commentDash.next c = .comment := if_neg dash
      constructor
      · intro single
        rw [Scan.run_cons, stays]
        exact ih.1 (tail single)
      · intro single
        rw [Scan.run_cons, back]
        exact ih.1 (tail (tail single))

theorem reads_PI : Reads .subset .subset PI := by
  rintro _ ⟨_, ⟨_, begins, raw, inside, rfl⟩, _, ends, rfl⟩
  have start : Scan.subset.run "<?".toList = .instruction := rfl
  have close : Scan.instruction.run "?>".toList = .subset ∧ Scan.instructionMark.run "?>".toList = .subset := ⟨rfl, rfl⟩
  cases Set.mem_singleton_iff.mp begins
  cases Set.mem_singleton_iff.mp ends
  simp only [Scan.run_append, start]
  obtain inner | mark := (run_instruction raw).1 inside.2
  · rw [inner]
    exact close.1
  · rw [mark]
    exact close.2

theorem reads_Comment : Reads .subset .subset Comment := by
  have start : Reads .subset .comment (word "<!--") := reads_word rfl
  have inside : Reads .comment .comment commentText := fun text isComment => (run_comment text).1 isComment
  have close : Reads .comment .subset (word "-->") := reads_word rfl
  exact (start.mul inside).mul close

theorem reads_markupdecl : Reads .subset .subset markupdecl := by
  have named := steady_S.mul steady_Name
  have percent : Steady (word "%") := steady_word (by decide)
  have element : Reads .subset .subset elementdecl := ((named.mul steady_S).mul steady_contentspec).declaration rfl
  have attlist : Reads .subset .subset AttlistDecl := (named.mul steady_AttDef.kstar).declaration rfl
  have entity : Reads .subset .subset EntityDecl :=
    (((named.mul steady_S).mul steady_EntityDef).declaration rfl).add
      (((((steady_S.mul percent).mul steady_S).mul steady_Name).mul steady_S).mul steady_PEDef |>.declaration rfl)
  have notations : Reads .subset .subset NotationDecl :=
    ((named.mul steady_S).mul (steady_ExternalID.add steady_PublicID)).declaration rfl
  exact ((((element.add attlist).add entity).add notations).add reads_PI).add reads_Comment

theorem reads_intSubset : Reads .subset .subset intSubset := by
  have between : ∀ {l : Language Char}, (∀ text ∈ l, ∀ c ∈ text, isMark c = false) → Reads .subset .subset l :=
    fun plain text member => run_plain (Or.inr (Or.inr rfl)) (plain text member)
  have name : Reads .subset .subset Name := between fun _ member c inside => isMark_of_name (member.all c inside)
  have space : Reads .subset .subset S := between fun _ member c inside => isMark_of_space (member.1 c inside)
  have percent : Reads .subset .subset (word "%") := reads_word rfl
  have semicolon : Reads .subset .subset (word ";") := reads_word rfl
  have reference := (percent.mul name).mul semicolon
  exact ((reads_markupdecl.add reference).add space).kstar

/-- A declaration has its end where the scanner finds it. -/
theorem closed_of_doctypedecl {raw : List Char} (isDoctype : raw ∈ doctypedecl) : Closed raw := by
  have external := (steady_S.mul steady_ExternalID).opt
  have head := (((steady_S.mul steady_Name).mul external).mul steady_S.opt).1
  have opens : Reads .top .subset (word "[") := reads_word rfl
  have closes : Reads .subset .top (word "]") := reads_word rfl
  have subset := ((opens.mul reads_intSubset).mul closes).mul steady_S.opt.1
  exact head.mul subset.opt raw isDoctype

end AdTerminal.Xml
