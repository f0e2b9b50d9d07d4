import AdTerminal.Library.XmlGrammar
import Mathlib.Data.List.Basic

/-! XML documents that lose some of their white space characters. What is left is a document with
the same elements as long as no white space that the grammar asks for is lost altogether, and it is
not a document otherwise. Where nothing is lost this says that a document can be read in one way. -/

namespace AdTerminal.Xml

/-! Texts that can be told apart from what follows them. -/

/-- A run of one kind of characters is followed by another kind, or by nothing. -/
def Breaks (p : Char → Bool) (text : List Char) : Prop := ∀ c ∈ text.head?, p c = false

theorem breaks_cons {p : Char → Bool} {c : Char} {text : List Char} (other : p c = false) : Breaks p (c :: text) := by
  intro d first
  cases first
  exact other

theorem run_unique {p : Char → Bool} {a b x y : List Char} (inA : ∀ c ∈ a, p c = true) (inB : ∀ c ∈ b, p c = true)
    (x_breaks : Breaks p x) (y_breaks : Breaks p y) (same : a ++ x = b ++ y) : a = b ∧ x = y := by
  induction a generalizing b with
  | nil =>
    cases b with
    | nil => exact ⟨rfl, same⟩
    | cons d b =>
      rw [List.nil_append] at same
      subst same
      have other := x_breaks d rfl
      rw [inB d List.mem_cons_self] at other
      cases other
  | cons c a ih =>
    cases b with
    | nil =>
      rw [List.nil_append] at same
      subst same
      have other := y_breaks c rfl
      rw [inA c List.mem_cons_self] at other
      cases other
    | cons d b =>
      obtain ⟨head, tail⟩ := List.cons_eq_cons.mp same
      obtain ⟨front, back⟩ := ih (fun c member => inA c (List.mem_cons_of_mem _ member))
        (fun c member => inB c (List.mem_cons_of_mem _ member)) tail
      exact ⟨by rw [head, front], back⟩

/-- A closing that ends in a character it has nowhere else comes first where it is not inside. -/
theorem closing_first {init a pre post : List Char} {last : Char} (inner : last ∉ init)
    (unclosed : ¬ init ++ [last] <:+: a) (same : a ++ (init ++ [last]) = pre ++ (init ++ [last]) ++ post) :
    post = [] := by
  cases List.eq_nil_or_concat post with
  | inl none => exact none
  | inr some =>
    obtain ⟨before, final, split⟩ := some
    have shorter : a ++ init = pre ++ (init ++ [last]) ++ before := by
      have both : (a ++ init) ++ [last] = (pre ++ (init ++ [last]) ++ before) ++ [final] := by
        simpa [split] using same
      exact (List.append_inj' both rfl).1
    cases List.append_eq_append_iff.mp shorter with
    | inr within =>
      obtain ⟨x, front, _⟩ := within
      exact absurd ⟨pre, x, front.symm⟩ unclosed
    | inl overlap =>
      obtain ⟨x, front, back⟩ := overlap
      cases List.eq_nil_or_concat x with
      | inl none =>
        rw [none, List.append_nil] at front
        exact absurd ⟨pre, [], by rw [List.append_nil, front]⟩ unclosed
      | inr some =>
        -- The occurrence ends inside the closing, which has its last character there as well.
        obtain ⟨y, c, ends⟩ := some
        rw [ends, List.concat_eq_append, ← List.append_assoc, ← List.append_assoc] at front
        have equal : last = c := by simpa using (List.append_inj' front rfl).2
        exact absurd (by rw [back, ends, equal]; simp) inner

theorem closing_unique {init a b x y : List Char} {last : Char} (inner : last ∉ init)
    (a_unclosed : ¬ init ++ [last] <:+: a) (b_unclosed : ¬ init ++ [last] <:+: b)
    (same : a ++ ((init ++ [last]) ++ x) = b ++ ((init ++ [last]) ++ y)) : a = b ∧ x = y := by
  have left : a ++ (init ++ [last]) ++ x = b ++ (init ++ [last]) ++ y := by simpa using same
  cases List.append_eq_append_iff.mp left with
  | inl longer =>
    obtain ⟨post, front, back⟩ := longer
    have none := closing_first inner b_unclosed front
    rw [none, List.append_nil] at front
    rw [none, List.nil_append] at back
    exact ⟨(List.append_cancel_right front).symm, back⟩
  | inr longer =>
    obtain ⟨post, front, back⟩ := longer
    have none := closing_first inner a_unclosed front
    rw [none, List.append_nil] at front
    rw [none, List.nil_append] at back
    exact ⟨List.append_cancel_right front, back.symm⟩

theorem Kind.closing_unique (kind : Kind) {a b x y : List Char} (a_unclosed : kind.Unclosed a)
    (b_unclosed : kind.Unclosed b) (same : a ++ (kind.closing ++ x) = b ++ (kind.closing ++ y)) :
    a = b ∧ x = y := by
  cases kind with
  | comment => exact @Xml.closing_unique ['-', '-'] a b x y '>' (by decide) a_unclosed b_unclosed same
  | cdata => exact @Xml.closing_unique [']', ']'] a b x y '>' (by decide) a_unclosed b_unclosed same
  | pi => exact @Xml.closing_unique ['?'] a b x y '>' (by decide) a_unclosed b_unclosed same
  | reference => exact @Xml.closing_unique [] a b x y ';' (by decide) a_unclosed b_unclosed same
  | doctype => exact Closed.unique a_unclosed b_unclosed same

theorem IsName.cons {name : List Char} (isName : IsName name) :
    ∃ first rest, name = first :: rest ∧ isNameStartChar first = true := by
  cases name with
  | nil => exact isName.elim
  | cons first rest => exact ⟨first, rest, rfl, isName.1⟩

theorem breaks_name {name text : List Char} (isName : IsName name) : Breaks isSpace (name ++ text) := by
  obtain ⟨first, rest, same, start⟩ := isName.cons
  rw [same]
  exact breaks_cons (not_space_of_name (isNameChar_of_start start))

/-- White space ends a name, and so does what is not part of one. -/
theorem breaks_white {space text : List Char} (white : White space) (other : Breaks isNameChar text) :
    Breaks isNameChar (space ++ text) := by
  cases space with
  | nil => exact other
  | cons c space => exact breaks_cons (not_name_of_space (white c List.mem_cons_self))

/-! Losing white space. -/

/-- Nothing is lost but white space. -/
def Spaces (keep : Char → Bool) : Prop := ∀ c, isSpace c = false → keep c = true

variable {keep : Char → Bool}

theorem White.filter {text : List Char} (white : White text) : White (text.filter keep) :=
  fun c member => white c (List.mem_of_mem_filter member)

theorem Spaces.filter_name (spaces : Spaces keep) {name : List Char} (isName : IsName name) :
    name.filter keep = name :=
  List.filter_eq_self.mpr fun c member => spaces c (not_space_of_name (isName.all c member))

theorem Spaces.filter_reference (spaces : Spaces keep) {raw : List Char} (isReference : IsReference raw) :
    raw.filter keep = raw :=
  List.filter_eq_self.mpr fun c member => spaces c (isReference.not_space c member)

theorem Spaces.filter_of_all (spaces : Spaces keep) {text : List Char} (solid : text.all (fun c => !isSpace c) = true) :
    text.filter keep = text := by
  refine List.filter_eq_self.mpr fun c member => spaces c ?_
  simpa using List.all_eq_true.mp solid c member

theorem Spaces.filter_opening (spaces : Spaces keep) (kind : Kind) : kind.opening.filter keep = kind.opening :=
  spaces.filter_of_all (by cases kind <;> decide)

theorem Spaces.filter_closing (spaces : Spaces keep) (kind : Kind) : kind.closing.filter keep = kind.closing :=
  spaces.filter_of_all (by cases kind <;> decide)

def Attribute.filter (keep : Char → Bool) (attr : Attribute) : Attribute where
  before := attr.before.filter keep
  name := attr.name
  beforeEq := attr.beforeEq.filter keep
  afterEq := attr.afterEq.filter keep
  quote := attr.quote
  value := attr.value.filter keep

def Tag.filter (keep : Char → Bool) (tag : Tag) : Tag where
  name := tag.name
  attributes := tag.attributes.map (Attribute.filter keep)
  after := tag.after.filter keep

def Content.filter (keep : Char → Bool) : Content → Content
  | done text => done (text.filter keep)
  | markup text kind raw rest => markup (text.filter keep) kind (raw.filter keep) (rest.filter keep)
  | empty text tag rest => empty (text.filter keep) (tag.filter keep) (rest.filter keep)
  | element text tag content after rest =>
    element (text.filter keep) (tag.filter keep) (content.filter keep) (after.filter keep) (rest.filter keep)

theorem Attribute.WellFormed.quote_plain {attr : Attribute} (wellFormed : attr.WellFormed) :
    isSpace attr.quote = false := by
  cases wellFormed.quote with
  | inl same => rw [same]; decide
  | inr same => rw [same]; decide

theorem Attribute.render_filter (spaces : Spaces keep) {attr : Attribute} (wellFormed : attr.WellFormed) :
    (attr.filter keep).render = attr.render.filter keep := by
  have quote := spaces attr.quote wellFormed.quote_plain
  have equals : keep '=' = true := spaces '=' (by decide)
  simp [Attribute.render, Attribute.filter, quote, equals, spaces.filter_name wellFormed.name]

theorem attributes_filter (spaces : Spaces keep) {attrs : List Attribute}
    (wellFormed : ∀ attr ∈ attrs, attr.WellFormed) :
    (attrs.map (Attribute.filter keep)).flatMap Attribute.render = (attrs.flatMap Attribute.render).filter keep := by
  induction attrs with
  | nil => rfl
  | cons attr rest ih =>
    rw [List.map_cons, List.flatMap_cons, List.flatMap_cons, List.filter_append,
      Attribute.render_filter spaces (wellFormed attr List.mem_cons_self),
      ih fun attr member => wellFormed attr (List.mem_cons_of_mem _ member)]

theorem Tag.render_filter (spaces : Spaces keep) {tag : Tag} (wellFormed : tag.WellFormed) :
    (tag.filter keep).render = tag.render.filter keep := by
  simp [Tag.render, Tag.filter, attributes_filter spaces wellFormed.attributes, spaces.filter_name wellFormed.name]

theorem Content.render_filter (spaces : Spaces keep) {content : Content} (wellFormed : content.WellFormed) :
    (content.filter keep).render = content.render.filter keep := by
  have plain : ∀ c, isSpace c = false → keep c = true := spaces
  induction content with
  | done text => rfl
  | markup text kind raw rest ih =>
    simp [Content.filter, Content.render, ih wellFormed.2.2, spaces.filter_opening, spaces.filter_closing]
  | empty text tag rest ih =>
    have tags := Tag.render_filter spaces wellFormed.2.1
    simp [Content.filter, Content.render, ih wellFormed.2.2, tags, spaces '<' (by decide), spaces '/' (by decide),
      spaces '>' (by decide)]
  | element text tag content after rest inner ih =>
    obtain ⟨_, tag_wellFormed, content_wellFormed, _, rest_wellFormed⟩ := wellFormed
    have tags := Tag.render_filter spaces tag_wellFormed
    have name : (tag.filter keep).name = tag.name.filter keep := (spaces.filter_name tag_wellFormed.name).symm
    simp [Content.filter, Content.render, inner content_wellFormed, ih rest_wellFormed, tags, name,
      spaces '<' (by decide), spaces '/' (by decide), spaces '>' (by decide)]

/-! One reading. On the left there is always what a well-formed piece leaves, on the right a
well-formed piece, and both are followed by more. -/

theorem Attribute.render_append (attr : Attribute) (text : List Char) :
    attr.render ++ text = attr.before ++ (attr.name ++ (attr.beforeEq ++ '=' :: (attr.afterEq ++
      attr.quote :: (attr.value ++ attr.quote :: text)))) := by
  simp [Attribute.render]

theorem Attribute.unique {attr other : Attribute} {x y : List Char} (left : attr.WellFormed) (right : other.WellFormed)
    (same : (attr.filter keep).render ++ x = other.render ++ y) :
    attr.before.filter keep ≠ [] ∧ other.name = attr.name ∧ other.value = attr.value.filter keep ∧ x = y := by
  rw [Attribute.render_append, Attribute.render_append] at same
  have equals : ∀ text, Breaks isNameChar ('=' :: text) := fun _ => breaks_cons (by decide)
  have equals_space : ∀ text, Breaks isSpace ('=' :: text) := fun _ => breaks_cons (by decide)
  obtain ⟨before, same⟩ := run_unique left.before.filter right.before (breaks_name left.name)
    (breaks_name right.name) same
  obtain ⟨name, same⟩ := run_unique left.name.all right.name.all (breaks_white left.beforeEq.filter (equals _))
    (breaks_white right.beforeEq (equals _)) same
  obtain ⟨_, same⟩ := run_unique left.beforeEq.filter right.beforeEq (equals_space _) (equals_space _) same
  obtain ⟨_, same⟩ := run_unique left.afterEq.filter right.afterEq (breaks_cons left.quote_plain)
    (breaks_cons right.quote_plain) (List.cons_eq_cons.mp same).2
  obtain ⟨quote, same⟩ := List.cons_eq_cons.mp same
  have inside : ∀ text : List Char, attr.quote ∉ text → ∀ c ∈ text, (c != attr.quote) = true :=
    fun text absent c member => bne_iff_ne.mpr fun equal => absent (equal ▸ member)
  have shut : ∀ text, Breaks (fun c => c != attr.quote) (attr.quote :: text) :=
    fun _ => breaks_cons (bne_self_eq_false' _)
  have lost : attr.quote ∉ attr.value.filter keep := fun member => left.inside (List.mem_of_mem_filter member)
  have own : other.quote = attr.quote := quote.symm
  have kept : attr.quote ∉ other.value := own ▸ right.inside
  rw [own] at same
  obtain ⟨value, same⟩ := run_unique (inside _ lost) (inside _ kept) (shut _) (shut _) same
  refine ⟨?_, name.symm, value.symm, (List.cons_eq_cons.mp same).2⟩
  rw [before]
  exact right.apart

/-- What follows the attributes of a tag: its end. -/
def TagEnd (text : List Char) : Prop := ∃ c rest, text = c :: rest ∧ (c = '>' ∨ c = '/')

theorem TagEnd.breaks {text : List Char} (ends : TagEnd text) {p : Char → Bool} (angle : p '>' = false)
    (slash : p '/' = false) : Breaks p text := by
  obtain ⟨c, rest, same, kind⟩ := ends
  rw [same]
  cases kind with
  | inl same => exact breaks_cons (same ▸ angle)
  | inr same => exact breaks_cons (same ▸ slash)

theorem TagEnd.not_name {name text rest : List Char} (ends : TagEnd text) (isName : IsName name)
    (same : text = name ++ rest) : False := by
  obtain ⟨first, tail, split, start⟩ := isName.cons
  have breaks : Breaks isNameChar text := ends.breaks (by decide) (by decide)
  rw [same, split] at breaks
  have other := breaks first rfl
  rw [isNameChar_of_start start] at other
  cases other

/-- White space, and then neither more of it nor an equals sign. -/
def NoEquals (text : List Char) : Prop :=
  ∃ space c rest, text = space ++ c :: rest ∧ White space ∧ isSpace c = false ∧ c ≠ '='

theorem attributes_start {attrs : List Attribute} {after text : List Char}
    (wellFormed : ∀ attr ∈ attrs, attr.WellFormed) (white : White after) (ends : TagEnd text) :
    Breaks isNameChar (attrs.flatMap Attribute.render ++ (after ++ text)) ∧
      NoEquals (attrs.flatMap Attribute.render ++ (after ++ text)) := by
  cases attrs with
  | nil =>
    have breaks : Breaks isNameChar text := ends.breaks (by decide) (by decide)
    rw [List.flatMap_nil, List.nil_append]
    refine ⟨breaks_white white breaks, ?_⟩
    obtain ⟨c, rest, same, kind⟩ := ends
    refine ⟨after, c, rest, by rw [same], white, ?_⟩
    cases kind with
    | inl same => exact same ▸ ⟨by decide, by decide⟩
    | inr same => exact same ▸ ⟨by decide, by decide⟩
  | cons attr rest =>
    have first := wellFormed attr List.mem_cons_self
    obtain ⟨c, tail, name, start⟩ := first.name.cons
    rw [List.flatMap_cons, List.append_assoc, Attribute.render_append]
    constructor
    · cases before : attr.before with
      | nil => exact absurd before first.apart
      | cons c space => exact breaks_cons (not_name_of_space (first.before c (before ▸ List.mem_cons_self)))
    · refine ⟨attr.before, c, _, by rw [name]; rfl, first.before, not_space_of_name (isNameChar_of_start start), ?_⟩
      intro same
      subst same
      exact absurd start (by decide)

/-- Each attribute keeps some of the white space before it. -/
def Tag.Apart (keep : Char → Bool) (tag : Tag) : Prop := ∀ attr ∈ tag.attributes, attr.before.filter keep ≠ []

theorem attributes_unique {attrs others : List Attribute} {after after' x y : List Char}
    (left : ∀ attr ∈ attrs, attr.WellFormed) (right : ∀ attr ∈ others, attr.WellFormed) (white : White after)
    (white' : White after') (x_ends : TagEnd x) (y_ends : TagEnd y)
    (same : (attrs.map (Attribute.filter keep)).flatMap Attribute.render ++ (after.filter keep ++ x) =
      others.flatMap Attribute.render ++ (after' ++ y)) :
    (∀ attr ∈ attrs, attr.before.filter keep ≠ []) ∧
      others.map (fun attr => (attr.name, attr.value)) =
        (attrs.map (Attribute.filter keep)).map (fun attr => (attr.name, attr.value)) ∧ x = y := by
  have ends_space : ∀ text, TagEnd text → Breaks isSpace text := fun _ ends => ends.breaks (by decide) (by decide)
  induction attrs generalizing others with
  | nil =>
    cases others with
    | nil =>
      obtain ⟨_, rest⟩ := run_unique white.filter white' (ends_space x x_ends) (ends_space y y_ends) same
      exact ⟨fun _ member => (List.not_mem_nil member).elim, rfl, rest⟩
    | cons other others =>
      have first := right other List.mem_cons_self
      rw [List.flatMap_cons, List.append_assoc, Attribute.render_append] at same
      obtain ⟨_, rest⟩ := run_unique white.filter first.before (ends_space x x_ends) (breaks_name first.name) same
      exact (x_ends.not_name first.name rest).elim
  | cons attr attrs ih =>
    have own := left attr List.mem_cons_self
    rw [List.map_cons, List.flatMap_cons, List.append_assoc] at same
    cases others with
    | nil =>
      rw [Attribute.render_append] at same
      obtain ⟨_, rest⟩ := run_unique own.before.filter white' (breaks_name own.name) (ends_space y y_ends) same
      exact (y_ends.not_name own.name rest.symm).elim
    | cons other others =>
      rw [List.flatMap_cons, List.append_assoc] at same
      obtain ⟨apart, name, value, rest⟩ := Attribute.unique own (right other List.mem_cons_self) same
      obtain ⟨all, pairs, rest⟩ := ih (fun attr member => left attr (List.mem_cons_of_mem _ member))
        (fun attr member => right attr (List.mem_cons_of_mem _ member)) rest
      refine ⟨?_, by rw [List.map_cons, pairs, name, value]; rfl, rest⟩
      intro one member
      cases List.mem_cons.mp member with
      | inl same => exact same ▸ apart
      | inr tail => exact all one tail

theorem Tag.unique {tag other : Tag} {x y : List Char} (left : tag.WellFormed) (right : other.WellFormed)
    (x_ends : TagEnd x) (y_ends : TagEnd y) (same : (tag.filter keep).render ++ x = other.render ++ y) :
    tag.Apart keep ∧ other.name = tag.name ∧ other.pairs = (tag.filter keep).pairs ∧ x = y := by
  have shape : ∀ (tag : Tag) text,
      tag.render ++ text = tag.name ++ (tag.attributes.flatMap Attribute.render ++ (tag.after ++ text)) := by
    simp [Tag.render]
  rw [shape, shape] at same
  obtain ⟨right_breaks, no_equals⟩ := attributes_start right.attributes right.after y_ends
  have apart_or :
      Breaks isNameChar ((tag.filter keep).attributes.flatMap Attribute.render ++ ((tag.filter keep).after ++ x)) ∨
      ∃ attr ∈ tag.attributes, ∃ rest, (tag.filter keep).attributes.flatMap Attribute.render ++
        ((tag.filter keep).after ++ x) = attr.name ++ (attr.beforeEq.filter keep ++ '=' :: rest) := by
    cases attributes : tag.attributes with
    | nil =>
      refine Or.inl ?_
      show Breaks isNameChar ((tag.attributes.map (Attribute.filter keep)).flatMap Attribute.render ++ _)
      have breaks : Breaks isNameChar x := x_ends.breaks (by decide) (by decide)
      rw [attributes, List.map_nil, List.flatMap_nil, List.nil_append]
      exact breaks_white left.after.filter breaks
    | cons attr rest =>
      have own := left.attributes attr (attributes ▸ List.mem_cons_self)
      have split : (tag.filter keep).attributes.flatMap Attribute.render =
          (attr.filter keep).render ++ (rest.map (Attribute.filter keep)).flatMap Attribute.render := by
        show (tag.attributes.map (Attribute.filter keep)).flatMap Attribute.render = _
        rw [attributes]
        rfl
      rw [split, List.append_assoc, Attribute.render_append]
      cases before : attr.before.filter keep with
      | nil =>
        exact Or.inr ⟨attr, List.mem_cons_self, _, congrArg (fun space => space ++ _) before⟩
      | cons c space =>
        refine Or.inl ?_
        show Breaks isNameChar (attr.before.filter keep ++ _)
        have member : c ∈ attr.before.filter keep := before ▸ List.mem_cons_self
        rw [before]
        exact breaks_cons (not_name_of_space (own.before.filter c member))
  cases apart_or with
  | inl breaks =>
    obtain ⟨name, rest⟩ := run_unique left.name.all right.name.all breaks right_breaks same
    obtain ⟨apart, pairs, ends⟩ := attributes_unique left.attributes right.attributes left.after right.after x_ends
      y_ends rest
    exact ⟨apart, name.symm, pairs, ends⟩
  | inr joined =>
    -- The first attribute has become part of the name, and its equals sign is left over.
    obtain ⟨attr, member, rest, starts⟩ := joined
    have own := left.attributes attr member
    have equals : Breaks isNameChar ('=' :: rest) := breaks_cons (by decide)
    rw [starts, ← List.append_assoc] at same
    have inName : ∀ c ∈ tag.name ++ attr.name, isNameChar c = true := fun c member =>
      (List.mem_append.mp member).elim (left.name.all c) (own.name.all c)
    obtain ⟨_, behind⟩ := run_unique inName right.name.all (breaks_white own.beforeEq.filter equals) right_breaks same
    obtain ⟨space, c, tail, split, white, plain, other⟩ := no_equals
    rw [split] at behind
    have equals_space : Breaks isSpace ('=' :: rest) := breaks_cons (by decide)
    obtain ⟨_, first⟩ := run_unique own.beforeEq.filter white equals_space (breaks_cons plain) behind
    exact absurd (List.cons_eq_cons.mp first).1.symm other

/-- What follows content: nothing, or an end tag. -/
def ContentEnd (text : List Char) : Prop := text = [] ∨ ∃ rest, text = '<' :: '/' :: rest

def isPlain (c : Char) : Bool := c != '<' && c != '&'

theorem isPlain_iff {c : Char} : isPlain c = true ↔ c ≠ '<' ∧ c ≠ '&' := by
  simp [isPlain]

namespace Content

/-- The text before the first markup. -/
def text : Content → List Char
  | done text => text
  | markup text _ _ _ => text
  | empty text _ _ => text
  | element text _ _ _ _ => text

/-- The first markup and what follows it, with more text after the content. -/
def follow : Content → List Char → List Char
  | done _, more => more
  | markup _ kind raw rest, more => kind.opening ++ (raw ++ (kind.closing ++ (rest.render ++ more)))
  | empty _ tag rest, more => '<' :: (tag.render ++ '/' :: '>' :: (rest.render ++ more))
  | element _ tag content after rest, more =>
    '<' :: (tag.render ++ '>' :: (content.render ++ '<' :: '/' :: (tag.name ++ (after ++ '>' :: (rest.render ++ more)))))

theorem render_append (content : Content) (more : List Char) :
    content.render ++ more = content.text ++ content.follow more := by
  cases content <;> simp [render, text, follow]

theorem WellFormed.text {content : Content} (wellFormed : content.WellFormed) : IsCharData content.text := by
  cases content with
  | done text => exact wellFormed
  | markup text kind raw rest => exact wellFormed.1
  | empty text tag rest => exact wellFormed.1
  | element text tag content after rest => exact wellFormed.1

theorem text_filter (content : Content) : (content.filter keep).text = content.text.filter keep := by
  cases content <;> rfl

theorem breaks_follow (content : Content) {more : List Char} (ends : ContentEnd more) :
    Breaks isPlain (content.follow more) := by
  have angle : ∀ text, Breaks isPlain ('<' :: text) := fun _ => breaks_cons (by decide)
  cases content with
  | done _ =>
    cases ends with
    | inl none =>
      subst none
      exact fun c first => by cases first
    | inr tag =>
      obtain ⟨rest, same⟩ := tag
      subst same
      exact angle _
  | markup _ kind _ _ =>
    cases kind with
    | reference => exact breaks_cons (by decide)
    | _ => exact angle _
  | empty _ _ _ => exact angle _
  | element _ _ _ _ _ => exact angle _

theorem text_unique {content other : Content} {x y : List Char} (left : content.WellFormed) (right : other.WellFormed)
    (x_ends : ContentEnd x) (y_ends : ContentEnd y) (same : (content.filter keep).render ++ x = other.render ++ y) :
    content.text.filter keep = other.text ∧ (content.filter keep).follow x = other.follow y := by
  rw [render_append, render_append, text_filter] at same
  refine run_unique ?_ ?_ (breaks_follow _ x_ends) (breaks_follow _ y_ends) same
  · exact fun c member => isPlain_iff.mpr (left.text.plain c (List.mem_of_mem_filter member))
  · exact fun c member => isPlain_iff.mpr (right.text.plain c member)

end Content

theorem Kind.opening_unique {kind other : Kind} {x y : List Char} (same : kind.opening ++ x = other.opening ++ y) :
    kind = other ∧ x = y := by
  cases kind <;> cases other <;> simp_all [Kind.opening]

/-- A markup, a tag and an end tag begin differently. -/
theorem opening_not_tag {kind : Kind} {tag : Tag} {x y : List Char} (isName : IsName tag.name)
    (same : kind.opening ++ x = '<' :: (tag.render ++ y)) : False := by
  obtain ⟨first, rest, name, start⟩ := isName.cons
  cases kind with
  | reference => simp [Kind.opening] at same
  | comment | cdata | pi | doctype =>
    simp only [Kind.opening, Tag.render, name, List.cons_append, List.cons.injEq] at same
    exact absurd start (same.2.1 ▸ by decide)

theorem opening_not_end {kind : Kind} {x y : List Char} (ends : ContentEnd y) (same : kind.opening ++ x = y) :
    False := by
  subst same
  cases ends with
  | inl none => cases kind <;> simp [Kind.opening] at none
  | inr tag =>
    obtain ⟨rest, same⟩ := tag
    cases kind <;> simp [Kind.opening] at same

theorem tag_not_end {tag : Tag} {x y : List Char} (isName : IsName tag.name) (ends : ContentEnd y)
    (same : '<' :: (tag.render ++ x) = y) : False := by
  obtain ⟨first, rest, name, start⟩ := isName.cons
  subst same
  cases ends with
  | inl none => cases none
  | inr tag =>
    obtain ⟨rest, same⟩ := tag
    simp only [Tag.render, name, List.cons_append, List.cons.injEq] at same
    exact absurd start (same.2.1 ▸ by decide)

/-- No value of an attribute loses anything. -/
def Tag.Undisturbed (keep : Char → Bool) (tag : Tag) : Prop :=
  ∀ attr ∈ tag.attributes, attr.value.filter keep = attr.value

theorem Tag.pairs_filter {tag : Tag} (undisturbed : tag.Undisturbed keep) : (tag.filter keep).pairs = tag.pairs := by
  unfold Tag.pairs Tag.filter
  rw [List.map_map]
  refine List.map_congr_left fun attr member => ?_
  show (attr.name, attr.value.filter keep) = _
  rw [undisturbed attr member]

namespace Content

/-- A document type declaration that is still one says the same. -/
def DoctypeUndisturbed (keep : Char → Bool) (raw : List Char) : Prop :=
  raw.filter keep ∈ doctypedecl → declared (raw.filter keep) = declared raw

/-- No value of an attribute loses anything, and no comment, section, instruction or declaration comes
to have its end earlier or to say something else, the instruction as an XML declaration. -/
def Undisturbed (keep : Char → Bool) : Content → Prop
  | done _ => True
  | markup _ kind raw rest =>
    (kind.Unclosed (raw.filter keep) ∧ (kind = .pi → ¬ IsXMLDecl (raw.filter keep)) ∧
      (kind = .doctype → DoctypeUndisturbed keep raw)) ∧ rest.Undisturbed keep
  | empty _ tag rest => tag.Undisturbed keep ∧ rest.Undisturbed keep
  | element _ tag content _ rest => tag.Undisturbed keep ∧ content.Undisturbed keep ∧ rest.Undisturbed keep

/-- The first text is still text, and each attribute, comment, section and instruction is still one. -/
def Survives (keep : Char → Bool) : Content → Prop
  | done text => ¬ [']', ']', '>'] <:+: text.filter keep
  | markup text kind raw rest =>
    ¬ [']', ']', '>'] <:+: text.filter keep ∧ kind.Form (raw.filter keep) ∧ rest.Survives keep
  | empty text tag rest => ¬ [']', ']', '>'] <:+: text.filter keep ∧ tag.Apart keep ∧ rest.Survives keep
  | element text tag content _ rest =>
    ¬ [']', ']', '>'] <:+: text.filter keep ∧ tag.Apart keep ∧ content.Survives keep ∧ rest.Survives keep

theorem elements_filter (spaces : Spaces keep) {content : Content} (wellFormed : content.WellFormed)
    (undisturbed : content.Undisturbed keep) : (content.filter keep).elements = content.elements := by
  induction content with
  | done text => rfl
  | markup text kind raw rest ih =>
    have rests := ih wellFormed.2.2 undisturbed.2
    by_cases reference : kind = .reference
    · subst reference
      have whole : raw.filter keep = raw := spaces.filter_reference wellFormed.2.1.form
      show Tree.reference (raw.filter keep) :: (rest.filter keep).elements = Tree.reference raw :: rest.elements
      rw [whole, rests]
    · simp only [filter, elements, if_neg reference, rests]
  | empty text tag rest ih =>
    show Tree.node tag.name (tag.filter keep).pairs [] :: (rest.filter keep).elements = _
    rw [Tag.pairs_filter undisturbed.1, ih wellFormed.2.2 undisturbed.2]
    rfl
  | element text tag content after rest inner ih =>
    obtain ⟨_, _, content_wellFormed, _, rest_wellFormed⟩ := wellFormed
    show Tree.node tag.name (tag.filter keep).pairs (content.filter keep).elements :: (rest.filter keep).elements = _
    rw [Tag.pairs_filter undisturbed.1, inner content_wellFormed undisturbed.2.1, ih rest_wellFormed undisturbed.2.2]
    rfl

theorem doctype_filter {content : Content} (undisturbed : content.Undisturbed keep) (survives : content.Survives keep) :
    (content.filter keep).doctype = content.doctype := by
  induction content with
  | done text => rfl
  | markup text kind raw rest ih =>
    obtain ⟨_, form, rest_survives⟩ := survives
    by_cases doctype : kind = .doctype
    · subst doctype
      show some (declared (raw.filter keep)) = some (declared raw)
      rw [undisturbed.1.2.2 rfl form]
    · simp only [filter, Content.doctype, if_neg doctype, ih undisturbed.2 rest_survives]
  | empty text tag rest ih => exact ih undisturbed.2 survives.2.2
  | element text tag content after rest inner ih => exact ih undisturbed.2.2 survives.2.2.2

/-- A text in which content without some of its white space can be read, can be read in no other way,
and everything the grammar asks for is left. -/
theorem unique {content other : Content} {x y : List Char} (left : content.WellFormed)
    (undisturbed : content.Undisturbed keep) (right : other.WellFormed) (x_ends : ContentEnd x) (y_ends : ContentEnd y)
    (same : (content.filter keep).render ++ x = other.render ++ y) :
    content.Survives keep ∧ other.elements = (content.filter keep).elements ∧
      other.doctype = (content.filter keep).doctype ∧ x = y := by
  induction content generalizing other x y with
  | done text =>
    obtain ⟨text_same, tails⟩ := text_unique left right x_ends y_ends same
    have still : ¬ [']', ']', '>'] <:+: text.filter keep := text_same ▸ right.text.form
    cases other with
    | done _ => exact ⟨still, rfl, rfl, tails⟩
    | markup _ _ _ _ => exact (opening_not_end x_ends tails.symm).elim
    | empty _ _ _ => exact (tag_not_end right.2.1.name x_ends tails.symm).elim
    | element _ _ _ _ _ => exact (tag_not_end right.2.1.name x_ends tails.symm).elim
  | markup text kind raw rest ih =>
    obtain ⟨text_same, tails⟩ := text_unique left right x_ends y_ends same
    have still : ¬ [']', ']', '>'] <:+: text.filter keep := text_same ▸ right.text.form
    cases other with
    | done _ => exact (opening_not_end y_ends tails).elim
    | markup _ _ raw' rest' =>
      obtain ⟨kinds, tails⟩ := Kind.opening_unique tails
      subst kinds
      obtain ⟨inside, tails⟩ := kind.closing_unique undisturbed.1.1 right.2.1.unclosed tails
      obtain ⟨survives, elements, doctype, ends⟩ := ih left.2.2 undisturbed.2 right.2.2 x_ends y_ends tails
      refine ⟨⟨still, inside ▸ right.2.1.form, survives⟩, ?_, ?_, ends⟩
      · simp only [filter, Content.elements, inside, elements]
      · simp only [filter, Content.doctype, inside, doctype]
    | empty _ _ _ => exact (opening_not_tag right.2.1.name tails).elim
    | element _ _ _ _ _ => exact (opening_not_tag right.2.1.name tails).elim
  | empty text tag rest ih =>
    obtain ⟨text_same, tails⟩ := text_unique left right x_ends y_ends same
    have still : ¬ [']', ']', '>'] <:+: text.filter keep := text_same ▸ right.text.form
    have isName : IsName (tag.filter keep).name := left.2.1.name
    cases other with
    | done _ => exact (tag_not_end isName y_ends tails).elim
    | markup _ _ _ _ => exact (opening_not_tag isName tails.symm).elim
    | empty _ tag' rest' =>
      obtain ⟨apart, name, pairs, tails⟩ := Tag.unique left.2.1 right.2.1 ⟨'/', _, rfl, Or.inr rfl⟩
        ⟨'/', _, rfl, Or.inr rfl⟩ (List.cons_eq_cons.mp tails).2
      have rests := (List.cons_eq_cons.mp (List.cons_eq_cons.mp tails).2).2
      obtain ⟨survives, elements, doctype, ends⟩ := ih left.2.2 undisturbed.2 right.2.2 x_ends y_ends rests
      refine ⟨⟨still, apart, survives⟩, ?_, doctype, ends⟩
      show Tree.node tag'.name tag'.pairs [] :: rest'.elements = _
      rw [name, pairs, elements]
      rfl
    | element _ tag' content' after' rest' =>
      obtain ⟨_, _, _, tails⟩ := Tag.unique left.2.1 right.2.1 ⟨'/', _, rfl, Or.inr rfl⟩
        ⟨'>', _, rfl, Or.inl rfl⟩ (List.cons_eq_cons.mp tails).2
      exact absurd (List.cons_eq_cons.mp tails).1 (by decide)
  | element text tag content after rest inner ih =>
    obtain ⟨text_same, tails⟩ := text_unique left right x_ends y_ends same
    have still : ¬ [']', ']', '>'] <:+: text.filter keep := text_same ▸ right.text.form
    obtain ⟨_, left_tag, left_content, left_after, left_rest⟩ := left
    obtain ⟨undisturbed_tag, undisturbed_content, undisturbed_rest⟩ := undisturbed
    have isName : IsName (tag.filter keep).name := left_tag.name
    cases other with
    | done _ => exact (tag_not_end isName y_ends tails).elim
    | markup _ _ _ _ => exact (opening_not_tag isName tails.symm).elim
    | empty _ tag' rest' =>
      obtain ⟨_, _, _, tails⟩ := Tag.unique left_tag right.2.1 ⟨'>', _, rfl, Or.inl rfl⟩
        ⟨'/', _, rfl, Or.inr rfl⟩ (List.cons_eq_cons.mp tails).2
      exact absurd (List.cons_eq_cons.mp tails).1 (by decide)
    | element _ tag' content' after' rest' =>
      obtain ⟨_, right_tag, right_content, right_after, right_rest⟩ := right
      obtain ⟨apart, name, pairs, tails⟩ := Tag.unique left_tag right_tag ⟨'>', _, rfl, Or.inl rfl⟩
        ⟨'>', _, rfl, Or.inl rfl⟩ (List.cons_eq_cons.mp tails).2
      obtain ⟨content_survives, content_elements, _, tails⟩ := inner left_content undisturbed_content right_content
        (Or.inr ⟨_, rfl⟩) (Or.inr ⟨_, rfl⟩) (List.cons_eq_cons.mp tails).2
      have ending := (List.cons_eq_cons.mp (List.cons_eq_cons.mp tails).2).2
      rw [name] at ending
      have angle : ∀ text, Breaks isSpace ('>' :: text) := fun _ => breaks_cons (by decide)
      obtain ⟨_, tails⟩ := run_unique left_after.filter right_after (angle _) (angle _) (List.append_cancel_left ending)
      obtain ⟨survives, elements, doctype, ends⟩ := ih left_rest undisturbed_rest right_rest x_ends y_ends
        (List.cons_eq_cons.mp tails).2
      refine ⟨⟨still, apart, content_survives, survives⟩, ?_, doctype, ends⟩
      show Tree.node tag'.name tag'.pairs content'.elements :: rest'.elements = _
      rw [name, pairs, content_elements, elements]
      rfl

end Content

/-! What is left is well formed where everything survives. -/

theorem isCharData_nil : IsCharData [] where
  legal := fun _ member => by cases member
  plain := fun _ member => by cases member
  form := by decide

theorem IsCharData.filter {text : List Char} (isCharData : IsCharData text)
    (still : ¬ [']', ']', '>'] <:+: text.filter keep) : IsCharData (text.filter keep) where
  legal := fun c member => isCharData.legal c (List.mem_of_mem_filter member)
  plain := fun c member => isCharData.plain c (List.mem_of_mem_filter member)
  form := still

theorem Kind.Encloses.filter {kind : Kind} {raw : List Char} (encloses : kind.Encloses raw)
    (unclosed : kind.Unclosed (raw.filter keep)) (form : kind.Form (raw.filter keep)) :
    kind.Encloses (raw.filter keep) where
  legal := fun c member => encloses.legal c (List.mem_of_mem_filter member)
  unclosed := unclosed
  form := form

theorem Tag.WellFormed.filter {tag : Tag} (wellFormed : tag.WellFormed) (undisturbed : tag.Undisturbed keep)
    (apart : tag.Apart keep) : (tag.filter keep).WellFormed where
  name := wellFormed.name
  attributes := by
    intro other member
    obtain ⟨attr, own, same⟩ := List.mem_map.mp member
    subst same
    have before := wellFormed.attributes attr own
    have value : (attr.filter keep).value = attr.value := undisturbed attr own
    exact ⟨before.before.filter, apart attr own, before.name, before.beforeEq.filter, before.afterEq.filter,
      before.quote, value.symm ▸ before.value, value.symm ▸ before.inside⟩
  after := wellFormed.after.filter

namespace Content

theorem WellFormed.filter {content : Content} (wellFormed : content.WellFormed) (undisturbed : content.Undisturbed keep)
    (survives : content.Survives keep) : (content.filter keep).WellFormed := by
  induction content with
  | done text => exact IsCharData.filter wellFormed survives
  | markup text kind raw rest ih =>
    exact ⟨wellFormed.1.filter survives.1, wellFormed.2.1.filter undisturbed.1.1 survives.2.1,
      ih wellFormed.2.2 undisturbed.2 survives.2.2⟩
  | empty text tag rest ih =>
    exact ⟨wellFormed.1.filter survives.1, wellFormed.2.1.filter undisturbed.1 survives.2.1,
      ih wellFormed.2.2 undisturbed.2 survives.2.2⟩
  | element text tag content after rest inner ih =>
    obtain ⟨text_data, tag_wellFormed, content_wellFormed, after_white, rest_wellFormed⟩ := wellFormed
    obtain ⟨still, apart, content_survives, rest_survives⟩ := survives
    exact ⟨text_data.filter still, tag_wellFormed.filter undisturbed.1 apart,
      inner content_wellFormed undisturbed.2.1 content_survives, after_white.filter,
      ih rest_wellFormed undisturbed.2.2 rest_survives⟩

theorem IsInner.filter {content : Content} (isInner : content.IsInner) : (content.filter keep).IsInner := by
  induction content with
  | done text => trivial
  | markup text kind raw rest ih => exact ⟨isInner.1, ih isInner.2⟩
  | empty text tag rest ih => exact ih isInner
  | element text tag content after rest inner ih => exact ⟨inner isInner.1, ih isInner.2⟩

theorem IsTopLevel.filter {content : Content} {mayDeclare : Bool} (topLevel : content.IsTopLevel mayDeclare) :
    (content.filter keep).IsTopLevel mayDeclare := by
  induction content generalizing mayDeclare with
  | done text => exact White.filter topLevel
  | markup text kind raw rest ih => exact ⟨topLevel.1.filter, topLevel.2.1, ih topLevel.2.2⟩
  | empty text tag rest ih => exact ⟨topLevel.1.filter, ih topLevel.2⟩
  | element text tag content after rest inner ih => exact ⟨topLevel.1.filter, topLevel.2.1.filter, ih topLevel.2.2⟩

end Content

theorem Attribute.filter_true (attr : Attribute) : attr.filter (fun _ => true) = attr := by
  simp [Attribute.filter]

theorem Tag.filter_true (tag : Tag) : tag.filter (fun _ => true) = tag := by
  have attributes : tag.attributes.map (Attribute.filter fun _ => true) = tag.attributes := by
    rw [funext Attribute.filter_true]
    exact List.map_id' tag.attributes
  simp [Tag.filter, attributes]

theorem Content.filter_true (content : Content) : content.filter (fun _ => true) = content := by
  induction content with
  | done text => simp [Content.filter]
  | markup text kind raw rest ih => simp [Content.filter, ih]
  | empty text tag rest ih => simp [Content.filter, Tag.filter_true, ih]
  | element text tag content after rest inner ih => simp [Content.filter, Tag.filter_true, inner, ih]

/-! The XML declaration. -/

theorem isChar_of_name {c : Char} (name : isNameChar c = true) : isChar c = true := by
  have legal : ∀ range ∈ nameRanges, 0x20 ≤ range.1 ∧ (range.2 < 0xFFFE ∨ 0xFFFF < range.1) := by decide
  obtain ⟨range, member, bounds⟩ := List.any_eq_true.mp name
  obtain ⟨lower, upper⟩ := legal range member
  simp only [Bool.and_eq_true, decide_eq_true_eq] at bounds
  simp only [isChar, Bool.or_eq_true, Bool.and_eq_true, decide_eq_true_eq]
  omega

theorem IsDeclaration.values {attrs : List Attribute} (declaration : IsDeclaration attrs) :
    ∀ attr ∈ attrs, ∀ c ∈ attr.value, isNameChar c = true := by
  have versions : ∀ attr : Attribute, attr.IsVersionInfo → ∀ c ∈ attr.value, isNameChar c = true := by
    intro attr info c member
    obtain ⟨digits, value, _, all⟩ := info.2
    rw [value] at member
    simp only [List.mem_cons] at member
    obtain rfl | rfl | digit := member
    · decide
    · decide
    · exact isNameChar_of_digit (all c digit)
  have marks : ∀ c ∈ ['.', '_', '-'], isNameChar c = true := List.all_eq_true.mp (by decide)
  have encodings : ∀ attr : Attribute, attr.IsEncodingDecl → ∀ c ∈ attr.value, isNameChar c = true := by
    intro attr decl c member
    have name := decl.2
    cases value : attr.value with
    | nil =>
      rw [value] at member
      cases member
    | cons first rest =>
      rw [value] at member name
      cases List.mem_cons.mp member with
      | inl same => exact same ▸ isNameChar_of_letter name.1
      | inr tail =>
        obtain letter | digit | other := name.2 c tail
        · exact isNameChar_of_letter letter
        · exact isNameChar_of_digit digit
        · exact marks c other
  have standalones : ∀ attr : Attribute, attr.IsSDDecl → ∀ c ∈ attr.value, isNameChar c = true := by
    intro attr decl
    have yes : ∀ c ∈ "yes".toList, isNameChar c = true := List.all_eq_true.mp (by decide)
    have no : ∀ c ∈ "no".toList, isNameChar c = true := List.all_eq_true.mp (by decide)
    obtain answer | answer := List.mem_pair.mp decl.2
    · rw [answer]
      exact yes
    · rw [answer]
      exact no
  cases declaration with
  | version version info => simpa using versions version info
  | encoding version encoding info decl => simpa using ⟨versions version info, encodings encoding decl⟩
  | standalone version standalone info decl => simpa using ⟨versions version info, standalones standalone decl⟩
  | both version encoding standalone info decl alone =>
    simpa using ⟨versions version info, encodings encoding decl, standalones standalone alone⟩

def isDeclChar (c : Char) : Bool := isSpace c || isNameChar c || c = '=' || c = '"' || c = '\''

theorem IsXMLDecl.all {raw : List Char} (isDecl : IsXMLDecl raw) : ∀ c ∈ raw, isDeclChar c = true := by
  obtain ⟨tag, wellFormed, _, declaration, same⟩ := isDecl
  have space : ∀ text, White text → ∀ c ∈ text, isDeclChar c = true :=
    fun text white c member => by simp [isDeclChar, white c member]
  have name : ∀ text : List Char, (∀ c ∈ text, isNameChar c = true) → ∀ c ∈ text, isDeclChar c = true :=
    fun text inName c member => by simp [isDeclChar, inName c member]
  subst same
  simp only [Tag.render, List.mem_append, List.mem_flatMap]
  rintro c (own | ⟨attr, member, inside⟩ | after)
  · exact name _ wellFormed.name.all c own
  · have attribute_wellFormed := wellFormed.attributes attr member
    simp only [Attribute.render, List.mem_append, List.mem_cons, List.not_mem_nil, or_false] at inside
    obtain before | own | beforeEq | rfl | afterEq | rfl | value | rfl := inside
    · exact space _ attribute_wellFormed.before c before
    · exact name _ attribute_wellFormed.name.all c own
    · exact space _ attribute_wellFormed.beforeEq c beforeEq
    · decide
    · exact space _ attribute_wellFormed.afterEq c afterEq
    · obtain same | same := attribute_wellFormed.quote
      · exact same ▸ by decide
      · exact same ▸ by decide
    · exact name _ (declaration.values attr member) c value
    · obtain same | same := attribute_wellFormed.quote
      · exact same ▸ by decide
      · exact same ▸ by decide
  · exact space _ wellFormed.after c after

theorem IsXMLDecl.unclosed {raw text : List Char} (isDecl : IsXMLDecl raw) (part : text ⊆ raw) :
    ¬ Kind.pi.closing <:+: text := by
  intro inside
  have member : '?' ∈ raw := part (inside.subset List.mem_cons_self)
  exact absurd (isDecl.all '?' member) (by decide)

theorem IsXMLDecl.legal {raw : List Char} (isDecl : IsXMLDecl raw) : ∀ c ∈ raw, isChar c = true := by
  intro c member
  have kinds := isDecl.all c member
  simp only [isDeclChar, Bool.or_eq_true, decide_eq_true_eq] at kinds
  obtain (((space | name) | rfl) | rfl) | rfl := kinds
  · simp [isChar, space]
  · exact isChar_of_name name
  · decide
  · decide
  · decide

/-- The target of an instruction is not the one of an XML declaration. -/
theorem IsPI.not_decl {raw : List Char} (isPI : IsPI raw) : ¬ IsXMLDecl raw := by
  rintro ⟨tag, wellFormed, xml, _, same⟩
  have angle : Breaks isNameChar ['>'] := breaks_cons (by decide)
  have target : ∃ name rest, raw ++ ['>'] = name ++ rest ∧ IsPITarget name ∧ Breaks isNameChar rest := by
    cases isPI with
    | target name isTarget => exact ⟨raw, ['>'], rfl, isTarget, angle⟩
    | data name space data isTarget white apart =>
      refine ⟨name, space ++ (data ++ ['>']), by simp, isTarget, ?_⟩
      cases space with
      | nil => exact absurd rfl apart
      | cons c space => exact breaks_cons (not_name_of_space (white c List.mem_cons_self))
  obtain ⟨name, rest, split, isTarget, breaks⟩ := target
  have own := (attributes_start wellFormed.attributes wellFormed.after ⟨'>', [], rfl, Or.inl rfl⟩).1
  rw [← same, Tag.render, List.append_assoc, List.append_assoc] at split
  obtain ⟨names, _⟩ := run_unique wellFormed.name.all isTarget.1.all own breaks split
  refine isTarget.2 ?_
  rw [← names, xml]
  decide

/-! Whole documents. -/

theorem leading_instruction {content : Content} {raw more : List Char} (wellFormed : content.WellFormed)
    (same : Kind.pi.opening ++ (raw ++ more) = (content.filter keep).render) :
    ∃ text inner rest, content = .markup text .pi inner rest ∧ text.filter keep = [] ∧
      raw ++ more = inner.filter keep ++ (Kind.pi.closing ++ (rest.filter keep).render) := by
  have plain : ∀ c ∈ content.text.filter keep, isPlain c = true :=
    fun c member => isPlain_iff.mpr (wellFormed.text.plain c (List.mem_of_mem_filter member))
  have none : ∀ c ∈ ([] : List Char), isPlain c = true := fun c member => by cases member
  have split := Content.render_append (content.filter keep) []
  rw [List.append_nil, ← same, Content.text_filter, ← List.nil_append (Kind.pi.opening ++ _)] at split
  have breaks : Breaks isPlain (Kind.pi.opening ++ (raw ++ more)) := breaks_cons (by decide)
  obtain ⟨no_text, follows⟩ := run_unique none plain breaks (Content.breaks_follow _ (Or.inl rfl)) split
  cases content with
  | done text => cases follows
  | markup text kind inner rest =>
    obtain ⟨kinds, follows⟩ := Kind.opening_unique follows
    subst kinds
    rw [List.append_nil] at follows
    exact ⟨text, inner, rest, rfl, no_text.symm, follows⟩
  | empty text tag rest =>
    have isName : IsName (tag.filter keep).name := wellFormed.2.1.name
    exact (opening_not_tag isName follows).elim
  | element text tag content after rest =>
    have isName : IsName (tag.filter keep).name := wellFormed.2.1.name
    exact (opening_not_tag isName follows).elim

theorem isStandalone_filter (spaces : Spaces keep) (raw : List Char) :
    isStandalone (raw.filter keep) = isStandalone raw := by
  have solid : ∀ c, (!isSpace c && keep c) = !isSpace c := by
    intro c
    cases space : isSpace c with
    | true => rfl
    | false => exact spaces c space
  simp only [isStandalone, List.filter_filter, solid]

/-- The XML declaration is still one, or has become an instruction. -/
def DeclSurvives (keep : Char → Bool) (decl : Option (List Char)) : Prop :=
  ∀ raw ∈ decl, IsXMLDecl (raw.filter keep) ∨ IsPI (raw.filter keep)

namespace Document

/-- An XML declaration that says yes to `standalone` does not become an instruction. -/
structure Undisturbed (keep : Char → Bool) (document : Document) : Prop where
  body : document.body.Undisturbed keep
  decl : ∀ raw ∈ document.decl, isStandalone raw = true → ¬ IsPI (raw.filter keep)

def Survives (keep : Char → Bool) (document : Document) : Prop :=
  DeclSurvives keep document.decl ∧ document.body.Survives keep

theorem Undisturbed.not_standalone {document : Document} (undisturbed : document.Undisturbed keep) {raw : List Char}
    (decl : document.decl = some raw) (isPI : IsPI (raw.filter keep)) : isStandalone raw = false := by
  by_contra standalone
  exact undisturbed.decl raw decl (by simpa using standalone) isPI

theorem render_filter (spaces : Spaces keep) (document : Document) :
    document.render.filter keep =
      renderDecl (document.decl.map (List.filter keep)) ++ (document.body.filter keep).render := by
  rw [render, List.filter_append, Content.render_filter spaces document.wellFormed]
  cases document.decl with
  | none => rfl
  | some raw =>
    simp only [renderDecl, Option.map_some, List.filter_append, spaces.filter_opening, spaces.filter_closing]

/-- A document that survives leaves a document that says the same. -/
theorem exists_left (spaces : Spaces keep) {document : Document} (undisturbed : document.Undisturbed keep)
    (survives : document.Survives keep) :
    ∃ left : Document, left.render = document.render.filter keep ∧ left.reading = document.reading := by
  obtain ⟨decl_survives, body_survives⟩ := survives
  have wellFormed := document.wellFormed.filter undisturbed.body body_survives
  have elements := (Content.elements_filter spaces document.wellFormed undisturbed.body).trans document.single
  have doctype := Content.doctype_filter undisturbed.body body_survives
  rw [render_filter spaces]
  cases decl : document.decl with
  | none =>
    exact ⟨⟨none, document.body.filter keep, document.root, fun _ member => (by cases member), wellFormed,
      document.topLevel.filter, elements⟩, rfl, by simp only [reading, doctype, decl]⟩
  | some raw =>
    cases decl_survives raw decl with
    | inl isDecl =>
      refine ⟨⟨some (raw.filter keep), document.body.filter keep, document.root, ?_, wellFormed,
        document.topLevel.filter, elements⟩, rfl, ?_⟩
      · intro other member
        cases member
        exact isDecl
      · simp only [reading, doctype, decl, Option.any_some, isStandalone_filter spaces]
    | inr isPI =>
      have declared := document.declared raw decl
      have legal : ∀ c ∈ raw.filter keep, isChar c = true :=
        fun c member => declared.legal c (List.mem_of_mem_filter member)
      have not_standalone := undisturbed.not_standalone decl isPI
      refine ⟨⟨none, .markup [] .pi (raw.filter keep) (document.body.filter keep), document.root,
        fun _ member => (by cases member),
        ⟨isCharData_nil, ⟨legal, declared.unclosed (List.filter_subset_self raw), isPI⟩, wellFormed⟩,
        ⟨fun _ member => (by cases member), Or.inr (Or.inl rfl), document.topLevel.filter⟩, elements⟩, ?_, ?_⟩
      · simp [render, renderDecl, Content.render]
      · have same : (Content.markup [] .pi (raw.filter keep) (document.body.filter keep)).doctype =
            document.body.doctype := doctype
        simp only [reading, same, decl, Option.any_some, Option.any_none, not_standalone]

/-- A document that does not survive leaves no document behind. -/
theorem survives_of_left (spaces : Spaces keep) {document left : Document} (undisturbed : document.Undisturbed keep)
    (same : document.render.filter keep = left.render) :
    document.Survives keep ∧ left.reading = document.reading := by
  have whole : ∀ {other : Content}, other.WellFormed → (document.body.filter keep).render = other.render →
      left.body.elements = other.elements → left.body.doctype = other.doctype →
      left.decl.any isStandalone = document.decl.any isStandalone →
      document.body.Survives keep ∧ left.reading = document.reading := by
    intro other wellFormed equal elements doctype standalone
    have more : (document.body.filter keep).render ++ [] = other.render ++ [] := by rw [equal]
    obtain ⟨survives, read, doctypes, _⟩ := Content.unique document.wellFormed undisturbed.body wellFormed (Or.inl rfl)
      (Or.inl rfl) more
    rw [left.single, read, Content.elements_filter spaces document.wellFormed undisturbed.body,
      document.single] at elements
    rw [doctypes, Content.doctype_filter undisturbed.body survives] at doctype
    have root : left.root = document.root := (List.cons_eq_cons.mp elements).1
    exact ⟨survives, by simp only [reading, standalone, doctype, root]⟩
  rw [render_filter spaces, render] at same
  cases decl : document.decl with
  | none =>
    cases left_decl : left.decl with
    | none =>
      rw [decl, left_decl] at same
      obtain ⟨survives, reading⟩ := whole left.wellFormed same rfl rfl (by rw [decl, left_decl])
      exact ⟨⟨fun raw member => (by rw [decl] at member; cases member), survives⟩, reading⟩
    | some raw =>
      -- An instruction would have become an XML declaration.
      rw [decl, left_decl] at same
      have declared := left.declared raw left_decl
      have begins : Kind.pi.opening ++ (raw ++ (Kind.pi.closing ++ left.body.render)) =
          (document.body.filter keep).render := by
        simpa [renderDecl] using same.symm
      obtain ⟨text, inner, rest, body, _, more⟩ := leading_instruction document.wellFormed begins
      have own := undisturbed.body
      rw [body] at own
      obtain ⟨equal, _⟩ := Kind.pi.closing_unique (declared.unclosed (List.Subset.refl raw)) own.1.1 more
      exact absurd (equal ▸ declared) (own.1.2.1 rfl)
  | some raw =>
    have declared := document.declared raw decl
    have unclosed : ¬ Kind.pi.closing <:+: raw.filter keep := declared.unclosed (List.filter_subset_self raw)
    cases left_decl : left.decl with
    | none =>
      rw [decl, left_decl] at same
      have begins : Kind.pi.opening ++ (raw.filter keep ++ (Kind.pi.closing ++ (document.body.filter keep).render)) =
          (left.body.filter fun _ => true).render := by
        rw [Content.filter_true]
        simpa [renderDecl] using same
      obtain ⟨text, inner, rest, body, _, more⟩ := leading_instruction left.wellFormed begins
      rw [List.filter_true, Content.filter_true] at more
      have wellFormed := left.wellFormed
      rw [body] at wellFormed
      obtain ⟨equal, bodies⟩ := Kind.pi.closing_unique unclosed wellFormed.2.1.unclosed more
      have isPI : IsPI (raw.filter keep) := equal ▸ wellFormed.2.1.form
      have not_standalone := undisturbed.not_standalone decl isPI
      obtain ⟨survives, reading⟩ := whole wellFormed.2.2 bodies (by rw [body]; rfl) (by rw [body]; rfl)
        (by rw [decl, left_decl, Option.any_some, Option.any_none, not_standalone])
      refine ⟨⟨fun own member => ?_, survives⟩, reading⟩
      rw [decl] at member
      cases member
      exact Or.inr isPI
    | some other =>
      rw [decl, left_decl] at same
      have other_declared := left.declared other left_decl
      have begins : Kind.pi.opening ++ (raw.filter keep ++ (Kind.pi.closing ++ (document.body.filter keep).render)) =
          Kind.pi.opening ++ (other ++ (Kind.pi.closing ++ left.body.render)) := by
        simpa [renderDecl] using same
      obtain ⟨equal, bodies⟩ := Kind.pi.closing_unique unclosed (other_declared.unclosed (List.Subset.refl other))
        (List.append_cancel_left begins)
      obtain ⟨survives, reading⟩ := whole left.wellFormed bodies rfl rfl
        (by rw [decl, left_decl, Option.any_some, Option.any_some, ← equal, isStandalone_filter spaces])
      refine ⟨⟨fun own member => ?_, survives⟩, reading⟩
      rw [decl] at member
      cases member
      exact Or.inl (equal ▸ other_declared)

theorem survives_iff (spaces : Spaces keep) {document : Document} (undisturbed : document.Undisturbed keep) :
    document.Survives keep ↔ ∃ left : Document, left.render = document.render.filter keep := by
  constructor
  · intro survives
    obtain ⟨left, same, _⟩ := exists_left spaces undisturbed survives
    exact ⟨left, same⟩
  · rintro ⟨left, same⟩
    exact (survives_of_left spaces undisturbed same.symm).1

/-- A document can be read in one way. -/
theorem render_unique {document other : Document} (same : document.render = other.render) :
    other.reading = document.reading := by
  have nothing_lost : Spaces fun _ => true := fun _ _ => rfl
  have tags : ∀ tag : Tag, tag.Undisturbed fun _ => true := fun tag attr _ => List.filter_true attr.value
  have undisturbed : ∀ content : Content, content.WellFormed → content.Undisturbed fun _ => true := by
    intro content wellFormed
    induction content with
    | done text => trivial
    | markup text kind raw rest ih =>
      obtain ⟨_, encloses, rest_wellFormed⟩ := wellFormed
      refine ⟨?_, ih rest_wellFormed⟩
      rw [List.filter_true]
      refine ⟨encloses.unclosed, fun pi => ?_, fun _ _ => by rw [List.filter_true]⟩
      subst pi
      exact IsPI.not_decl encloses.form
    | empty text tag rest ih => exact ⟨tags tag, ih wellFormed.2.2⟩
    | element text tag content after rest inner ih =>
      exact ⟨tags tag, inner wellFormed.2.2.1, ih wellFormed.2.2.2.2⟩
  have still : ∀ raw ∈ document.decl, isStandalone raw = true → ¬ IsPI (raw.filter fun _ => true) := by
    intro raw member _ isPI
    rw [List.filter_true] at isPI
    exact isPI.not_decl (document.declared raw member)
  refine (survives_of_left nothing_lost ⟨undisturbed document.body document.wellFormed, still⟩ ?_).2
  rw [List.filter_true]
  exact same

end Document

/-! Parsers. -/

/-- A parser follows the grammar: it accepts documents only, and what it makes of one depends on what
the document says. It may reject some, as those with an attribute twice, an undeclared prefix or an
undeclared entity. -/
structure Follows {α : Type*} (build : Reading → Option α) (parse : List Char → Option α) : Prop where
  accepts : ∀ document : Document, parse document.render = build document.reading
  rejects : ∀ text, (∀ document : Document, document.render ≠ text) → parse text = none

open Classical in
/-- The parser that looks for a document with these characters. -/
noncomputable def read {α : Type*} (build : Reading → Option α) (text : List Char) : Option α :=
  if found : ∃ document : Document, document.render = text then build found.choose.reading else none

theorem follows_read {α : Type*} (build : Reading → Option α) : Follows build (read build) where
  accepts := by
    intro document
    have found : ∃ other : Document, other.render = document.render := ⟨document, rfl⟩
    rw [read, dif_pos found, Document.render_unique found.choose_spec.symm]
  rejects := by
    intro text never
    exact dif_neg fun found => found.elim never

theorem Follows.of_isSome {α : Type*} {build : Reading → Option α} {parse : List Char → Option α}
    (follows : Follows build parse) {text : List Char} (accepted : parse text ≠ none) :
    ∃ document : Document, document.render = text := by
  by_contra never
  exact accepted (follows.rejects text fun document same => never ⟨document, same⟩)

end AdTerminal.Xml
