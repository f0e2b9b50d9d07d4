import AdTerminal.Library.XmlSpaces
import AdTerminal.Strategy.AdMediaInfo

/-! The strategy as it is fetched. `NetUtil.getRequestTextFile` reads the response line by line and
hands the lines on as one text, without what ended them. -/

namespace AdTerminal.Strategy
open Xml (Document Reading Tree Follows)

def MALFORMED_URL : Int := 2
def IO_EXCEPTION : Int := 3
def QUEST_FileServer_SUCCESS : Int := 4

/-- The characters up to the end of the first line, and those after it. -/
def line : List Char → List Char × List Char
  | [] => ([], [])
  | '\n' :: rest => ([], rest)
  | '\r' :: '\n' :: rest => ([], rest)
  | '\r' :: rest => ([], rest)
  | c :: rest => (c :: (line rest).1, (line rest).2)

/-- `BufferedReader.readLine`, with nothing for null. -/
def readLine (stream : List Char) : Option (List Char × List Char) :=
  if stream = [] then none else some (line stream)

theorem line_length (stream : List Char) (more : stream ≠ []) : (line stream).2.length < stream.length := by
  fun_induction line stream with
  | case1 => exact absurd rfl more
  | case2 rest => exact Nat.lt_succ_self _
  | case3 rest => exact Nat.lt_succ_of_lt (Nat.lt_succ_self _)
  | case4 rest => exact Nat.lt_succ_self _
  | case5 c rest _ _ _ ih =>
    show (line rest).2.length < rest.length + 1
    cases rest with
    | nil => exact Nat.zero_lt_one
    | cons d rest => exact Nat.lt_succ_of_lt (ih (List.cons_ne_nil _ _))

theorem readLine_length {stream text rest : List Char} (read : readLine stream = some (text, rest)) :
    rest.length < stream.length := by
  by_cases none : stream = []
  · rw [readLine, if_pos none] at read
    cases read
  · rw [readLine, if_neg none, Option.some.injEq] at read
    have shorter := line_length stream none
    rw [read] at shorter
    exact shorter

/-- The loop of `getRequestTextFile`. -/
def readLines (buffer stream : List Char) : List Char :=
  match _read : readLine stream with
  | none => buffer
  | some (text, rest) => readLines (buffer ++ text) rest
termination_by stream.length
decreasing_by exact readLine_length _read

/-- What ends no line. -/
def notBreak (c : Char) : Bool := c != '\n' && c != '\r'

theorem spaces_notBreak : Xml.Spaces notBreak := by
  intro c other
  simp only [Xml.isSpace, Bool.or_eq_false_iff, decide_eq_false_iff_not] at other
  simp [notBreak, other]

theorem filter_line (stream : List Char) :
    (line stream).1 ++ (line stream).2.filter notBreak = stream.filter notBreak := by
  fun_induction line stream with
  | case1 => rfl
  | case2 rest => rfl
  | case3 rest => rfl
  | case4 rest => rfl
  | case5 c rest newline _ carriage ih =>
    have kept : notBreak c = true := by simp_all [notBreak]
    rw [List.filter_cons_of_pos kept, ← ih]
    rfl

/-- The lines, one after the other, are the text without its line breaks. -/
theorem readLines_eq (buffer stream : List Char) : readLines buffer stream = buffer ++ stream.filter notBreak := by
  fun_induction readLines buffer stream with
  | case1 buffer stream read =>
    have none : stream = [] := by
      by_contra more
      rw [readLine, if_neg more] at read
      cases read
    rw [none, List.filter_nil, List.append_nil]
  | case2 buffer stream text rest read ih =>
    have more : stream ≠ [] := fun none => by rw [readLine, if_pos none] at read; cases read
    rw [readLine, if_neg more, Option.some.injEq] at read
    have split := filter_line stream
    rw [read] at split
    rw [ih, List.append_assoc, split]

/-- What comes of the request: an exception, or a response with its body read as GBK. -/
inductive Response where
  | malformedURLException
  | ioException
  | received (code : Int) (body : String)
  deriving DecidableEq, Repr

structure Message where
  what : Int
  obj : Text
  deriving DecidableEq, Repr

/-- `NetUtil.getRequestTextFile`, and the message the handler gets, if any. -/
def getRequestTextFile (handlerCode : Int) : Response → Option Message
  | .malformedURLException => some ⟨MALFORMED_URL, none⟩
  | .ioException => some ⟨IO_EXCEPTION, none⟩
  | .received code body =>
    if code = 200 then some ⟨handlerCode, some (String.ofList (readLines [] body.toList))⟩ else none

/-- `mMediaStrategyUpdateHandler`, as far as the text is parsed. -/
def mMediaStrategyUpdateHandler (parseText : String → Option Element) (msg : Message) :
    Option (Except Thrown (Option AdMediaInfo)) :=
  if msg.what = QUEST_FileServer_SUCCESS then msg.obj.map (parseXmlFromText parseText) else none

theorem handled_eq (parseText : String → Option Element) (body : String) :
    (getRequestTextFile QUEST_FileServer_SUCCESS (.received 200 body)).bind (mMediaStrategyUpdateHandler parseText) =
      some (parseXmlFromText parseText (String.ofList (body.toList.filter notBreak))) := by
  have lines := readLines_eq [] body.toList
  rw [List.nil_append] at lines
  show some (parseXmlFromText parseText (String.ofList (readLines [] body.toList))) = _
  rw [lines]

theorem parseXmlFromText_ne_null {parseText : String → Option Element} {xmlText : String} {root : Element}
    (parsed : parseText xmlText = some root) : parseXmlFromText parseText xmlText ≠ .ok none := by
  rw [parseXmlFromText, parsed]
  show (parseXml root).map some ≠ .ok none
  cases parseXml root with
  | error thrown => exact fun same => by cases same
  | ok info => exact fun same => by cases same

/-- A strategy is parsed from the fetched text as from the body itself exactly if, without its line
breaks, everything that the grammar asks for is still there. -/
theorem fetched_same_iff {build : Reading → Option Element} {parseText : String → Option Element}
    (follows : Follows build fun text => parseText (String.ofList text)) {body : Document}
    (accepted : build body.reading ≠ none) (undisturbed : body.Undisturbed notBreak) :
    (getRequestTextFile QUEST_FileServer_SUCCESS (.received 200 (String.ofList body.render))).bind
        (mMediaStrategyUpdateHandler parseText) = some (parseXmlFromText parseText (String.ofList body.render)) ↔
      body.Survives notBreak := by
  rw [handled_eq, String.toList_ofList, Option.some.injEq]
  have parsed : parseText (String.ofList body.render) = build body.reading := follows.accepts body
  constructor
  · intro same
    obtain ⟨root, built⟩ := Option.ne_none_iff_exists'.mp accepted
    have proper := parseXmlFromText_ne_null (parsed.trans built)
    rw [← same] at proper
    have read : parseText (String.ofList (body.render.filter notBreak)) ≠ none := by
      intro null
      exact proper (by rw [parseXmlFromText, null])
    exact (Document.survives_iff spaces_notBreak undisturbed).mpr (follows.of_isSome read)
  · intro survives
    obtain ⟨left, same, reading⟩ := Document.exists_left spaces_notBreak undisturbed survives
    have read : parseText (String.ofList left.render) = build left.reading := follows.accepts left
    rw [same, reading] at read
    rw [parseXmlFromText, parseXmlFromText, read, parsed]

/-! A strategy without files, with a document type declaration or none, and with the white space
before the only attribute left open. -/

def sampleTag (name : String) (attributes : List Xml.Attribute) : Xml.Tag := ⟨name.toList, attributes, []⟩

def sampleRoot (before : List Char) : Xml.Content :=
  .element [] (sampleTag "ad" [⟨before, "ver".toList, [], [], '"', ['1']⟩])
    (.element [] (sampleTag "files" [])
      (.empty [] (sampleTag "media" []) (.empty [] (sampleTag "pic" []) (.done []))) []
      (.empty [] (sampleTag "media_play" []) (.empty [] (sampleTag "pic_play" []) (.done [])))) [] (.done [])

def sampleBody (before : List Char) : Option (List Char) → Xml.Content
  | none => sampleRoot before
  | some doctype => .markup [] .doctype doctype (sampleRoot before)

theorem sampleTag_wellFormed {name : String} (isName : Xml.IsName name.toList) : (sampleTag name []).WellFormed where
  name := isName
  attributes := fun _ member => by cases member
  after := fun _ member => by cases member

theorem sampleAttribute_wellFormed {before : List Char} (white : Xml.White before) (apart : before ≠ []) :
    (⟨before, "ver".toList, [], [], '"', ['1']⟩ : Xml.Attribute).WellFormed where
  before := white
  apart := apart
  name := by
    show Xml.IsName "ver".toList
    decide
  beforeEq := fun _ member => by cases member
  afterEq := fun _ member => by cases member
  quote := Or.inl rfl
  value := .char '1' [] (by decide) (by decide) .nil
  inside := by
    show '"' ∉ ['1']
    decide

theorem sampleRoot_wellFormed {before : List Char} (white : Xml.White before) (apart : before ≠ []) :
    (sampleRoot before).WellFormed := by
  have nil := Xml.isCharData_nil
  have name : Xml.IsName "ad".toList := by decide
  have ad : (sampleTag "ad" [⟨before, "ver".toList, [], [], '"', ['1']⟩]).WellFormed :=
    ⟨name, fun attr member => List.mem_singleton.mp member ▸ sampleAttribute_wellFormed white apart,
      fun _ member => by cases member⟩
  have none : Xml.White [] := fun _ member => by cases member
  exact ⟨nil, ad, ⟨nil, sampleTag_wellFormed (by decide), ⟨nil, sampleTag_wellFormed (by decide),
    nil, sampleTag_wellFormed (by decide), nil⟩, none, nil, sampleTag_wellFormed (by decide),
    nil, sampleTag_wellFormed (by decide), nil⟩, none, nil⟩

def sample (before : List Char) (white : Xml.White before) (apart : before ≠ []) (doctype : Option (List Char))
    (encloses : ∀ raw ∈ doctype, Xml.Kind.doctype.Encloses raw) : Document where
  decl := none
  body := sampleBody before doctype
  root := .node "ad".toList [("ver".toList, ['1'])] [.node "files".toList [] [.node "media".toList [] [],
    .node "pic".toList [] []], .node "media_play".toList [] [], .node "pic_play".toList [] []]
  declared := fun _ member => by cases member
  wellFormed := by
    cases doctype with
    | none => exact sampleRoot_wellFormed white apart
    | some raw => exact ⟨Xml.isCharData_nil, encloses raw rfl, sampleRoot_wellFormed white apart⟩
  topLevel := by
    have none : Xml.White [] := fun _ member => by cases member
    have root : ∀ mayDeclare, (sampleRoot before).IsTopLevel mayDeclare := fun _ => ⟨none, ⟨trivial, trivial⟩, none⟩
    cases doctype with
    | none => exact root true
    | some raw => exact ⟨none, Or.inr (Or.inr ⟨rfl, rfl⟩), root _⟩
  single := by
    cases doctype with
    | none => rfl
    | some raw => rfl

mutual
/-- What dom4j builds for elements without prefixes, references and defaults. -/
def plainElement : Tree → List Element
  | .node name attributes children => [.node (String.ofList name)
      (attributes.map fun pair => (String.ofList pair.1, String.ofList pair.2)) (plainElements children)]
  | .reference _ => []

def plainElements : List Tree → List Element
  | [] => []
  | tree :: trees => plainElement tree ++ plainElements trees
end

def plainBuild (reading : Reading) : Option Element := (plainElement reading.root).head?

noncomputable def sampleParseText (xmlText : String) : Option Element := Xml.read plainBuild xmlText.toList

theorem follows_sample : Follows plainBuild fun text => sampleParseText (String.ofList text) := by
  have same : (fun text => sampleParseText (String.ofList text)) = Xml.read plainBuild := by
    funext text
    rw [sampleParseText, String.toList_ofList]
  rw [same]
  exact Xml.follows_read _

theorem sample_undisturbed {before : List Char} (white : Xml.White before) (apart : before ≠ [])
    {doctype : Option (List Char)} (encloses : ∀ raw ∈ doctype, Xml.Kind.doctype.Encloses raw)
    (shut : ∀ raw ∈ doctype, Xml.Closed (raw.filter notBreak) ∧ Xml.declared (raw.filter notBreak) = Xml.declared raw) :
    (sample before white apart doctype encloses).Undisturbed notBreak := by
  have tags : ∀ name, (sampleTag name []).Undisturbed notBreak := fun _ _ member => by cases member
  have ad : (sampleTag "ad" [⟨before, "ver".toList, [], [], '"', ['1']⟩]).Undisturbed notBreak := by
    intro attr member
    rw [List.mem_singleton.mp member]
    rfl
  have root : (sampleRoot before).Undisturbed notBreak :=
    ⟨ad, ⟨tags _, ⟨tags _, tags _, trivial⟩, tags _, tags _, trivial⟩, trivial⟩
  refine ⟨?_, fun _ member => by cases member⟩
  cases doctype with
  | none => exact root
  | some raw =>
    obtain ⟨closed, same⟩ := shut raw rfl
    exact ⟨⟨closed, fun pi => (by cases pi), fun _ _ => same⟩, root⟩

/-- `<!DOCTYPE ad>` with some other white space. -/
theorem bareDoctype {space : List Char} (isSpace : space ∈ Xml.S) : space ++ "ad".toList ∈ Xml.doctypedecl := by
  have name : "ad".toList ∈ Xml.Name := by
    show Xml.IsName "ad".toList
    decide
  have nothing : ∀ l : Language Char, [] ∈ Xml.opt l := fun l => (Language.mem_add 1 l []).mpr (Or.inl rfl)
  have whole : (((space ++ "ad".toList) ++ []) ++ []) ++ [] ∈ Xml.doctypedecl :=
    Language.append_mem_mul (Language.append_mem_mul (Language.append_mem_mul (Language.append_mem_mul isSpace name)
      (nothing (Xml.S * Xml.ExternalID))) (nothing Xml.S))
      (nothing (Xml.word "[" * Xml.intSubset * Xml.word "]" * Xml.opt Xml.S))
  rw [List.append_nil, List.append_nil, List.append_nil] at whole
  exact whole

theorem bareDoctype_encloses {space : List Char} (isSpace : space ∈ Xml.S) :
    ∀ raw ∈ some (space ++ "ad".toList), Xml.Kind.doctype.Encloses raw := by
  intro raw member
  cases member
  refine Xml.encloses_doctype (fun c inside => ?_) (bareDoctype isSpace)
  cases List.mem_append.mp inside with
  | inl white => simp [Xml.isChar, isSpace.1 c white]
  | inr name => exact List.all_eq_true.mp (by decide : "ad".toList.all Xml.isChar = true) c name

theorem line_space : ['\n'] ∈ Xml.S ∧ ['\n', ' '] ∈ Xml.S := ⟨⟨by decide, by decide⟩, by decide, by decide⟩

/-- A strategy with all its white space where a space may stand beside the line break. -/
def indented : Document :=
  sample ['\n', ' '] (by decide) (by decide) (some (['\n', ' '] ++ "ad".toList)) (bareDoctype_encloses line_space.2)

/-- A space beside the line break keeps the attribute apart from the name of its element, and the
name in the document type declaration apart from its keyword. -/
theorem indented_same :
    (getRequestTextFile QUEST_FileServer_SUCCESS (.received 200 (String.ofList indented.render))).bind
      (mMediaStrategyUpdateHandler sampleParseText) =
      some (parseXmlFromText sampleParseText (String.ofList indented.render)) := by
  have undisturbed : indented.Undisturbed notBreak :=
    sample_undisturbed _ _ _ fun raw member => by
      cases member
      exact ⟨by decide, by decide⟩
  refine (fetched_same_iff follows_sample (fun none => by cases none) undisturbed).mpr
    ⟨fun _ member => (by cases member), ?_⟩
  have doctype : (['\n', ' '] ++ "ad".toList).filter notBreak ∈ Xml.doctypedecl :=
    bareDoctype ⟨(by decide : Xml.White [' ']), by decide⟩
  have tags : ∀ name, (sampleTag name []).Apart notBreak := fun _ _ member => by cases member
  have ad : (sampleTag "ad" [⟨['\n', ' '], "ver".toList, [], [], '"', ['1']⟩]).Apart notBreak := by
    intro attr member
    rw [List.mem_singleton.mp member]
    decide
  have text : ¬ [']', ']', '>'] <:+: ([] : List Char).filter notBreak := by decide
  exact ⟨text, doctype, text, ad, ⟨text, tags _, ⟨text, tags _, text, tags _, text⟩, text, tags _, text, tags _, text⟩,
    text⟩

theorem fetched_null {body : Document} (undisturbed : body.Undisturbed notBreak) (lost : ¬ body.Survives notBreak) :
    (getRequestTextFile QUEST_FileServer_SUCCESS (.received 200 (String.ofList body.render))).bind
      (mMediaStrategyUpdateHandler sampleParseText) = some (.ok none) := by
  have null : sampleParseText (String.ofList (body.render.filter notBreak)) = none := by
    by_contra accepted
    exact lost ((Document.survives_iff spaces_notBreak undisturbed).mpr (follows_sample.of_isSome accepted))
  rw [handled_eq, String.toList_ofList, parseXmlFromText, null]

/-- With a line break alone before it, the attribute becomes part of the name of its element, and the
name in a document type declaration part of its keyword: no strategy is parsed. -/
theorem joined_not_same :
    ((getRequestTextFile QUEST_FileServer_SUCCESS (.received 200
          "<ad\nver=\"1\"><files><media/><pic/></files><media_play/><pic_play/></ad>")).bind
        (mMediaStrategyUpdateHandler sampleParseText) = some (.ok none) ∧
      ∃ info, parseXmlFromText sampleParseText
        "<ad\nver=\"1\"><files><media/><pic/></files><media_play/><pic_play/></ad>" = .ok (some info) ∧
        info.ver = some "1") ∧
    (getRequestTextFile QUEST_FileServer_SUCCESS (.received 200
          "<!DOCTYPE\nad><ad ver=\"1\"><files><media/><pic/></files><media_play/><pic_play/></ad>")).bind
        (mMediaStrategyUpdateHandler sampleParseText) = some (.ok none) ∧
      ∃ info, parseXmlFromText sampleParseText
        "<!DOCTYPE\nad><ad ver=\"1\"><files><media/><pic/></files><media_play/><pic_play/></ad>" = .ok (some info) ∧
        info.ver = some "1" := by
  have bare : ∀ raw ∈ (none : Option (List Char)), Xml.Kind.doctype.Encloses raw := fun _ member => by cases member
  have joined : "<ad\nver=\"1\"><files><media/><pic/></files><media_play/><pic_play/></ad>" =
      String.ofList (sample ['\n'] (by decide) (by decide) none bare).render := rfl
  have keyword : "<!DOCTYPE\nad><ad ver=\"1\"><files><media/><pic/></files><media_play/><pic_play/></ad>" =
      String.ofList (sample [' '] (by decide) (by decide) _ (bareDoctype_encloses line_space.1)).render := rfl
  rw [joined, keyword]
  refine ⟨⟨fetched_null ?_ ?_, ?_⟩, fetched_null ?_ ?_, ?_⟩
  · exact sample_undisturbed _ _ bare fun _ member => by cases member
  · exact fun survives => survives.2.2.1 _ (List.mem_singleton_self _) rfl
  · have read := follows_sample.accepts (sample ['\n'] (by decide) (by decide) none bare)
    rw [parseXmlFromText, read]
    exact ⟨_, rfl, rfl⟩
  · refine sample_undisturbed _ _ _ fun raw member => ?_
    cases member
    exact ⟨by decide, by decide⟩
  · intro survives
    exact absurd (Xml.isSpace_of_doctypedecl survives.2.2.1) (by decide)
  · have read := follows_sample.accepts (sample [' '] (by decide) (by decide) _ (bareDoctype_encloses line_space.1))
    rw [parseXmlFromText, read]
    exact ⟨_, rfl, rfl⟩

end AdTerminal.Strategy
