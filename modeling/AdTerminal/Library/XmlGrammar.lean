import AdTerminal.Library.XmlDoctype

/-! XML documents as written: the grammar of XML 1.0. A document is a tree that keeps every character,
white space included; `render` gives the characters and `reading` what is left when white space, text,
comments and the like are forgotten. -/

namespace AdTerminal.Xml

/-- `S Attribute`. -/
structure Attribute where
  before : List Char
  name : List Char
  beforeEq : List Char
  afterEq : List Char
  quote : Char
  value : List Char

structure Attribute.WellFormed (attr : Attribute) : Prop where
  before : White attr.before
  apart : attr.before ≠ []
  name : IsName attr.name
  beforeEq : White attr.beforeEq
  afterEq : White attr.afterEq
  quote : attr.quote = '"' ∨ attr.quote = '\''
  value : IsAttValue attr.value
  inside : attr.quote ∉ attr.value

def Attribute.render (attr : Attribute) : List Char :=
  attr.before ++ (attr.name ++ (attr.beforeEq ++ '=' :: (attr.afterEq ++
    attr.quote :: (attr.value ++ [attr.quote]))))

/-- `Name (S Attribute)* S?`, of a start tag or the tag of an empty element. -/
structure Tag where
  name : List Char
  attributes : List Attribute
  after : List Char

structure Tag.WellFormed (tag : Tag) : Prop where
  name : IsName tag.name
  attributes : ∀ attr ∈ tag.attributes, attr.WellFormed
  after : White tag.after

def Tag.render (tag : Tag) : List Char := tag.name ++ (tag.attributes.flatMap Attribute.render ++ tag.after)

def IsVersionNum (value : List Char) : Prop :=
  ∃ digits, value = '1' :: '.' :: digits ∧ digits ≠ [] ∧ ∀ c ∈ digits, isDigit c = true

def IsEncName : List Char → Prop
  | [] => False
  | first :: rest => isLetter first = true ∧ ∀ c ∈ rest, isLetter c = true ∨ isDigit c = true ∨ c ∈ ['.', '_', '-']

def Attribute.IsVersionInfo (attr : Attribute) : Prop :=
  attr.name = "version".toList ∧ IsVersionNum attr.value

def Attribute.IsEncodingDecl (attr : Attribute) : Prop :=
  attr.name = "encoding".toList ∧ IsEncName attr.value

def Attribute.IsSDDecl (attr : Attribute) : Prop :=
  attr.name = "standalone".toList ∧ attr.value ∈ ["yes".toList, "no".toList]

/-- `VersionInfo EncodingDecl? SDDecl?`. -/
inductive IsDeclaration : List Attribute → Prop
  | version (version : Attribute) (info : version.IsVersionInfo) : IsDeclaration [version]
  | encoding (version encoding : Attribute) (info : version.IsVersionInfo) (decl : encoding.IsEncodingDecl) :
      IsDeclaration [version, encoding]
  | standalone (version standalone : Attribute) (info : version.IsVersionInfo) (decl : standalone.IsSDDecl) :
      IsDeclaration [version, standalone]
  | both (version encoding standalone : Attribute) (info : version.IsVersionInfo) (decl : encoding.IsEncodingDecl)
      (alone : standalone.IsSDDecl) : IsDeclaration [version, encoding, standalone]

/-- `XMLDecl` between `<?` and `?>`. -/
def IsXMLDecl (raw : List Char) : Prop :=
  ∃ tag : Tag, tag.WellFormed ∧ tag.name = "xml".toList ∧ IsDeclaration tag.attributes ∧ tag.render = raw

/-- Whether `SDDecl` says yes. Without white space it is written in two ways, and no other part of an
XML declaration has an equals sign behind this name. -/
def isStandalone (raw : List Char) : Bool :=
  ['"', '\''].any fun quote =>
    decide ("standalone=".toList ++ quote :: ("yes".toList ++ [quote]) <:+: raw.filter fun c => !isSpace c)

/-- The markup that is no element. -/
inductive Kind where
  | comment
  | cdata
  | pi
  | reference
  | doctype
  deriving DecidableEq

def Kind.opening : Kind → List Char
  | comment => ['<', '!', '-', '-']
  | cdata => ['<', '!', '[', 'C', 'D', 'A', 'T', 'A', '[']
  | pi => ['<', '?']
  | reference => ['&']
  | doctype => ['<', '!', 'D', 'O', 'C', 'T', 'Y', 'P', 'E']

def Kind.closing : Kind → List Char
  | comment => ['-', '-', '>']
  | cdata => [']', ']', '>']
  | pi => ['?', '>']
  | reference => [';']
  | doctype => ['>']

/-- What the grammar asks of the characters between opening and closing, the closing not being one
of them. -/
def Kind.Form : Kind → List Char → Prop
  | comment, raw => IsComment raw
  | cdata, _ => True
  | pi, raw => IsPI raw
  | reference, raw => IsReference raw
  | doctype, raw => raw ∈ doctypedecl

/-- The closing does not come before the end. -/
def Kind.Unclosed : Kind → List Char → Prop
  | doctype, raw => Closed raw
  | kind, raw => ¬ kind.closing <:+: raw

structure Kind.Encloses (kind : Kind) (raw : List Char) : Prop where
  legal : ∀ c ∈ raw, isChar c = true
  unclosed : kind.Unclosed raw
  form : kind.Form raw

theorem encloses_doctype {raw : List Char} (legal : ∀ c ∈ raw, isChar c = true) (isDoctype : raw ∈ doctypedecl) :
    Kind.doctype.Encloses raw := ⟨legal, closed_of_doctypedecl isDoctype, isDoctype⟩

/-- `CharData?`. -/
structure IsCharData (text : List Char) : Prop where
  legal : ∀ c ∈ text, isChar c = true
  plain : ∀ c ∈ text, c ≠ '<' ∧ c ≠ '&'
  form : ¬ [']', ']', '>'] <:+: text

/-- `content`: each markup with the text before it, and the text after the last one. -/
inductive Content where
  | done (text : List Char)
  | markup (text : List Char) (kind : Kind) (raw : List Char) (rest : Content)
  | empty (text : List Char) (tag : Tag) (rest : Content)
  /-- The end tag repeats the name. -/
  | element (text : List Char) (tag : Tag) (content : Content) (after : List Char) (rest : Content)

def Content.WellFormed : Content → Prop
  | done text => IsCharData text
  | markup text kind raw rest => IsCharData text ∧ kind.Encloses raw ∧ rest.WellFormed
  | empty text tag rest => IsCharData text ∧ tag.WellFormed ∧ rest.WellFormed
  | element text tag content after rest =>
    IsCharData text ∧ tag.WellFormed ∧ content.WellFormed ∧ White after ∧ rest.WellFormed

def Content.render : Content → List Char
  | done text => text
  | markup text kind raw rest => text ++ (kind.opening ++ (raw ++ (kind.closing ++ rest.render)))
  | empty text tag rest => text ++ '<' :: (tag.render ++ '/' :: '>' :: rest.render)
  | element text tag content after rest =>
    text ++ '<' :: (tag.render ++ '>' :: (content.render ++ '<' :: '/' :: (tag.name ++ (after ++ '>' :: rest.render))))

/-- No document type declaration. -/
def Content.IsInner : Content → Prop
  | done _ => True
  | markup _ kind _ rest => kind ≠ .doctype ∧ rest.IsInner
  | empty _ _ rest => rest.IsInner
  | element _ _ content _ rest => content.IsInner ∧ rest.IsInner

/-- Outside the root element there is only white space, comments and processing instructions, and
before it at most one document type declaration. -/
def Content.IsTopLevel (mayDeclare : Bool) : Content → Prop
  | done text => White text
  | markup text kind _ rest =>
    White text ∧ (kind = .comment ∨ kind = .pi ∨ kind = .doctype ∧ mayDeclare = true) ∧
      rest.IsTopLevel (mayDeclare && kind != .doctype)
  | empty text _ rest => White text ∧ rest.IsTopLevel false
  | element text _ content _ rest => White text ∧ content.IsInner ∧ rest.IsTopLevel false

/-- An element with its attributes, their values as they are written, and what it contains but text. -/
inductive Tree where
  | node (name : List Char) (attributes : List (List Char × List Char)) (children : List Tree)
  | reference (raw : List Char)

def Tag.pairs (tag : Tag) : List (List Char × List Char) :=
  tag.attributes.map fun attr => (attr.name, attr.value)

def Content.elements : Content → List Tree
  | done _ => []
  | markup _ kind raw rest => if kind = .reference then .reference raw :: rest.elements else rest.elements
  | empty _ tag rest => .node tag.name tag.pairs [] :: rest.elements
  | element _ tag content _ rest => .node tag.name tag.pairs content.elements :: rest.elements

/-- What the first document type declaration says. -/
def Content.doctype : Content → Option (List Char)
  | done _ => none
  | markup _ kind raw rest => if kind = .doctype then some (declared raw) else rest.doctype
  | empty _ _ rest => rest.doctype
  | element _ _ _ _ rest => rest.doctype

/-- `document`. The XML declaration, if there is one, is what stands between its `<?` and `?>`. -/
structure Document where
  decl : Option (List Char)
  body : Content
  root : Tree
  declared : ∀ raw ∈ decl, IsXMLDecl raw
  wellFormed : body.WellFormed
  topLevel : body.IsTopLevel true
  single : body.elements = [root]

def renderDecl : Option (List Char) → List Char
  | none => []
  | some raw => Kind.pi.opening ++ (raw ++ Kind.pi.closing)

def Document.render (document : Document) : List Char := renderDecl document.decl ++ document.body.render

/-- What a document says, text apart. -/
structure Reading where
  standalone : Bool
  doctype : Option (List Char)
  root : Tree

def Document.reading (document : Document) : Reading where
  standalone := document.decl.any isStandalone
  doctype := document.body.doctype
  root := document.root

end AdTerminal.Xml
