import Mathlib.Data.Fintype.Basic
import Mathlib.Data.List.AList

/-! The play strategy of the terminal: the files and the play intervals the server
announces, as `AdMediaInfo` holds them, and how they are read from the XML text. -/

namespace AdTerminal.Strategy

/-- A `HashMap` with distinct keys by construction. Its order is the order of iteration,
which Java leaves open. -/
abbrev HashMap (κ α : Type) := AList fun _ : κ => α

/-- A `HashSet` in the order of its iteration. -/
abbrev HashSet (κ : Type) := {keys : List κ // keys.Nodup}

def HashSet.empty {κ : Type} : HashSet κ := ⟨[], List.nodup_nil⟩

def HashSet.add {κ : Type} [DecidableEq κ] (set : HashSet κ) (key : κ) : HashSet κ :=
  ⟨set.1.insert key, set.2.insert⟩

/-- A Java reference to a `String`, which may be null. -/
abbrev Text := Option String

/-- What a reference contributes to a string concatenation. -/
def Text.shown (text : Text) : String := text.getD "null"

structure VideoAdInfo where
  id : Text
  filename : Text
  md5 : Text
  voice : Text
  b_day : Text
  e_day : Text
  elipse : Text
  deriving DecidableEq, Repr

structure ImageAdInfo where
  id : Text
  filename : Text
  md5 : Text
  b_day : Text
  e_day : Text
  elipse : Text
  deriving DecidableEq, Repr

structure OneVideoInterval where
  id : Text
  begin : Text
  end_ : Text
  prime_time : Text
  fileContainer : HashSet Text
  deriving DecidableEq

structure OneImageInterval where
  id : Text
  begin : Text
  end_ : Text
  prime_time : Text
  fileContainer : HashSet Text
  deriving DecidableEq

structure AdMediaInfo where
  videoContainer : HashMap Text VideoAdInfo := ∅
  imageContainer : HashMap Text ImageAdInfo := ∅
  videoIntervalContainer : HashMap Text OneVideoInterval := ∅
  imageIntervalContainer : HashMap Text OneImageInterval := ∅
  resolution : Text := none
  ver : Text := none
  templet : Text := none

/-- `AdMediaInfo.getSetDifference` on the key sets of two containers. -/
def getSetDifference (minuend subtrahend : List Text) : List Text :=
  minuend.filter fun key => key ∉ subtrahend

theorem mem_getSetDifference {minuend subtrahend : List Text} {key : Text} :
    key ∈ getSetDifference minuend subtrahend ↔ key ∈ minuend ∧ key ∉ subtrahend := by
  simp [getSetDifference]

/-- An element of a parsed document: its tag, its attributes and its child elements. -/
inductive Element where
  | node (name : String) (attributes : List (String × String)) (elements : List Element)

namespace Element

def name : Element → String
  | node name _ _ => name

def attributeValue : Element → String → Text
  | node _ attributes _, key => attributes.lookup key

def elements : Element → List Element
  | node _ _ elements => elements

/-- The first child element of that name, or null. -/
def element (parent : Element) (name : String) : Option Element :=
  parent.elements.find? fun child => child.name = name

end Element

/-- The exceptions of the modelled code that no handler around it catches. -/
inductive Thrown where
  | nullPointerException
  deriving DecidableEq, Repr

/-- Calling a method on a reference that may be null. -/
def dereference {α : Type} : Option α → Except Thrown α
  | none => .error .nullPointerException
  | some object => .ok object

def parseVideoFile (mediaFile : Element) : VideoAdInfo where
  id := mediaFile.attributeValue "id"
  filename := mediaFile.attributeValue "file"
  md5 := mediaFile.attributeValue "md5"
  voice := mediaFile.attributeValue "voice"
  b_day := mediaFile.attributeValue "b_day"
  e_day := mediaFile.attributeValue "e_day"
  elipse := mediaFile.attributeValue "elipse"

def parseImageFile (imageFile : Element) : ImageAdInfo where
  id := imageFile.attributeValue "id"
  filename := imageFile.attributeValue "file"
  md5 := imageFile.attributeValue "md5"
  b_day := imageFile.attributeValue "b_day"
  e_day := imageFile.attributeValue "e_day"
  elipse := imageFile.attributeValue "elipse"

def parseFileIds (interval : Element) : HashSet Text :=
  interval.elements.foldl (fun ids idElement => ids.add (idElement.attributeValue "file")) HashSet.empty

def parseVideoInterval (interval : Element) : OneVideoInterval where
  id := interval.attributeValue "ID"
  begin := interval.attributeValue "begin"
  end_ := interval.attributeValue "end"
  prime_time := interval.attributeValue "prime_time"
  fileContainer := parseFileIds interval

def parseImageInterval (interval : Element) : OneImageInterval where
  id := interval.attributeValue "ID"
  begin := interval.attributeValue "begin"
  end_ := interval.attributeValue "end"
  prime_time := interval.attributeValue "prime_time"
  fileContainer := parseFileIds interval

/-- The loops of `parseXml`: each child is read and put under its id, a later one
replacing an earlier one of the same id. -/
def collect {α : Type} (read : Element → α) (id : α → Text) (elements : List Element) : HashMap Text α :=
  elements.foldl (fun container child => container.insert (id (read child)) (read child)) ∅

/-- `AdMediaInfo.parseXml`, given the root element of the document. -/
def parseXml (root : Element) : Except Thrown AdMediaInfo := do
  let filesElement ← dereference (root.element "files")
  let mediaElement := filesElement.element "media"
  let pictureElement := filesElement.element "pic"
  let mediaFiles ← dereference mediaElement
  let imageFiles ← dereference pictureElement
  let videoInterval ← dereference (root.element "media_play")
  let imageInterval ← dereference (root.element "pic_play")
  pure {
    resolution := root.attributeValue "resolution"
    ver := root.attributeValue "ver"
    templet := root.attributeValue "templet"
    videoContainer := collect parseVideoFile VideoAdInfo.id mediaFiles.elements
    imageContainer := collect parseImageFile ImageAdInfo.id imageFiles.elements
    videoIntervalContainer := collect parseVideoInterval OneVideoInterval.id videoInterval.elements
    imageIntervalContainer := collect parseImageInterval OneImageInterval.id imageInterval.elements }

/-- `AdMediaInfo.parseXmlFromText`. `parseText` stands for dom4j's `DocumentHelper.parseText`:
the root element, or nothing when it throws `DocumentException`, for which the method
returns null. -/
def parseXmlFromText (parseText : String → Option Element) (xmlText : String) :
    Except Thrown (Option AdMediaInfo) :=
  match parseText xmlText with
  | none => .ok none
  | some root => (parseXml root).map some

/-- The two kinds of advertisements, handled alike by the update code. -/
inductive MediaKind where
  | video
  | image
  deriving DecidableEq, Repr

namespace MediaKind

instance : Fintype MediaKind := ⟨{video, image}, fun kind => by cases kind <;> decide⟩

theorem eq_of_ne {a b c : MediaKind} (left : a ≠ c) (right : b ≠ c) : a = b := by
  cases c with
  | video => cases a <;> cases b <;> first | rfl | contradiction
  | image => cases a <;> cases b <;> first | rfl | contradiction

abbrev Info : MediaKind → Type
  | video => VideoAdInfo
  | image => ImageAdInfo

def filename : (kind : MediaKind) → kind.Info → Text
  | video => VideoAdInfo.filename
  | image => ImageAdInfo.filename

end MediaKind

namespace AdMediaInfo

/-- `getVideoContainer` and `getImageContainer`. -/
def container (info : AdMediaInfo) : (kind : MediaKind) → HashMap Text kind.Info
  | .video => info.videoContainer
  | .image => info.imageContainer

/-- `setVideoContainer` and `setImageContainer`. -/
def setContainer (info : AdMediaInfo) : (kind : MediaKind) → HashMap Text kind.Info → AdMediaInfo
  | .video, videoContainer => { info with videoContainer }
  | .image, imageContainer => { info with imageContainer }

@[simp] theorem container_setContainer_self (info : AdMediaInfo) (kind : MediaKind)
    (entries : HashMap Text kind.Info) : (info.setContainer kind entries).container kind = entries := by
  cases kind <;> rfl

theorem container_setContainer_other (info : AdMediaInfo) {kind other : MediaKind}
    (different : other ≠ kind) (entries : HashMap Text kind.Info) :
    (info.setContainer kind entries).container other = info.container other := by
  cases kind <;> cases other <;> first | rfl | exact absurd rfl different

@[simp] theorem container_resolution (info : AdMediaInfo) (resolution : Text) (kind : MediaKind) :
    ({ info with resolution } : AdMediaInfo).container kind = info.container kind := by
  cases kind <;> rfl

/-- The ids a strategy lists for a kind, in the order `keySet` yields them. -/
def ids (info : AdMediaInfo) (kind : MediaKind) : List Text := (info.container kind).keys

/-- The file a listed id names, under the path all media share. -/
def file? (info : AdMediaInfo) (kind : MediaKind) (id : Text) : Option String :=
  ((info.container kind).lookup id).map fun entry => (kind.filename entry).shown

/-- Some id of that kind is listed with that file name. -/
def Names (info : AdMediaInfo) (kind : MediaKind) (file : String) : Prop :=
  ∃ id, info.file? kind id = some file

theorem mem_ids {info : AdMediaInfo} {kind : MediaKind} {id : Text} :
    id ∈ info.ids kind ↔ ∃ file, info.file? kind id = some file := by
  change id ∈ info.container kind ↔ _
  simp only [file?, ← AList.lookup_isSome, Option.isSome_iff_exists, Option.map_eq_some_iff]
  exact ⟨fun ⟨entry, found⟩ => ⟨_, entry, found, rfl⟩, fun ⟨_, entry, found, _⟩ => ⟨entry, found⟩⟩

instance (info : AdMediaInfo) (kind : MediaKind) (P : Text → String → Prop)
    [∀ id file, Decidable (P id file)] :
    Decidable (∀ id file, info.file? kind id = some file → P id file) :=
  decidable_of_iff (∀ id ∈ info.ids kind, ∀ file ∈ info.file? kind id, P id file)
    ⟨fun all id file found => all id (mem_ids.mpr ⟨file, found⟩) file found, fun all id _ file found => all id file found⟩

instance (info : AdMediaInfo) (kind : MediaKind) (P : String → Prop) [DecidablePred P] :
    Decidable (∀ file, info.Names kind file → P file) :=
  decidable_of_iff (∀ id file, info.file? kind id = some file → P file)
    ⟨fun all file named => named.elim fun id found => all id file found, fun all id file found => all file ⟨id, found⟩⟩

theorem file?_congr {first second : AdMediaInfo} {kind : MediaKind}
    (same : first.container kind = second.container kind) (id : Text) :
    first.file? kind id = second.file? kind id := by
  simp only [file?, same]

theorem names_congr {first second : AdMediaInfo} {kind : MediaKind}
    (same : first.container kind = second.container kind) (file : String) :
    first.Names kind file ↔ second.Names kind file := by
  simp only [Names, file?_congr same]

theorem ids_congr {first second : AdMediaInfo} {kind : MediaKind}
    (same : first.container kind = second.container kind) : first.ids kind = second.ids kind := by
  simp only [ids, same]

theorem file?_eq_none {info : AdMediaInfo} {kind : MediaKind} {id : Text} :
    info.file? kind id = none ↔ id ∉ info.ids kind := by
  rw [mem_ids, Option.eq_none_iff_forall_ne_some]
  exact not_exists.symm

end AdMediaInfo

end AdTerminal.Strategy
