import AdTerminal.Library.JavaString
import AdTerminal.Library.Regex
import AdTerminal.Strategy.AdMediaInfo

/-! Looking for media files in a directory. `FileDirMgr.scanSpecificFolder` takes a name apart by
a regular expression, and `LocalMediaFile.scanFile` looks for an extension at its end. -/

namespace AdTerminal.Strategy.MediaScan
open JavaString

/-- An entry of a directory; an empty directory is one that can be deleted. -/
inductive Kind where
  | file
  | directory (empty : Bool)
  deriving DecidableEq, Repr

structure Entry where
  name : JavaString
  kind : Kind
  deriving DecidableEq, Repr

/-- A directory, whose entries have different names. -/
structure Folder where
  entries : List Entry
  distinct : (entries.map Entry.name).Nodup

/-- What there is at a path. -/
inductive Node where
  | missing
  | file
  | folder (folder : Folder)

abbrev Storage := JavaString → Node

/-- `java.io.File`, of a name in a directory. -/
structure File where
  folder : JavaString
  name : JavaString
  deriving DecidableEq, Repr

/-- Slashes at the end of the path of a directory are dropped. -/
def File.getAbsolutePath (file : File) : JavaString := file.folder.rdropWhile (· = 0x2F) ++ 0x2F :: file.name

inductive Thrown where
  | illegalStateException
  | nullPointerException
  deriving DecidableEq, Repr

def dot : Nat := 0x2E

namespace FileDirMgr

def VIDEO : Int := 0
def IMAGE : Int := 1
def CAMERA : Int := 2

def VIDEO_EXTENSION : List JavaString := ["mp4", "avi", "rmvb", "mkv", "mpeg"].map ofString
def IMAGE_EXTENSION : List JavaString := ["jpg", "png", "jpeg"].map ofString

/-- The pattern `([^\.]*)\.([^\.]*)`. -/
def PATTERN : Regex Nat :=
  .seq (.group 1 (.many fun c => c ≠ dot)) (.seq (.one fun c => c = dot) (.group 2 (.many fun c => c ≠ dot)))

/-- `matcher.matches()`, and then `matcher.group(2)`, which throws if nothing has matched. -/
def fileExtension (name : JavaString) : Except Thrown JavaString :=
  match (Regex.wholeMatch PATTERN name).bind fun groups => groups.lookup 2 with
  | none => .error .illegalStateException
  | some extension => .ok extension

/-- The loop over the entries, with the entries it leaves. An exception ends it there. -/
def scanEntries (folder : JavaString) (extensionSet : List JavaString) :
    List Entry → Except Thrown (List File) × List Entry
  | [] => (.ok [], [])
  | entry :: rest =>
    let scanned := scanEntries folder extensionSet rest
    match entry.kind with
    | .directory empty => (scanned.1, if empty then scanned.2 else entry :: scanned.2)
    | .file =>
      match fileExtension entry.name with
      | .error e => (.error e, entry :: rest)
      | .ok fileExtension =>
        let equal := extensionSet.any fun extension => fileExtension = extension
        (scanned.1.map fun files => if equal then ⟨folder, entry.name⟩ :: files else files, entry :: scanned.2)

theorem scanEntries_left (folder : JavaString) (extensionSet : List JavaString) (entries : List Entry) :
    (scanEntries folder extensionSet entries).2.Sublist entries := by
  induction entries with
  | nil => exact .slnil
  | cons entry rest ih =>
    unfold scanEntries
    cases entry.kind with
    | directory empty =>
      cases empty with
      | true => exact ih.cons entry
      | false => exact ih.cons_cons entry
    | file =>
      cases fileExtension entry.name with
      | error e => exact .refl _
      | ok extension => exact ih.cons_cons entry

end FileDirMgr

/-- The directories of a terminal. -/
structure FileDirMgr where
  mCameraStoragePath : JavaString
  mImageStoragePath : JavaString

namespace FileDirMgr

/-- The path to scan, null for `CAMERA`, and what to look for. -/
def scanned (mgr : FileDirMgr) (mediaType : Int) : Option (JavaString × List JavaString) :=
  if mediaType = VIDEO then some (mgr.mCameraStoragePath, VIDEO_EXTENSION)
  else if mediaType = IMAGE then some (mgr.mImageStoragePath, IMAGE_EXTENSION)
  else if mediaType = CAMERA then none
  else some (mgr.mCameraStoragePath, VIDEO_EXTENSION)

/-- Null for a path that is no directory. -/
def scanSpecificFolder (mgr : FileDirMgr) (mediaType : Int) (storage : Storage) :
    Except Thrown (Option (List File)) × Storage :=
  match mgr.scanned mediaType with
  | none => (.error .nullPointerException, storage)
  | some (path, extensionSet) =>
    match storage path with
    | .missing | .file => (.ok none, storage)
    | .folder folder =>
      let scanned := scanEntries path extensionSet folder.entries
      have distinct := ((scanEntries_left path extensionSet folder.entries).map Entry.name).nodup folder.distinct
      (scanned.1.map some, Function.update storage path (.folder ⟨scanned.2, distinct⟩))

end FileDirMgr

namespace LocalMediaFile

/-- Case folding, as far as it leads to an ASCII letter or leaves one as it is: the capital letters,
the Kelvin sign and the long s. -/
def foldCase (c : Nat) : Nat :=
  if 0x41 ≤ c ∧ c ≤ 0x5A then c + 0x20 else if c = 0x212A then 0x6B else if c = 0x17F then 0x73 else c

def lineTerminators : List JavaString := [[0x0A], [0x0D, 0x0A], [0x0D], [0x85], [0x2028], [0x2029]]

/-- `$` stands at the end or before a line terminator there. Between a carriage return and a line
feed it does not stand, but no extension ends with a carriage return. -/
def endOfInput (rest : JavaString) : Bool := rest = [] ∨ lineTerminators.any fun terminator => rest = terminator

/-- The words of the regular expression. -/
def words : MediaKind → List JavaString
  | .video => ["mp4", "avi", "rmvb", "mkv", "mpeg"].map ofString
  | .image => ["jpg", "png", "jpeg"].map ofString

/-- The pattern `\.(…)$` for the words of a type, with `CASE_INSENSITIVE` and `UNICODE_CASE`. -/
def regPatten (type : MediaKind) : Regex Nat :=
  .seq (.one fun c => foldCase c = dot)
    (.seq (.group 1 (.anyOf ((words type).map (Regex.word foldCase)))) (.ahead endOfInput))

/-- A directory that does not exist is passed over; the listing of a file is null. -/
def scanFile (type : MediaKind) (storage : Storage) (paths : List JavaString) : Except Thrown (List JavaString) := do
  let results ← paths.mapM fun path =>
    match storage path with
    | .missing => .ok []
    | .file => .error Thrown.nullPointerException
    | .folder folder =>
      .ok ((folder.entries.filter fun entry => (regPatten type).find entry.name ∧ entry.kind = .file).map
        fun entry => (File.mk path entry.name).getAbsolutePath)
  pure results.flatten

end LocalMediaFile

/-- The text after the last dot of a name. -/
def AfterLastDot (name extension : JavaString) : Prop := ∃ base, name = base ++ dot :: extension ∧ dot ∉ extension

def OneDot (name : JavaString) : Prop := name.count dot = 1

variable {name extension folder : JavaString} {extensionSet : List JavaString} {entries : List Entry}

theorem AfterLastDot.unique {other : JavaString} (first : AfterLastDot name extension)
    (second : AfterLastDot name other) : extension = other := by
  have read : ∀ {extension}, AfterLastDot name extension → name.rtakeWhile (· ≠ dot) = extension := by
    intro extension after
    obtain ⟨base, rfl, free⟩ := after
    have all : ∀ c ∈ extension.reverse, decide (c ≠ dot) = true := by
      intro c member
      simpa using fun same : c = dot => free (same ▸ List.mem_reverse.mp member)
    rw [List.rtakeWhile, List.reverse_append, List.reverse_cons, List.append_assoc, List.takeWhile_append_of_pos all]
    simp
  exact (read first).symm.trans (read second)

theorem oneDot_iff :
    OneDot name ↔ ∃ base extension, dot ∉ base ∧ dot ∉ extension ∧ name = base ++ dot :: extension := by
  unfold OneDot
  constructor
  · intro one
    obtain ⟨base, extension, rfl⟩ := List.append_of_mem (List.count_pos_iff.mp (one ▸ Nat.one_pos))
    rw [List.count_append, List.count_cons_self] at one
    exact ⟨base, extension, List.count_eq_zero.mp (by omega), List.count_eq_zero.mp (by omega), rfl⟩
  · intro split
    obtain ⟨base, extension, before, after, rfl⟩ := split
    rw [List.count_append, List.count_cons_self, List.count_eq_zero.mpr before, List.count_eq_zero.mpr after]

theorem ways_PATTERN {groups : Regex.Groups Nat} : (groups, []) ∈ Regex.ways FileDirMgr.PATTERN name ↔
    ∃ base extension, dot ∉ base ∧ dot ∉ extension ∧ name = base ++ dot :: extension ∧
      groups = [(1, base), (2, extension)] := by
  unfold FileDirMgr.PATTERN
  simp only [Regex.mem_ways_seq, Regex.mem_ways_group, Regex.mem_ways_many, Regex.mem_ways_one, decide_eq_true_eq,
    ne_eq, List.forall_mem_ne']
  constructor
  · intro way
    obtain ⟨_, middle, _, ⟨_, ⟨rfl, base, rfl, before⟩, rfl⟩, ⟨_, _, _, ⟨rfl, c, rfl, rfl⟩,
      ⟨_, ⟨rfl, extension, rfl, after⟩, rfl⟩, rfl⟩, rfl⟩ := way
    exact ⟨base, extension, before, after, by simp, by simp⟩
  · intro split
    obtain ⟨base, extension, before, after, rfl, rfl⟩ := split
    refine ⟨[(1, base)], dot :: extension, [(2, extension)], ⟨[], ⟨rfl, base, rfl, before⟩, by simp⟩, ?_, rfl⟩
    exact ⟨[], extension, [(2, extension)], ⟨rfl, dot, rfl, rfl⟩, ⟨[], ⟨rfl, extension, by simp, after⟩, by simp⟩, rfl⟩

/-- A name with one dot is taken apart there. -/
theorem fileExtension_ok (one : OneDot name) :
    ∃ extension, FileDirMgr.fileExtension name = .ok extension ∧ AfterLastDot name extension := by
  obtain ⟨base, extension, before, after, split⟩ := oneDot_iff.mp one
  have some := Regex.wholeMatch_isSome.mpr ⟨_, ways_PATTERN.mpr ⟨base, extension, before, after, split, rfl⟩⟩
  obtain ⟨groups, found⟩ := Option.isSome_iff_exists.mp some
  obtain ⟨base', extension', -, after', split', same⟩ := ways_PATTERN.mp (Regex.mem_of_wholeMatch found)
  refine ⟨extension', ?_, base', split', after'⟩
  rw [FileDirMgr.fileExtension, found, same]
  rfl

/-- Any other name makes `group` throw. -/
theorem oneDot_of_fileExtension (read : FileDirMgr.fileExtension name = .ok extension) : OneDot name := by
  unfold FileDirMgr.fileExtension at read
  cases found : Regex.wholeMatch FileDirMgr.PATTERN name with
  | none =>
    rw [found] at read
    cases read
  | some groups =>
    obtain ⟨base, extension, before, after, split, -⟩ := ways_PATTERN.mp (Regex.mem_of_wholeMatch found)
    exact oneDot_iff.mpr ⟨base, extension, before, after, split⟩

example : FileDirMgr.fileExtension (ofString "a.old.mp4") = .error .illegalStateException := rfl

/-- An entry that is no directory, with one of the extensions after its last dot. -/
def Selected (extensionSet : List JavaString) (entry : Entry) : Prop :=
  entry.kind = .file ∧ ∃ extension ∈ extensionSet, AfterLastDot entry.name extension

/-- If every file has one dot in its name, the loop returns those with an extension of the set. -/
theorem scanEntries_ok (ones : ∀ entry ∈ entries, entry.kind = .file → OneDot entry.name) :
    ∃ files, (FileDirMgr.scanEntries folder extensionSet entries).1 = .ok files ∧
      files.Sublist (entries.map fun entry => ⟨folder, entry.name⟩) ∧
      ∀ file, file ∈ files ↔ ∃ entry ∈ entries, Selected extensionSet entry ∧ file = ⟨folder, entry.name⟩ := by
  induction entries with
  | nil => exact ⟨[], rfl, .slnil, by simp⟩
  | cons entry rest ih =>
    obtain ⟨files, scanned, sublist, members⟩ := ih fun entry member => ones entry (List.mem_cons_of_mem _ member)
    have either : ∀ file, (∃ other ∈ entry :: rest, Selected extensionSet other ∧ file = ⟨folder, other.name⟩) ↔
        (Selected extensionSet entry ∧ file = ⟨folder, entry.name⟩) ∨ file ∈ files := by
      intro file
      rw [members file]
      simp only [List.mem_cons, or_and_right, exists_or, exists_eq_left]
    have unselected : ¬ Selected extensionSet entry → ∀ file, file ∈ files ↔
        ∃ other ∈ entry :: rest, Selected extensionSet other ∧ file = ⟨folder, other.name⟩ := by
      intro not file
      rw [either]
      exact (or_iff_right fun first => not first.1).symm
    unfold FileDirMgr.scanEntries
    cases kind : entry.kind with
    | directory empty =>
      exact ⟨files, scanned, sublist.cons _, unselected fun selected => nomatch kind.symm.trans selected.1⟩
    | file =>
      obtain ⟨extension, read, after⟩ := fileExtension_ok (ones entry List.mem_cons_self kind)
      dsimp only
      rw [read, scanned]
      by_cases listed : extension ∈ extensionSet
      · refine ⟨⟨folder, entry.name⟩ :: files, by simp [Except.map, listed], sublist.cons_cons _, fun file => ?_⟩
        rw [List.mem_cons, either]
        exact or_congr_left (and_iff_right ⟨kind, extension, listed, after⟩).symm
      · refine ⟨files, by simp [Except.map, listed], sublist.cons _, unselected fun selected => ?_⟩
        obtain ⟨other, member, other'⟩ := selected.2
        exact listed (after.unique other' ▸ member)

theorem oneDot_of_scanEntries {files : List File}
    (returned : (FileDirMgr.scanEntries folder extensionSet entries).1 = .ok files) :
    ∀ entry ∈ entries, entry.kind = .file → OneDot entry.name := by
  induction entries generalizing files with
  | nil => exact fun entry member => absurd member List.not_mem_nil
  | cons entry rest ih =>
    unfold FileDirMgr.scanEntries at returned
    cases kind : entry.kind with
    | directory empty =>
      rw [kind] at returned
      exact List.forall_mem_cons.mpr ⟨fun other => (nomatch kind.symm.trans other), ih returned⟩
    | file =>
      rw [kind] at returned
      cases read : FileDirMgr.fileExtension entry.name with
      | error e =>
        simp only [read] at returned
        cases returned
      | ok extension =>
        simp only [read] at returned
        cases scanned : (FileDirMgr.scanEntries folder extensionSet rest).1 with
        | error e =>
          rw [scanned] at returned
          cases returned
        | ok files => exact List.forall_mem_cons.mpr ⟨fun _ => oneDot_of_fileExtension read, ih scanned⟩

namespace LocalMediaFile

theorem endOfInput_iff {rest : JavaString} : endOfInput rest ↔ rest = [] ∨ rest ∈ lineTerminators := by
  simp [endOfInput]

theorem foldCase_eq_dot {c : Nat} : foldCase c = dot ↔ c = dot := by
  unfold foldCase dot
  split_ifs <;> omega

/-- What the pattern finds: a dot, a word in any case, and the end of the name. -/
theorem find_regPatten {type : MediaKind} : (regPatten type).find name ↔ ∃ base taken rest,
    name = base ++ dot :: (taken ++ rest) ∧ taken.map foldCase ∈ words type ∧ endOfInput rest := by
  rw [Regex.find_iff]
  unfold regPatten
  constructor
  · intro found
    obtain ⟨base, middle, rfl, ⟨groups, left⟩, way⟩ := found
    simp only [Regex.mem_ways_seq, Regex.mem_ways_group, Regex.mem_ways_one, Regex.mem_ways_ahead,
      Regex.mem_ways_anyOf, decide_eq_true_eq] at way
    obtain ⟨_, _, _, ⟨-, c, rfl, point⟩, ⟨_, rest, _, ⟨_, ⟨pattern, member, word⟩, -⟩, ⟨-, -, ends⟩, -⟩, -⟩ := way
    obtain ⟨w, listed, rfl⟩ := List.mem_map.mp member
    obtain ⟨-, taken, rfl, folded⟩ := Regex.mem_ways_word.mp word
    exact ⟨base, taken, rest, by rw [foldCase_eq_dot.mp point], folded ▸ listed, ends⟩
  · intro split
    obtain ⟨base, taken, rest, rfl, listed, ends⟩ := split
    have word : ([], rest) ∈ Regex.ways (Regex.anyOf ((words type).map (Regex.word foldCase))) (taken ++ rest) :=
      Regex.mem_ways_anyOf.mpr ⟨_, List.mem_map_of_mem listed, Regex.mem_ways_word.mpr ⟨rfl, taken, rfl, rfl⟩⟩
    have grouped := (@Regex.mem_ways_group _ _ _ _ _ 1).mpr ⟨[], word, rfl⟩
    have ended := Regex.mem_ways_seq.mpr ⟨_, rest, [], grouped, Regex.mem_ways_ahead.mpr ⟨rfl, rfl, ends⟩, rfl⟩
    have point : ([], taken ++ rest) ∈ Regex.ways (.one fun c => foldCase c = dot) (dot :: (taken ++ rest)) :=
      Regex.mem_ways_one.mpr ⟨rfl, dot, rfl, decide_eq_true (foldCase_eq_dot.mpr rfl)⟩
    exact ⟨base, _, rfl, _, Regex.mem_ways_seq.mpr ⟨[], _, _, point, ended, rfl⟩⟩

theorem mem_scanFile {type : MediaKind} {storage : Storage} {path : JavaString} {content : Folder}
    (listed : storage path = .folder content) : ∃ found, scanFile type storage [path] = .ok found ∧
      ∀ name, (File.mk path name).getAbsolutePath ∈ found ↔
        ∃ entry ∈ content.entries, ((regPatten type).find entry.name ∧ entry.kind = .file) ∧ entry.name = name := by
  refine ⟨_, by rw [scanFile, List.mapM_cons, listed]; rfl, fun name => ?_⟩
  have same : ∀ other, (File.mk path other).getAbsolutePath = (File.mk path name).getAbsolutePath ↔ other = name := by
    intro other
    simp [File.getAbsolutePath]
  simp [same, and_assoc]

end LocalMediaFile

/-- The number for a type of media. -/
def mediaType : MediaKind → Int
  | .video => FileDirMgr.VIDEO
  | .image => FileDirMgr.IMAGE

def extensions : MediaKind → List JavaString
  | .video => FileDirMgr.VIDEO_EXTENSION
  | .image => FileDirMgr.IMAGE_EXTENSION

/-- The directory that is scanned for a type of media. -/
def FileDirMgr.path (mgr : FileDirMgr) : MediaKind → JavaString
  | .video => mgr.mCameraStoragePath
  | .image => mgr.mImageStoragePath

/-- The scan returns the media files, each once, and where the extension is lower case those that
`LocalMediaFile` finds in that directory. -/
structure ScansRight (mgr : FileDirMgr) (storage : Storage) (type : MediaKind) (content : Folder) : Prop where
  exact : ∃ files, (mgr.scanSpecificFolder (mediaType type) storage).1 = .ok (some files) ∧ files.Nodup ∧
    ∀ file, file ∈ files ↔
      ∃ entry ∈ content.entries, Selected (extensions type) entry ∧ file = ⟨mgr.path type, entry.name⟩
  agrees : ∀ files found, (mgr.scanSpecificFolder (mediaType type) storage).1 = .ok (some files) →
    LocalMediaFile.scanFile type storage [mgr.path type] = .ok found → ∀ entry ∈ content.entries,
      (∀ extension, AfterLastDot entry.name extension → extension.map LocalMediaFile.foldCase = extension) →
        (⟨mgr.path type, entry.name⟩ ∈ files ↔ (File.mk (mgr.path type) entry.name).getAbsolutePath ∈ found)

/-- The text after the last dot is an extension and a line terminator. -/
def EndsLine (type : MediaKind) (name : JavaString) : Prop :=
  ∃ extension ∈ extensions type, ∃ terminator ∈ LocalMediaFile.lineTerminators,
    AfterLastDot name (extension ++ terminator)

section
variable {mgr : FileDirMgr} {storage : Storage} {type : MediaKind} {content : Folder}

theorem words_eq (type : MediaKind) : LocalMediaFile.words type = extensions type := by
  cases type <;> rfl

theorem folded_extension : ∀ extension ∈ extensions type, extension.map LocalMediaFile.foldCase = extension := by
  cases type <;> decide

theorem folded_terminator : ∀ terminator ∈ LocalMediaFile.lineTerminators,
    terminator.map LocalMediaFile.foldCase = terminator := by
  decide

theorem extension_ne_terminated : ∀ extension ∈ extensions type, ∀ other ∈ extensions type,
    ∀ terminator ∈ LocalMediaFile.lineTerminators, extension ≠ other ++ terminator := by
  cases type <;> decide

theorem EndsLine.folded (ends : EndsLine type name) :
    ∀ extension, AfterLastDot name extension → extension.map LocalMediaFile.foldCase = extension := by
  obtain ⟨extension, listed, terminator, isTerminator, after⟩ := ends
  intro other after'
  rw [← after.unique after', List.map_append, folded_extension extension listed,
    folded_terminator terminator isTerminator]

theorem EndsLine.find (ends : EndsLine type name) : (LocalMediaFile.regPatten type).find name := by
  obtain ⟨extension, listed, terminator, isTerminator, base, split, -⟩ := ends
  have ended := LocalMediaFile.endOfInput_iff.mpr (.inr isTerminator)
  refine LocalMediaFile.find_regPatten.mpr ⟨base, extension, terminator, split, ?_, ended⟩
  rw [folded_extension extension listed, words_eq]
  exact listed

theorem EndsLine.not_selected (ends : EndsLine type name) :
    ¬ ∃ extension ∈ extensions type, AfterLastDot name extension := by
  obtain ⟨extension, listed, terminator, isTerminator, after⟩ := ends
  intro selected
  obtain ⟨other, listed', after'⟩ := selected
  exact extension_ne_terminated other listed' extension listed terminator isTerminator (after'.unique after)

theorem scanSpecificFolder_listed (listed : storage (mgr.path type) = .folder content) :
    (mgr.scanSpecificFolder (mediaType type) storage).1 =
      (FileDirMgr.scanEntries (mgr.path type) (extensions type) content.entries).1.map some := by
  have scanned : mgr.scanned (mediaType type) = some (mgr.path type, extensions type) := by
    cases type <;> rfl
  unfold FileDirMgr.scanSpecificFolder
  simp only [scanned, listed]

/-- A scan that returns has met files with one dot only. -/
theorem oneDot_of_returned (listed : storage (mgr.path type) = .folder content) {files : List File}
    (returned : (mgr.scanSpecificFolder (mediaType type) storage).1 = .ok (some files)) :
    ∀ entry ∈ content.entries, entry.kind = .file → OneDot entry.name := by
  rw [scanSpecificFolder_listed listed] at returned
  cases scanned : (FileDirMgr.scanEntries (mgr.path type) (extensions type) content.entries).1 with
  | error e =>
    rw [scanned] at returned
    cases returned
  | ok files => exact oneDot_of_scanEntries scanned

theorem exact_of_oneDot (listed : storage (mgr.path type) = .folder content)
    (ones : ∀ entry ∈ content.entries, entry.kind = .file → OneDot entry.name) :
    ∃ files, (mgr.scanSpecificFolder (mediaType type) storage).1 = .ok (some files) ∧ files.Nodup ∧
      ∀ file, file ∈ files ↔
        ∃ entry ∈ content.entries, Selected (extensions type) entry ∧ file = ⟨mgr.path type, entry.name⟩ := by
  obtain ⟨files, scanned, sublist, members⟩ := scanEntries_ok ones
  refine ⟨files, by rw [scanSpecificFolder_listed listed, scanned]; rfl, sublist.nodup ?_, members⟩
  have injective : Function.Injective (File.mk (mgr.path type)) := fun _ _ same => congrArg File.name same
  have distinct := content.distinct.map injective
  rwa [List.map_map] at distinct

/-- A name whose extension is lower case is found exactly when it is selected, unless it ends in a
line terminator. -/
theorem find_iff_selected (one : OneDot name) (ends : ¬ EndsLine type name)
    (lower : ∀ extension, AfterLastDot name extension → extension.map LocalMediaFile.foldCase = extension) :
    (LocalMediaFile.regPatten type).find name ↔ ∃ extension ∈ extensions type, AfterLastDot name extension := by
  rw [LocalMediaFile.find_regPatten, words_eq]
  constructor
  · intro found
    obtain ⟨base, taken, rest, split, listed, end_⟩ := found
    have free : dot ∉ taken ++ rest := by
      rw [OneDot, split, List.count_append, List.count_cons_self] at one
      exact List.count_eq_zero.mp (by omega)
    have after : AfterLastDot name (taken ++ rest) := ⟨base, split, free⟩
    have folded : taken.map LocalMediaFile.foldCase = taken := by
      have whole := lower _ after
      rw [List.map_append] at whole
      exact (List.append_inj whole (List.length_map _)).1
    rw [folded] at listed
    rcases LocalMediaFile.endOfInput_iff.mp end_ with rfl | terminated
    · exact ⟨taken, listed, List.append_nil taken ▸ after⟩
    · exact absurd ⟨taken, listed, rest, terminated, after⟩ ends
  · intro selected
    obtain ⟨extension, listed, base, split, -⟩ := selected
    refine ⟨base, extension, [], by rw [List.append_nil]; exact split, ?_, rfl⟩
    rw [folded_extension extension listed]
    exact listed

/-- For every listing and either type: the scan returns without throwing the media files and no
others, and agrees with `LocalMediaFile` on lower case, if and only if every entry that is no
directory has exactly one dot in its name and does not end in an extension and a line terminator. -/
theorem scansRight_iff (listed : storage (mgr.path type) = .folder content) : ScansRight mgr storage type content ↔
    ∀ entry ∈ content.entries, entry.kind = .file → OneDot entry.name ∧ ¬ EndsLine type entry.name := by
  obtain ⟨found, scanned, foundNames⟩ := @LocalMediaFile.mem_scanFile type storage _ content listed
  constructor
  · intro right entry member file
    obtain ⟨files, returned, -, members⟩ := right.exact
    refine ⟨oneDot_of_returned listed returned entry member file, fun ends => ?_⟩
    -- the terminator keeps this scan from selecting the name, but not the other from finding it
    have both := (right.agrees files found returned scanned entry member ends.folded).mpr
      ((foundNames _).mpr ⟨entry, member, ⟨ends.find, file⟩, rfl⟩)
    obtain ⟨other, -, selected, same⟩ := (members _).mp both
    have name : entry.name = other.name := congrArg File.name same
    exact (name ▸ ends).not_selected selected.2
  · intro clean
    have exact := exact_of_oneDot listed fun entry member file => (clean entry member file).1
    refine ⟨exact, fun files found' returned scanned' entry member lower => ?_⟩
    obtain ⟨files', returned', -, members⟩ := exact
    cases returned.symm.trans returned'
    cases scanned.symm.trans scanned'
    rw [members, foundNames]
    constructor
    · intro selected
      obtain ⟨other, member', selected, same⟩ := selected
      have name : entry.name = other.name := congrArg File.name same
      obtain ⟨one, ends⟩ := clean other member' selected.1
      exact ⟨other, member', ⟨(find_iff_selected one ends (name ▸ lower)).mpr selected.2, selected.1⟩, name.symm⟩
    · intro found
      obtain ⟨other, member', ⟨finds, file⟩, name⟩ := found
      obtain ⟨one, ends⟩ := clean other member' file
      exact ⟨other, member', ⟨file, (find_iff_selected one ends (name ▸ lower)).mp finds⟩, by rw [name]⟩

end

def sdcard : FileDirMgr := ⟨ofString "/sdcard/Camera/", ofString "/sdcard/Ad_Image/"⟩

/-- A video and a file without a dot. -/
def withReadme : Folder where
  entries := [⟨ofString "a.mp4", .file⟩, ⟨ofString "readme", .file⟩]
  distinct := by decide

/-- Reading the group of a match that was not made throws. -/
theorem readme_throws : ¬ ScansRight sdcard (fun _ => .folder withReadme) .video withReadme := by
  intro right
  obtain ⟨files, returned, -⟩ := right.exact
  have one := oneDot_of_returned rfl returned ⟨ofString "readme", .file⟩ (by decide) rfl
  exact absurd one (by unfold OneDot; decide)

/-- A video, a text and an empty directory. -/
def withText : Folder where
  entries := [⟨ofString "a.mp4", .file⟩, ⟨ofString "b.txt", .file⟩, ⟨ofString "old.d", .directory true⟩]
  distinct := by decide

theorem text_scanned : ScansRight sdcard (fun _ => .folder withText) .video withText := by
  have ends : ∀ base extension, dot ∉ extension →
      (∀ other ∈ extensions .video, ∀ terminator ∈ LocalMediaFile.lineTerminators, extension ≠ other ++ terminator) →
        ¬ EndsLine .video (base ++ dot :: extension) := by
    intro base extension free different ends
    obtain ⟨other, listed, terminator, isTerminator, after⟩ := ends
    exact different other listed terminator isTerminator (AfterLastDot.unique ⟨base, rfl, free⟩ after)
  apply (scansRight_iff rfl).mpr
  intro entry member file
  simp only [withText, List.mem_cons, List.not_mem_nil, or_false] at member
  rcases member with rfl | rfl | rfl
  · exact ⟨by unfold OneDot; decide, ends (ofString "a") (ofString "mp4") (by decide) (by decide)⟩
  · exact ⟨by unfold OneDot; decide, ends (ofString "b") (ofString "txt") (by decide) (by decide)⟩
  · cases file

end AdTerminal.Strategy.MediaScan
