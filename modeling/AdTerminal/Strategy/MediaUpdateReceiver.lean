import AdTerminal.Library.FilePath
import AdTerminal.Library.Transition
import AdTerminal.Strategy.AdMediaInfo
import Mathlib.Data.Finset.Basic

/-! The update of the play strategy. Each poll that brings a strategy text creates a
`MediaUpdateReceiver`, which diffs the text against the strategy in force, starts the
missing downloads and switches `MediaStrategyMgr` over when the last of them is reported. -/

namespace AdTerminal.Strategy
open Transition FilePath

/-- What the code below takes from outside: the server's base URL, the path all media
share, which `FileDirMgr` ends with a slash, and dom4j's parser. -/
structure Terminal where
  fileServer : String
  mediaPath : String
  parseText : String → Option Element
  trailing : ∃ directory, mediaPath = directory ++ "/"

/-- The file that a name of a strategy leads to. Two names may lead to one file. -/
def Terminal.place (terminal : Terminal) (name : String) : Place := resolve (terminal.mediaPath ++ name)

/-- A name that is appended to the media path leads to where `File(path, name)` does. -/
theorem Terminal.place_eq (terminal : Terminal) (name : String) :
    terminal.place name = resolve (join terminal.mediaPath name) := by
  obtain ⟨directory, slash⟩ := terminal.trailing
  rw [Terminal.place, slash]
  exact resolve_slash directory name

namespace AdMediaInfo

/-- The file of a listed id. -/
def place? (info : AdMediaInfo) (terminal : Terminal) (kind : MediaKind) (id : Text) : Option Place :=
  (info.file? kind id).map terminal.place

/-- Some id of that kind is listed with a name that leads to the file. -/
def LeadsTo (info : AdMediaInfo) (terminal : Terminal) (kind : MediaKind) (file : Place) : Prop :=
  ∃ id, info.place? terminal kind id = some file

variable {terminal : Terminal} {info first second : AdMediaInfo} {kind : MediaKind}

theorem mem_ids_place (terminal : Terminal) {id : Text} :
    id ∈ info.ids kind ↔ ∃ file, info.place? terminal kind id = some file := by
  simp only [mem_ids, place?, Option.map_eq_some_iff]
  exact ⟨fun ⟨name, found⟩ => ⟨_, name, found, rfl⟩, fun ⟨_, name, found, _⟩ => ⟨name, found⟩⟩

theorem place?_eq_none {id : Text} : info.place? terminal kind id = none ↔ id ∉ info.ids kind := by
  rw [place?, Option.map_eq_none_iff, file?_eq_none]

theorem place?_congr (same : first.container kind = second.container kind) (id : Text) :
    first.place? terminal kind id = second.place? terminal kind id := by
  rw [place?, place?, file?_congr same]

theorem leadsTo_congr (same : first.container kind = second.container kind) (file : Place) :
    first.LeadsTo terminal kind file ↔ second.LeadsTo terminal kind file := by
  simp only [LeadsTo, place?_congr same]

instance (file : Place) : Decidable (info.LeadsTo terminal kind file) :=
  decidable_of_iff (file ∈ (info.ids kind).filterMap (info.place? terminal kind)) (by
    simp only [List.mem_filterMap, LeadsTo]
    exact ⟨fun ⟨id, _, found⟩ => ⟨id, found⟩,
      fun ⟨id, found⟩ => ⟨id, (mem_ids_place terminal).mpr ⟨file, found⟩, found⟩⟩)

instance (P : Text → Place → Prop) [∀ id file, Decidable (P id file)] :
    Decidable (∀ id file, info.place? terminal kind id = some file → P id file) :=
  decidable_of_iff (∀ id ∈ info.ids kind, ∀ file ∈ info.place? terminal kind id, P id file)
    ⟨fun all id file found => all id ((mem_ids_place terminal).mpr ⟨file, found⟩) file found,
      fun all id _ file found => all id file found⟩

instance (P : Place → Prop) [DecidablePred P] : Decidable (∀ file, info.LeadsTo terminal kind file → P file) :=
  decidable_of_iff (∀ id file, info.place? terminal kind id = some file → P file)
    ⟨fun all file named => named.elim fun id found => all id file found, fun all id file found => all file ⟨id, found⟩⟩

instance (P : Text → Prop) [DecidablePred P] (file : Place) :
    Decidable (∃ id, P id ∧ info.place? terminal kind id = some file) :=
  decidable_of_iff (∃ id ∈ info.ids kind, P id ∧ info.place? terminal kind id = some file)
    ⟨fun ⟨id, _, both⟩ => ⟨id, both⟩, fun ⟨id, both⟩ => ⟨id, (mem_ids_place terminal).mpr ⟨file, both.2⟩, both⟩⟩

end AdMediaInfo

/-- One call of `startDownload`. -/
structure Download where
  id : Text
  url : String
  filePath : String
  fileName : Text
  deriving DecidableEq, Repr

/-- The file the download writes. -/
def Download.file (download : Download) : Place := resolve (join download.filePath (Text.shown download.fileName))

/-- What a receiver keeps for one kind of media, and the state of the downloads it
started: first under way, then complete on disk with `onDownloadFinished` still to come. -/
structure Batch where
  downloadSet : List Text
  deleteSet : List Text
  totalTaskNum : Nat
  finishedNum : Nat
  transferring : List Download
  arrived : List Download
  deriving DecidableEq, Repr

/-- `oldMediaInfo` is not kept: it is an alias of the manager's `adMediaInfo`, whatever that
holds by the time a callback reads it. `against` is history: whose containers `process`
computed the diff against. -/
structure MediaUpdateReceiver where
  newMediaInfo : AdMediaInfo
  batch : MediaKind → Batch
  against : MediaKind → Nat

/-- The terminal as the update code sees it. `owner` tells apart the container objects
`adMediaInfo` may hold: 0 for those it was created with, `i + 1` for those of receiver `i`.
`saving` is the text whose handler has run `process` but not yet stored it, and `files`
are those that are complete on disk. -/
structure World where
  adMediaInfo : Option AdMediaInfo
  owner : MediaKind → Nat := fun _ => 0
  xmlText : Option String
  files : Finset Place
  receivers : List MediaUpdateReceiver := []
  saving : Option String := none
  crashed : Bool := false

def startDownload (terminal : Terminal) (newMedia : AdMediaInfo) (kind : MediaKind) (id : Text) : Download :=
  let resName : Text := ((newMedia.container kind).lookup id).bind kind.filename
  { id, url := terminal.fileServer ++ Text.shown resName, filePath := terminal.mediaPath, fileName := resName }

/-- `process`, for one kind of media. -/
def process (terminal : Terminal) (oldMedia newMedia : AdMediaInfo) (kind : MediaKind) : Batch :=
  let downloadSet := getSetDifference (newMedia.ids kind) (oldMedia.ids kind)
  { downloadSet
    deleteSet := getSetDifference (oldMedia.ids kind) (newMedia.ids kind)
    totalTaskNum := downloadSet.length
    finishedNum := 0
    transferring := downloadSet.map (startDownload terminal newMedia kind)
    arrived := [] }

/-- The delete loop. An id the container does not hold yields null, and reading its
`filename` throws; the files deleted before that stay deleted. -/
def deleteFiles (terminal : Terminal) (info : AdMediaInfo) (kind : MediaKind) :
    List Text → Finset Place → Finset Place × Bool
  | [], files => (files, false)
  | id :: rest, files =>
    match info.place? terminal kind id with
    | none => (files, true)
    | some file => deleteFiles terminal info kind rest (files.erase file)

namespace Batch

def transferred (batch : Batch) (n : Nat) (download : Download) : Batch :=
  { batch with transferring := batch.transferring.eraseIdx n, arrived := batch.arrived ++ [download] }

def reported (batch : Batch) (n : Nat) : Batch :=
  { batch with finishedNum := batch.finishedNum + 1, arrived := batch.arrived.eraseIdx n }

/-- The last completion has been counted. -/
def Finished (batch : Batch) : Prop := 0 < batch.totalTaskNum ∧ batch.totalTaskNum ≤ batch.finishedNum

/-- No download of the batch is under way or waits to be reported. -/
def Settled (batch : Batch) : Prop := batch.transferring = [] ∧ batch.arrived = []

instance (batch : Batch) : Decidable batch.Finished := inferInstanceAs (Decidable (_ ∧ _))
instance (batch : Batch) : Decidable batch.Settled := inferInstanceAs (Decidable (_ ∧ _))

end Batch

def MediaUpdateReceiver.setBatch (receiver : MediaUpdateReceiver) (kind : MediaKind) (batch : Batch) :
    MediaUpdateReceiver :=
  { receiver with batch := Function.update receiver.batch kind batch }

/-- `videoDownloadFinished` and `imageDownloadFinished`, run for receiver `i`. The container
searched by the delete loop is the one held before the switch. -/
def downloadFinished (terminal : Terminal) (kind : MediaKind) (w : World) (i : Nat) (receiver : MediaUpdateReceiver) :
    World :=
  match w.adMediaInfo with
  | none => { w with crashed := true }
  | some oldMedia =>
    let deleted := deleteFiles terminal oldMedia kind (receiver.batch kind).deleteSet w.files
    { w with
      adMediaInfo := some (oldMedia.setContainer kind (receiver.newMediaInfo.container kind))
      owner := Function.update w.owner kind (i + 1)
      files := deleted.1
      crashed := deleted.2 }

def videoDownloadFinished (terminal : Terminal) : World → Nat → MediaUpdateReceiver → World :=
  downloadFinished terminal .video
def imageDownloadFinished (terminal : Terminal) : World → Nat → MediaUpdateReceiver → World :=
  downloadFinished terminal .image

/-- `onDownloadFinished` of receiver `i`, for the `n`-th of its arrived downloads. -/
def onDownloadFinished (finish : World → Nat → MediaUpdateReceiver → World) (kind : MediaKind)
    (w : World) (i : Nat) (receiver : MediaUpdateReceiver) (n : Nat) : World :=
  let batch := (receiver.batch kind).reported n
  let receiver := receiver.setBatch kind batch
  let w := { w with receivers := w.receivers.set i receiver }
  if batch.totalTaskNum ≤ batch.finishedNum then finish w i receiver else w

def VideoOnDownload.onDownloadFinished (terminal : Terminal) : World → Nat → MediaUpdateReceiver → Nat → World :=
  Strategy.onDownloadFinished (videoDownloadFinished terminal) .video
def ImageOnDownload.onDownloadFinished (terminal : Terminal) : World → Nat → MediaUpdateReceiver → Nat → World :=
  Strategy.onDownloadFinished (imageDownloadFinished terminal) .image

/-- `mMediaStrategyUpdateHandler`, up to the call of `savaXmlMediaStrategy`. A text that
does not parse gives null, and `process` then throws. -/
def mediaStrategyUpdateHandler (terminal : Terminal) (w : World) (xmlText : String) : World :=
  match parseXmlFromText terminal.parseText xmlText, w.adMediaInfo with
  | .ok (some newMediaInfo), some oldMediaInfo =>
    { w with
      receivers := w.receivers ++ [{ newMediaInfo, batch := process terminal oldMediaInfo newMediaInfo,
                                     against := w.owner }]
      saving := some xmlText }
  | _, _ => { w with crashed := true }

/-- `ServerRequest.mWebRequestHandler` on a poll that names a schedule. Both branches of
its comparison store the schedule id and start a receiver. -/
def webRequestHandler (w : World) (scheduleId : String) : World :=
  match w.adMediaInfo with
  | none => { w with crashed := true }
  | some info => { w with adMediaInfo := some { info with resolution := some scheduleId } }

/-- The `MediaStrategyMgr` constructor in a new process: only the stored text and the
files survive. -/
def restart (terminal : Terminal) (xmlText : Option String) (files : Finset Place) : World :=
  match xmlText with
  | none => { adMediaInfo := some {}, xmlText, files }
  | some text =>
    match parseXmlFromText terminal.parseText text with
    | .error _ => { adMediaInfo := none, xmlText, files, crashed := true }
    | .ok adMediaInfo => { adMediaInfo, xmlText, files }

inductive Event where
  /-- The web service names the current schedule. -/
  | polled (scheduleId : String)
  /-- The strategy text of a poll reaches its receiver, and `process` runs. -/
  | fetched (xmlText : String)
  /-- `savaXmlMediaStrategy` stores the text. -/
  | saved
  /-- The `n`-th download under way of receiver `i` has its file complete on disk. -/
  | transferred (i : Nat) (kind : MediaKind) (n : Nat)
  /-- `onDownloadFinished` runs for the `n`-th arrived download of receiver `i`. -/
  | reported (i : Nat) (kind : MediaKind) (n : Nat)
  /-- The process is lost and the terminal starts again. -/
  | killed

/-- The main thread can take the next message: no handler is half way and none has thrown. -/
def World.MainFree (w : World) : Prop := w.crashed = false ∧ w.saving = none

/-- Every started download has been reported and the text of the last update is stored. -/
def World.Settled (w : World) : Prop :=
  w.saving = none ∧ ∀ receiver ∈ w.receivers, ∀ kind, (receiver.batch kind).Settled

instance (w : World) : Decidable w.MainFree := inferInstanceAs (Decidable (_ ∧ _))
instance (w : World) : Decidable w.Settled := inferInstanceAs (Decidable (_ ∧ _))

def step (terminal : Terminal) (w : World) : Event → Option World
  | .polled scheduleId => if w.MainFree then some (webRequestHandler w scheduleId) else none
  | .fetched xmlText => if w.MainFree then some (mediaStrategyUpdateHandler terminal w xmlText) else none
  | .saved =>
    if w.crashed then none
    else w.saving.map fun text => { w with xmlText := some text, saving := none }
  | .transferred i kind n =>
    if w.crashed then none
    else do
      let receiver ← w.receivers[i]?
      let download ← (receiver.batch kind).transferring[n]?
      pure { w with
        receivers := w.receivers.set i
          (receiver.setBatch kind ((receiver.batch kind).transferred n download))
        files := insert download.file w.files }
  | .reported i kind n =>
    if w.MainFree then do
      let receiver ← w.receivers[i]?
      let _ ← (receiver.batch kind).arrived[n]?
      pure (match kind with
        | .video => VideoOnDownload.onDownloadFinished terminal w i receiver n
        | .image => ImageOnDownload.onDownloadFinished terminal w i receiver n)
    else none
  | .killed => some (restart terminal w.xmlText w.files)

end AdTerminal.Strategy
