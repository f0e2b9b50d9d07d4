import AdTerminal.Download.Started
import AdTerminal.Library.FilePath
import AdTerminal.Update.UpdateSystem
import Mathlib.Data.List.TakeWhile

/-! Where the update writes and deletes. A file name is taken from the strategy document as it
is. It names the file of the task, which is created and written under the media path with
`File(path, name)`, and the file the delete loop joins to that path by concatenation. -/

namespace AdTerminal.Update
open AdTerminal.Strategy AdTerminal.Download AdTerminal.FilePath Transition

variable {terminal : Terminal} {s s' : System} {w : World}

/-- Where `FileDirMgr` puts the media of an external storage. -/
def getVideoStoragePath (externalStorage : String) : String := externalStorage ++ "/Ad_Video/"

theorem getVideoStoragePath_trailing (externalStorage : String) :
    ∃ directory, getVideoStoragePath externalStorage = directory ++ "/" := by
  refine ⟨externalStorage ++ "/Ad_Video", ?_⟩
  rw [String.append_assoc]
  rfl

/-- The terminal with its media on that storage. -/
def onStorage (terminal : Terminal) (externalStorage : String) : Terminal :=
  { terminal with
    mediaPath := getVideoStoragePath externalStorage
    trailing := getVideoStoragePath_trailing externalStorage }

/-- Everything that is written or deleted is below the media path: the file of each prepared
task, which its `InitThread` has created and its threads write, each file with contents, and
each path that was deleted. -/
structure Confined (mediaPath : String) (s : System) : Prop where
  prepared : ∀ pair ∈ s.manager.service.pairs, Under mediaPath (join pair.2.file.1 pair.2.file.2)
  onDisk : ∀ file, s.manager.service.disk file ≠ [] → Under mediaPath (join file.1 file.2)
  deleted : ∀ path ∈ s.deleted, Under mediaPath path

/-- All file names of a strategy stay in the media directory. -/
def NamesStay (mediaPath : String) (info : AdMediaInfo) : Prop :=
  ∀ kind file, info.Names kind file → Stays mediaPath file

/-- A text is no strategy, or one whose names stay in the media directory. -/
def TextStays (terminal : Terminal) (xmlText : String) : Prop :=
  ∀ media, parseXmlFromText terminal.parseText xmlText = .ok (some media) → NamesStay terminal.mediaPath media

/-- Every strategy document names files in the media directory only. -/
def FetchesInside (terminal : Terminal) : Event → Prop
  | .fetched xmlText => TextStays terminal xmlText
  | _ => True

/-- The names that the update code holds stay in the media directory. -/
structure Guarded (terminal : Terminal) (w : World) : Prop where
  inForce : ∀ info, w.adMediaInfo = some info → NamesStay terminal.mediaPath info
  receivers : ∀ receiver ∈ w.receivers, NamesStay terminal.mediaPath receiver.newMediaInfo
  stored : ∀ text, w.xmlText = some text → TextStays terminal text
  saving : ∀ text, w.saving = some text → TextStays terminal text

/-- A request for a file that stays in the media directory. -/
structure Named (terminal : Terminal) (info : TaskInfo OnDownload) : Prop where
  filePath : info.filePath = some terminal.mediaPath
  url : info.url = terminal.fileServer ++ Text.shown info.fileName
  stays : Stays terminal.mediaPath (Text.shown info.fileName)

theorem namesStay_resolution {mediaPath : String} {info : AdMediaInfo} (stay : NamesStay mediaPath info)
    (resolution : Text) : NamesStay mediaPath { info with resolution } := by
  intro kind file named
  exact stay kind file ((AdMediaInfo.names_congr (AdMediaInfo.container_resolution info resolution kind) file).mp named)

theorem namesStay_setContainer {mediaPath : String} {info newMedia : AdMediaInfo} (stay : NamesStay mediaPath info)
    (new : NamesStay mediaPath newMedia) (kind : MediaKind) :
    NamesStay mediaPath (info.setContainer kind (newMedia.container kind)) := by
  intro k file named
  by_cases touched : k = kind
  · subst touched
    exact new k file ((AdMediaInfo.names_congr (AdMediaInfo.container_setContainer_self info k _) file).mp named)
  · have same := AdMediaInfo.container_setContainer_other info touched (newMedia.container kind)
    exact stay k file ((AdMediaInfo.names_congr same file).mp named)

theorem namesStay_empty (mediaPath : String) : NamesStay mediaPath {} := by
  intro kind file named
  obtain ⟨id, found⟩ := named
  cases kind <;> cases found

theorem guarded_restart {xmlText : Option String} (files : Finset Place)
    (stored : ∀ text, xmlText = some text → TextStays terminal text) :
    Guarded terminal (restart terminal xmlText files) := by
  refine ⟨?_, ?_, ?_, ?_⟩
  · intro info active
    unfold restart at active
    split at active
    next =>
      cases active
      exact namesStay_empty _
    next text =>
      split at active
      next => cases active
      next media parsed =>
        cases active
        exact stored text rfl info parsed
  · simp [receivers_restart]
  · rw [xmlText_restart]
    exact stored
  · simp [saving_restart]

theorem guarded_polled (guarded : Guarded terminal w) (scheduleId : String) :
    Guarded terminal (webRequestHandler w scheduleId) := by
  unfold webRequestHandler
  split
  next => exact { guarded with }
  next info active =>
    refine { guarded with inForce := ?_ }
    rintro _ ⟨⟩
    exact namesStay_resolution (guarded.inForce info active) _

theorem guarded_fetched (guarded : Guarded terminal w) {xmlText : String} (stays : TextStays terminal xmlText) :
    Guarded terminal (mediaStrategyUpdateHandler terminal w xmlText) := by
  rcases handler_cases terminal w xmlText with ⟨newMedia, oldMedia, parsed, active⟩ | thrown
  · rw [handler_of_parsed parsed active]
    refine { guarded with receivers := ?_, saving := ?_ }
    · intro receiver member
      rcases List.mem_append.mp member with old | only
      · exact guarded.receivers receiver old
      · rw [List.mem_singleton.mp only]
        exact stays newMedia parsed
    · rintro _ ⟨⟩
      exact stays
  · rw [thrown]
    exact { guarded with }

/-- Both callbacks are instances of the one definition. -/
theorem onDownloadFinished_of_present {callback : OnDownload} {receiver : MediaUpdateReceiver}
    (present : w.receivers[callback.receiver]? = some receiver) :
    callback.onDownloadFinished terminal w =
      Strategy.onDownloadFinished (downloadFinished terminal callback.kind) callback.kind w
        callback.receiver receiver (receiver.batch callback.kind).arrived.length := by
  simp only [OnDownload.onDownloadFinished, present]
  cases callback.kind <;> rfl

theorem guarded_finished (guarded : Guarded terminal w) (callback : OnDownload) :
    Guarded terminal (callback.onDownloadFinished terminal w) := by
  cases present : w.receivers[callback.receiver]? with
  | none => simpa only [OnDownload.onDownloadFinished, present] using guarded
  | some receiver =>
    have known := guarded.receivers receiver (List.mem_of_getElem? present)
    have receivers : ∀ r ∈ w.receivers.set callback.receiver (receiver.setBatch callback.kind
        ((receiver.batch callback.kind).reported (receiver.batch callback.kind).arrived.length)),
        NamesStay terminal.mediaPath r.newMediaInfo := by
      intro r member
      rcases List.mem_or_eq_of_mem_set member with old | rfl
      · exact guarded.receivers r old
      · exact known
    rw [onDownloadFinished_of_present present]
    by_cases last : (receiver.batch callback.kind).totalTaskNum ≤ (receiver.batch callback.kind).finishedNum + 1
    · cases active : w.adMediaInfo with
      | none =>
        -- There is no strategy whose containers could be replaced.
        have thrown : Strategy.onDownloadFinished (downloadFinished terminal callback.kind) callback.kind w
            callback.receiver receiver (receiver.batch callback.kind).arrived.length = { w with
              receivers := w.receivers.set callback.receiver (receiver.setBatch callback.kind
                ((receiver.batch callback.kind).reported (receiver.batch callback.kind).arrived.length))
              crashed := true } := by
          refine (if_pos last).trans ?_
          simp only [downloadFinished, active]
        rw [thrown]
        exact { guarded with receivers := receivers }
      | some info =>
        rw [onDownloadFinished_last active last]
        refine { guarded with inForce := ?_, receivers := receivers }
        rintro _ ⟨⟩
        exact namesStay_setContainer (guarded.inForce info active) known callback.kind
    · rw [onDownloadFinished_early last]
      exact { guarded with receivers := receivers }

theorem named_of_deletedPaths {mediaPath : String} {info : AdMediaInfo} {kind : MediaKind} {ids : List Text}
    {path : String} (member : path ∈ deletedPaths mediaPath info kind ids) :
    ∃ file, info.Names kind file ∧ path = mediaPath ++ file := by
  induction ids with
  | nil => exact absurd member List.not_mem_nil
  | cons id rest ih =>
    cases found : info.file? kind id with
    | none => simp [deletedPaths, found] at member
    | some file =>
      simp only [deletedPaths, found, List.mem_cons] at member
      rcases member with rfl | later
      · exact ⟨file, ⟨id, found⟩, rfl⟩
      · exact ih later

/-- What a completion deletes is named by the strategy in force. -/
theorem named_of_deletes {callback : OnDownload} {path : String} (member : path ∈ callback.deletes terminal w) :
    ∃ info file, w.adMediaInfo = some info ∧ info.Names callback.kind file ∧ path = terminal.mediaPath ++ file := by
  unfold OnDownload.deletes at member
  split at member
  next receiver oldMedia present active =>
    simp only [] at member
    split at member
    · obtain ⟨file, named, rfl⟩ := named_of_deletedPaths member
      exact ⟨oldMedia, file, active, named, rfl⟩
    · exact absurd member List.not_mem_nil
  next => exact absurd member List.not_mem_nil

/-- The calls that a text leads to are for files it names. -/
theorem named_of_requested {xmlText : String} (stays : TextStays terminal xmlText) {info : TaskInfo OnDownload}
    (member : info ∈ s.requested terminal xmlText) : Named terminal info := by
  rcases handler_cases terminal s.world xmlText with ⟨newMedia, oldMedia, parsed, active⟩ | thrown
  · simp only [System.requested, handler_of_parsed parsed active, List.getElem?_concat_length, requests,
      List.mem_append, process, List.mem_map] at member
    have download : ∃ kind id, id ∈ newMedia.ids kind ∧
        info = request s.world.receivers.length kind (startDownload terminal newMedia kind id) := by
      rcases member with ⟨_, ⟨id, inside, rfl⟩, rfl⟩ | ⟨_, ⟨id, inside, rfl⟩, rfl⟩
      · exact ⟨.video, id, (mem_getSetDifference.mp inside).1, rfl⟩
      · exact ⟨.image, id, (mem_getSetDifference.mp inside).1, rfl⟩
    obtain ⟨kind, id, listed, rfl⟩ := download
    obtain ⟨file, named⟩ := AdMediaInfo.mem_ids.mp listed
    have shown := fileName_startDownload terminal named
    refine ⟨rfl, rfl, ?_⟩
    exact shown ▸ stays newMedia parsed kind file ⟨id, named⟩
  · simp [System.requested, thrown] at member

/-- Without a name in the document, the name of the file is the end of the URL, which ends
with "null". -/
theorem stays_afterLastSlash (directory fileServer : String) :
    Stays directory (afterLastSlash (fileServer ++ "null")) := by
  have ending : (afterLastSlash (fileServer ++ "null")).toList =
      (fileServer.toList.reverse.takeWhile (· ≠ '/')).reverse ++ ['n', 'u', 'l', 'l'] := by
    have reversed : (fileServer ++ "null").toList.reverse = 'l' :: 'l' :: 'u' :: 'n' :: fileServer.toList.reverse := by
      simp
    rw [afterLastSlash, String.toList_ofList, reversed]
    simp
  have single : '/' ∉ (afterLastSlash (fileServer ++ "null")).toList := by
    rw [afterLastSlash, String.toList_ofList, List.mem_reverse]
    intro slash
    simpa using List.mem_takeWhile_imp slash
  have long : 4 ≤ (afterLastSlash (fileServer ++ "null")).toList.length := by
    rw [ending]
    simp
  apply stays_component directory single <;>
  · intro short
    rw [short] at long
    exact absurd long (by decide)

theorem isEmpty_false {text : String} (present : text ≠ "") : isEmpty (some text) = false := decide_eq_false present

/-- The file of a task that is made of such a request is in the media directory. -/
theorem under_of_prepares (path : terminal.mediaPath ≠ "") {request info : TaskInfo OnDownload}
    (named : Named terminal request) (prepares : Prepares request info) :
    Under terminal.mediaPath (join info.file.1 info.file.2) := by
  obtain ⟨code, contentLength, directory, header, accepted⟩ := prepares
  simp only [InitThread.run, Option.ite_none_right_eq_some, Option.some.injEq] at accepted
  obtain ⟨-, rfl⟩ := accepted
  obtain ⟨filePath, url, stays⟩ := named
  simp only [TaskInfo.file, filePath, isEmpty_false path, Bool.false_eq_true, if_false, Option.getD_some]
  apply (under_join_iff _ _).mpr
  have chosen : Stays terminal.mediaPath
      (if isEmpty request.fileName = true then afterLastSlash request.url else request.fileName.getD "") := by
    cases name : request.fileName with
    | none =>
      rw [url, name]
      exact stays_afterLastSlash terminal.mediaPath terminal.fileServer
    | some text =>
      rw [name] at stays
      have present : text ≠ "" := fun empty => not_stays_empty _ (empty ▸ stays)
      rw [isEmpty_false present]
      exact stays
  generalize (if isEmpty request.fileName = true then afterLastSlash request.url else request.fileName.getD "") =
    fileName at chosen ⊢
  have present : fileName ≠ "" := fun empty => not_stays_empty _ (empty ▸ chosen)
  rw [isEmpty_false present]
  exact chosen

/-- The invariant of a terminal whose documents name files in the media directory only. -/
structure Confining (terminal : Terminal) (s : System) : Prop where
  guarded : Guarded terminal s.world
  writes : s.manager.Writes (Named terminal) fun file => Under terminal.mediaPath (join file.1 file.2)
  deleted : ∀ path ∈ s.deleted, Under terminal.mediaPath path

theorem Confining.confined (confining : Confining terminal s) : Confined terminal.mediaPath s :=
  ⟨confining.writes.service.prepared, confining.writes.service.onDisk, confining.deleted⟩

theorem writes_calls (path : terminal.mediaPath ≠ "") {m : Manager OnDownload} {infos : List (TaskInfo OnDownload)}
    (writes : m.Writes (Named terminal) fun file => Under terminal.mediaPath (join file.1 file.2))
    (named : ∀ info ∈ infos, Named terminal info) :
    (infos.foldl call m).Writes (Named terminal) fun file => Under terminal.mediaPath (join file.1 file.2) := by
  induction infos generalizing m with
  | nil => exact writes
  | cons info infos ih =>
    have rest := fun other member => named other (List.mem_cons_of_mem info member)
    refine ih ?_ rest
    unfold call
    split
    next => exact writes
    next running =>
      apply writes.managed (fun _ _ => under_of_prepares path)
        (managed_of_startDownload (Bool.eq_false_iff.mpr running) _ _ _ _)
      rintro url filePath fileName download ⟨⟩
      have first := named info List.mem_cons_self
      exact ⟨first.filePath, first.url, first.stays⟩

theorem confining_moved {directory : String} (path : terminal.mediaPath = directory ++ "/") {event : Event}
    (confining : Confining terminal s) (inside : FetchesInside terminal event) (moved : Moved terminal s event s') :
    Confining terminal s' := by
  have nonempty : terminal.mediaPath ≠ "" := by
    rw [path]
    simp
  have kept : ∀ {manager : Manager OnDownload} {event : ManagerEvent OnDownload}, s.manager.step event = some manager →
      (∀ url filePath fileName download, event ≠ .startDownload url filePath fileName download) →
      manager.Writes (Named terminal) fun file => Under terminal.mediaPath (join file.1 file.2) := by
    intro manager event taken caller
    apply confining.writes.managed (fun _ _ => under_of_prepares nonempty) (managed_of_step taken)
    intro url filePath fileName download requested
    exact absurd requested (caller url filePath fileName download)
  cases moved with
  | polled scheduleId => exact { confining with guarded := guarded_polled confining.guarded scheduleId }
  | fetched xmlText free =>
    refine { confining with guarded := guarded_fetched confining.guarded inside, writes := ?_ }
    exact writes_calls nonempty confining.writes fun info => named_of_requested inside
  | saved text alive saving =>
    refine { confining with guarded := { confining.guarded with stored := ?_, saving := by simp } }
    rintro _ ⟨⟩
    exact confining.guarded.saving text saving
  | connected manager free taken => exact { confining with writes := kept taken (by simp) }
  | served event manager alive main survived taken => exact { confining with writes := kept taken (by simp) }
  | finished callback manager free called taken =>
    refine ⟨guarded_finished confining.guarded callback, ?_, ?_⟩
    · rcases manager_finished terminal s callback manager with same | same
      · rw [same]
        exact confining.writes
      · rw [same]
        exact kept taken (by simp)
    · intro deleted member
      rcases List.mem_append.mp member with old | new
      · exact confining.deleted deleted old
      · obtain ⟨info, file, active, named, rfl⟩ := named_of_deletes new
        have stays := confining.guarded.inForce info active callback.kind file named
        -- The delete loop concatenates, which is the same after the trailing slash.
        rw [path] at stays ⊢
        exact (under_append_iff directory file).mpr stays
  | killed manager taken =>
    exact ⟨guarded_restart _ confining.guarded.stored, kept taken (by simp), confining.deleted⟩

/-- In every run from a fresh terminal, on any external storage, in which each strategy
document names files in the media directory only, everything that is written or deleted is
below that directory in every state. -/
theorem confined_throughout {terminal : Terminal} {externalStorage : String} {es : List Event}
    (inside : ∀ event ∈ es, FetchesInside (onStorage terminal externalStorage) event) :
    Throughout (step (onStorage terminal externalStorage)) (Confined (getVideoStoragePath externalStorage))
      (.start (onStorage terminal externalStorage) none [] fun _ => []) es := by
  obtain ⟨directory, trailing⟩ := getVideoStoragePath_trailing externalStorage
  have kept : ∀ s event s', Confining (onStorage terminal externalStorage) s →
      FetchesInside (onStorage terminal externalStorage) event →
      step (onStorage terminal externalStorage) s event = some s' → Confining (onStorage terminal externalStorage) s' :=
    fun s event s' confining fetches taken => confining_moved trailing confining fetches (moved_of_step taken)
  have start : Confining (onStorage terminal externalStorage)
      (.start (onStorage terminal externalStorage) none [] fun _ => []) := by
    have fresh : Guarded (onStorage terminal externalStorage) (restart (onStorage terminal externalStorage) none ∅) :=
      guarded_restart ∅ (by simp)
    refine ⟨fresh, ⟨?_, ?_⟩, ?_⟩
    · simp [System.start]
    · constructor <;> simp [System.start, Service.pairs]
    · simp [System.start]
  exact throughout_of_invariant kept (fun s confining => confining.confined) start (Steps.of_forall inside)

instance (mediaPath : String) (info : AdMediaInfo) : Decidable (NamesStay mediaPath info) :=
  inferInstanceAs (Decidable (∀ _ : MediaKind, _))

instance (terminal : Terminal) (xmlText : String) : Decidable (TextStays terminal xmlText) :=
  match parsed : parseXmlFromText terminal.parseText xmlText with
  | .ok (some media) => decidable_of_iff (NamesStay terminal.mediaPath media)
    ⟨fun stay other same => by cases parsed.symm.trans same; exact stay, fun all => all media parsed⟩
  | .ok none => isTrue fun media same => by cases parsed.symm.trans same
  | .error _ => isTrue fun media same => by cases parsed.symm.trans same

instance (terminal : Terminal) : DecidablePred (FetchesInside terminal)
  | .fetched xmlText => inferInstanceAs (Decidable (TextStays terminal xmlText))
  | .polled _ | .saved | .connected | .service _ => isTrue trivial

/-- A server that replaces one video by another, in a directory of its own. -/
def changingVideo : Terminal := terminalFor [
  ("one", strategyElement [("1", "a.mp4")] []), ("two", strategyElement [("2", "new/./b.mp4")] [])]

def replacesVideo : List Event :=
  polls "one" ++ [.connected, .service .dispatch, initThread 0, .service .dispatch] ++ completes 0 ++
    polls "two" ++ [initThread 0, .service .dispatch] ++ completes 1

theorem replacesVideo_confined :
    Throughout (step (onStorage changingVideo "/sdcard")) (Confined "/sdcard/Ad_Video/")
      (.start (onStorage changingVideo "/sdcard") none [] fun _ => []) replacesVideo ∧
    (run (step (onStorage changingVideo "/sdcard")) (.start (onStorage changingVideo "/sdcard") none [] fun _ => [])
      replacesVideo).map System.deleted = some ["/sdcard/Ad_Video/a.mp4"] :=
  ⟨confined_throughout (by decide +kernel), by decide +kernel⟩

/-- A server whose strategy names a file outside the media directory. -/
def climbingVideo : Terminal := terminalFor [("out", strategyElement [("1", "../x.mp4")] [])]

/-- The `InitThread` of the video creates the file next to the media directory. -/
theorem climbingVideo_not_confined :
    ¬ Throughout (step (onStorage climbingVideo "/sdcard")) (Confined "/sdcard/Ad_Video/")
      (.start (onStorage climbingVideo "/sdcard") none [] fun _ => [])
      (polls "out" ++ [.connected, .service .dispatch, initThread 0]) := by
  intro all
  have ends : (run (step (onStorage climbingVideo "/sdcard"))
      (.start (onStorage climbingVideo "/sdcard") none [] fun _ => [])
      (polls "out" ++ [.connected, .service .dispatch, initThread 0])).any (fun s =>
        s.manager.service.pairs.any fun pair =>
          !decide (Under "/sdcard/Ad_Video/" (join pair.2.file.1 pair.2.file.2))) = true := by
    decide +kernel
  obtain ⟨s, whole, escapes⟩ := (Option.any_eq_true _ _).mp ends
  obtain ⟨pair, member, outside⟩ := List.any_eq_true.mp escapes
  have under := (all _ [] (List.append_nil _).symm s whole).prepared pair member
  simp [under] at outside

end AdTerminal.Update
