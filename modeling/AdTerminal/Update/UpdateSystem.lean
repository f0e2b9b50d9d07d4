import AdTerminal.Download.DownloadManager
import AdTerminal.Strategy.UpdateRun

/-! The update of the play strategy with the downloads it starts. The receiver of a strategy
text asks the download manager for the files it lacks. A task whose progress is complete
calls the receiver that asked for it, and the last call of a batch switches the strategy
over and deletes the files that are no longer listed. -/

namespace AdTerminal.Update
open AdTerminal.Strategy AdTerminal.Download Transition

/-- The callback of a receiver, its `mVideoOnDownload` or its `mImageOnDownload`. -/
structure OnDownload where
  receiver : Nat
  kind : MediaKind
  deriving DecidableEq, Repr

/-- The terminal with its download manager. How far a download is, and what is on the disk,
is for the manager to say, and not for the lists and the files of `world`. `deleted` is
history: the paths that the delete loops have deleted, where there was a file. -/
structure System where
  world : World
  manager : Manager OnDownload := {}
  deleted : List String := []

inductive Event where
  /-- The web service names the current schedule. -/
  | polled (scheduleId : String)
  /-- The strategy text of a poll reaches its receiver, and `process` runs. -/
  | fetched (xmlText : String)
  /-- `savaXmlMediaStrategy` stores the text. -/
  | saved
  /-- `onServiceConnected`. -/
  | connected
  /-- An event of the download service, the loss of the process among them. -/
  | service (event : ServiceEvent OnDownload)

/-- The call of `startDownload` for a download of receiver `i`. -/
def request (i : Nat) (kind : MediaKind) (download : Download) : TaskInfo OnDownload :=
  .made download.url (some download.filePath) download.fileName (some ⟨i, kind⟩)

/-- The calls of `startDownload` that `process` makes for receiver `i`. -/
def requests (i : Nat) (receiver : MediaUpdateReceiver) : List (TaskInfo OnDownload) :=
  (receiver.batch .video).transferring.map (request i .video) ++
    (receiver.batch .image).transferring.map (request i .image)

/-- A thread that waits for ever makes no further call. -/
def call (m : Manager OnDownload) (info : TaskInfo OnDownload) : Manager OnDownload :=
  if m.blocked then m else m.startDownload info.url info.filePath info.fileName info.download

/-- The delete loop joins the path and the name, up to the first id it does not find. -/
def deletedPaths (mediaPath : String) (info : AdMediaInfo) (kind : MediaKind) : List Text → List String
  | [] => []
  | id :: rest =>
    match info.file? kind id with
    | none => []
    | some file => (mediaPath ++ file) :: deletedPaths mediaPath info kind rest

namespace OnDownload

/-- `onDownloadFinished` of a receiver. The position is none of its arrived downloads. -/
def onDownloadFinished (callback : OnDownload) (terminal : Terminal) (w : World) : World :=
  match w.receivers[callback.receiver]? with
  | none => w
  | some receiver =>
    let n := (receiver.batch callback.kind).arrived.length
    match callback.kind with
    | .video => VideoOnDownload.onDownloadFinished terminal w callback.receiver receiver n
    | .image => ImageOnDownload.onDownloadFinished terminal w callback.receiver receiver n

/-- The paths that `videoDownloadFinished` or `imageDownloadFinished` deletes in that call. -/
def deletes (callback : OnDownload) (terminal : Terminal) (w : World) : List String :=
  match w.receivers[callback.receiver]?, w.adMediaInfo with
  | some receiver, some oldMedia =>
    let batch := receiver.batch callback.kind
    if batch.totalTaskNum ≤ batch.finishedNum + 1 then
      deletedPaths terminal.mediaPath oldMedia callback.kind batch.deleteSet
    else []
  | _, _ => []

end OnDownload

namespace System

/-- A process that starts with what is stored. -/
def start (terminal : Terminal) (xmlText : Option String) (rows : List ThreadInfo)
    (disk : String × String → List UInt8) : System :=
  { world := restart terminal xmlText ∅, manager := { service := { rows, disk } } }

/-- The main thread can take its next message. -/
def MainFree (s : System) : Prop := s.world.MainFree ∧ s.manager.blocked = false

instance (s : System) : Decidable s.MainFree := inferInstanceAs (Decidable (_ ∧ _))

/-- The calls of `startDownload` that a strategy text leads to. -/
def requested (terminal : Terminal) (s : System) (xmlText : String) : List (TaskInfo OnDownload) :=
  match (mediaStrategyUpdateHandler terminal s.world xmlText).receivers[s.world.receivers.length]? with
  | none => []
  | some receiver => requests s.world.receivers.length receiver

def fetched (terminal : Terminal) (s : System) (xmlText : String) : System :=
  { s with world := mediaStrategyUpdateHandler terminal s.world xmlText
           manager := (s.requested terminal xmlText).foldl call s.manager }

/-- The callback that the next message of the main thread leads to. -/
def finishing (s : System) : Option OnDownload :=
  match s.manager.service.queue with
  | .downloading k progress :: _ => (s.manager.service.tasks[k]?).bind fun entry =>
    if progress ≥ 100 then entry.task.taskInfo.download else none
  | _ => none

/-- The handler of a finished task calls the receiver first. When that throws, what is left
of the handler does not run. -/
def finished (terminal : Terminal) (s : System) (callback : OnDownload) (manager : Manager OnDownload) : System :=
  let world := callback.onDownloadFinished terminal s.world
  { world
    manager := if world.crashed then s.manager else manager
    deleted := s.deleted ++ callback.deletes terminal s.world }

/-- The system after an event of its service. -/
def follow (terminal : Terminal) (s : System) (event : ServiceEvent OnDownload) (manager : Manager OnDownload) :
    System :=
  match event, s.finishing with
  | .dispatch, some callback => s.finished terminal callback manager
  | .killed, _ => { s with world := restart terminal s.world.xmlText s.world.files, manager }
  | _, _ => { s with manager }

end System

def step (terminal : Terminal) (s : System) : Event → Option System
  | .polled scheduleId =>
    if s.MainFree then some { s with world := webRequestHandler s.world scheduleId } else none
  | .fetched xmlText => if s.MainFree then some (s.fetched terminal xmlText) else none
  | .saved =>
    if s.manager.blocked then none
    else (Strategy.step terminal s.world .saved).map fun world => { s with world }
  | .connected =>
    if s.MainFree then (s.manager.step .connected).map fun manager => { s with manager } else none
  | .service event =>
    match event with
    | .killed => (s.manager.step (.service .killed)).map (s.follow terminal .killed)
    | event =>
      if s.world.crashed ∨ event.onMainThread ∧ ¬ s.MainFree then none
      else (s.manager.step (.service event)).map (s.follow terminal event)

/-- What one step of the system can be, guards included. -/
inductive Moved (terminal : Terminal) (s : System) : Event → System → Prop
  | polled (scheduleId : String) (free : s.MainFree) :
      Moved terminal s (.polled scheduleId) { s with world := webRequestHandler s.world scheduleId }
  | fetched (xmlText : String) (free : s.MainFree) : Moved terminal s (.fetched xmlText) (s.fetched terminal xmlText)
  | saved (text : String) (alive : s.world.crashed = false) (saving : s.world.saving = some text) :
      Moved terminal s .saved { s with world := { s.world with xmlText := some text, saving := none } }
  | connected (manager : Manager OnDownload) (free : s.MainFree) (taken : s.manager.step .connected = some manager) :
      Moved terminal s .connected { s with manager }
  | served (event : ServiceEvent OnDownload) (manager : Manager OnDownload) (alive : s.world.crashed = false)
      (main : event.onMainThread → s.MainFree) (survived : event ≠ .killed)
      (taken : s.manager.step (.service event) = some manager) :
      Moved terminal s (.service event) { s with manager }
  | finished (callback : OnDownload) (manager : Manager OnDownload) (free : s.MainFree)
      (called : s.finishing = some callback) (taken : s.manager.step (.service .dispatch) = some manager) :
      Moved terminal s (.service .dispatch) (s.finished terminal callback manager)
  | killed (manager : Manager OnDownload) (taken : s.manager.step (.service .killed) = some manager) :
      Moved terminal s (.service .killed)
        { s with world := restart terminal s.world.xmlText s.world.files, manager }

variable {terminal : Terminal} {s s' : System}

/-- A file that the delete loop takes away is one that a path it deletes leads to. -/
theorem resolve_deletedPaths {info : AdMediaInfo} {kind : MediaKind} {ids : List Text}
    {files : Finset FilePath.Place} {file : FilePath.Place} (present : file ∈ files)
    (gone : file ∉ (deleteFiles terminal info kind ids files).1) :
    ∃ path ∈ deletedPaths terminal.mediaPath info kind ids, FilePath.resolve path = file := by
  induction ids generalizing files with
  | nil => exact absurd present gone
  | cons id rest ih =>
    cases named : info.file? kind id with
    | none => exact absurd present (by simpa [deleteFiles, AdMediaInfo.place?, named] using gone)
    | some name =>
      simp only [deletedPaths, named, List.mem_cons, exists_eq_or_imp]
      by_cases same : file = terminal.place name
      · exact Or.inl same.symm
      · have kept : file ∈ files.erase (terminal.place name) := Finset.mem_erase.mpr ⟨same, present⟩
        exact Or.inr (ih kept (by simpa [deleteFiles, AdMediaInfo.place?, named] using gone))

theorem manager_finished (terminal : Terminal) (s : System) (callback : OnDownload) (manager : Manager OnDownload) :
    (s.finished terminal callback manager).manager = s.manager ∨
      (s.finished terminal callback manager).manager = manager := by
  unfold System.finished
  exact ite_eq_or_eq _ _ _

theorem moved_of_service {event : ServiceEvent OnDownload}
    (taken : step terminal s (.service event) = some s') : Moved terminal s (.service event) s' := by
  by_cases killed : event = .killed
  · subst killed
    obtain ⟨manager, managed, rfl⟩ := Option.map_eq_some_iff.mp taken
    exact .killed manager managed
  · have both : ¬ (s.world.crashed = true ∨ event.onMainThread = true ∧ ¬ s.MainFree) ∧
        (s.manager.step (.service event)).map (s.follow terminal event) = some s' := by
      cases event with
      | killed => exact absurd rfl killed
      | _ => exact Option.ite_none_left_eq_some.mp taken
    obtain ⟨enabled, followed⟩ := both
    obtain ⟨manager, managed, rfl⟩ := Option.map_eq_some_iff.mp followed
    have alive : s.world.crashed = false := Bool.eq_false_iff.mpr fun crashed => enabled (Or.inl crashed)
    have main : event.onMainThread = true → s.MainFree := by
      intro onMain
      by_contra busy
      exact enabled (Or.inr ⟨onMain, busy⟩)
    have moved : Moved terminal s (.service event) { s with manager } :=
      .served event manager alive main killed managed
    cases event with
    | dispatch =>
      cases called : s.finishing with
      | none => simpa only [System.follow, called] using moved
      | some callback =>
        have finished : Moved terminal s (.service .dispatch) (s.finished terminal callback manager) :=
          .finished callback manager (main rfl) called managed
        simpa only [System.follow, called] using finished
    | killed => exact absurd rfl killed
    | _ => exact moved

theorem moved_of_step {event : Event} (taken : step terminal s event = some s') : Moved terminal s event s' := by
  cases event with
  | polled scheduleId =>
    obtain ⟨free, same⟩ := Option.ite_none_right_eq_some.mp taken
    cases same
    exact .polled scheduleId free
  | fetched xmlText =>
    obtain ⟨free, same⟩ := Option.ite_none_right_eq_some.mp taken
    cases same
    exact .fetched xmlText free
  | saved =>
    obtain ⟨-, followed⟩ := Option.ite_none_left_eq_some.mp taken
    obtain ⟨world, stored, rfl⟩ := Option.map_eq_some_iff.mp followed
    obtain ⟨text, alive, saving, rfl⟩ := step_saved stored
    exact .saved text alive saving
  | connected =>
    obtain ⟨free, followed⟩ := Option.ite_none_right_eq_some.mp taken
    obtain ⟨manager, managed, rfl⟩ := Option.map_eq_some_iff.mp followed
    exact .connected manager free managed
  | service event => exact moved_of_service taken

theorem run_calls (m : Manager OnDownload) (infos : List (TaskInfo OnDownload)) :
    ∃ calls, run Manager.step m calls = some (infos.foldl call m) := by
  induction infos generalizing m with
  | nil => exact ⟨[], rfl⟩
  | cons info infos ih =>
    obtain ⟨calls, whole⟩ := ih (call m info)
    by_cases blocked : m.blocked = true
    · rw [call, if_pos blocked] at whole
      exact ⟨calls, by simpa [call, blocked] using whole⟩
    · refine ⟨.startDownload info.url info.filePath info.fileName info.download :: calls, ?_⟩
      simpa [call, run, Manager.step, blocked] using whole

/-- Every step of the system is one of the manager alone, or several, or none. -/
theorem manager_moved {event : Event} (moved : Moved terminal s event s') :
    ∃ events, run Manager.step s.manager events = some s'.manager := by
  cases moved with
  | polled | saved => exact ⟨[], rfl⟩
  | fetched xmlText free => exact run_calls s.manager _
  | connected manager free taken => exact ⟨[.connected], by simp [run, taken]⟩
  | served event manager alive main survived taken => exact ⟨[.service event], by simp [run, taken]⟩
  | finished callback manager free called taken =>
    rcases manager_finished terminal s callback manager with same | same
    · exact ⟨[], by rw [same]; rfl⟩
    · exact ⟨[.service .dispatch], by simp [run, taken, same]⟩
  | killed manager taken => exact ⟨[.service .killed], by simp [run, taken]⟩

/-- In every run of the system its manager goes through a run of its own, so that what holds
of all runs of the manager holds of it. -/
theorem manager_runs {es : List Event} (whole : run (step terminal) s es = some s') :
    ∃ events, run Manager.step s.manager events = some s'.manager := by
  induction es generalizing s with
  | nil =>
    cases whole
    exact ⟨[], rfl⟩
  | cons event es ih =>
    obtain ⟨t, taken, rest⟩ := run_cons whole
    obtain ⟨first, reached⟩ := manager_moved (moved_of_step taken)
    obtain ⟨second, ended⟩ := ih rest
    refine ⟨first ++ second, ?_⟩
    rw [run_append, reached]
    exact ended

/-! Events of one poll and of the transfer of a file of one byte, to run the code on. -/

def polls (xmlText : String) : List Event := [.polled xmlText, .fetched xmlText, .saved]

/-- The `i`-th waiting `InitThread` is accepted. -/
def initThread (i : Nat) : Event := .service (.initThread i 200 1 "" "")

/-- The only thread of a task transfers the byte, and the completion is handled. -/
def completes (task : Nat) : List Event :=
  [.respond 206 [7], .read 1, .proceed, .clock false, .proceed, .endOfStream, .proceed].map
      (fun event => .service (.thread task 0 event)) ++
    [.service .dispatch, .service (.broadcast 0), .service .dispatch]

end AdTerminal.Update
