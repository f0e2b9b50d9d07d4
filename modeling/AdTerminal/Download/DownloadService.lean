import AdTerminal.Download.Faithful
import Mathlib.Logic.Function.Basic

/-! The download service. A request whose URL is not in the list of tasks starts an
`InitThread`, which asks for the length of the file and posts `MSG_INIT`; its handler makes
the task and lists it. A finished task is unlisted by a message that its own completion
sends on its way, through a broadcast. -/

namespace AdTerminal.Download
open Transition RandomAccess

variable {κ : Type}

/-- The messages of the main thread. -/
inductive Message (κ : Type) where
  /-- `MSG_INIT`, with the request as it was made. -/
  | init (request info : TaskInfo κ)
  /-- `MSG_DOWNLOADING`, for the handler of the task made at that place. -/
  | downloading (task : Nat) (progress : Int)
  | downloadFinished (url : String)
  /-- `MSG_BIND_SUC`, which the manager handles. -/
  | bindSuccess
  deriving DecidableEq

/-- A task the service has made. `listed` tells whether it is in `mListTask`. The request
it was made for, all writes of its threads and the calls of `onDownloadFinished` are history. -/
structure Entry (κ : Type) where
  request : TaskInfo κ
  task : DownloadTask κ
  listed : Bool := true
  writes : List (Nat × List UInt8) := []
  completions : Nat := 0
  deriving DecidableEq

/-- The service, with the one queue its handlers share, the broadcasts on their way, the
table and the files. All tasks are kept, in the order of `mListTask`. `merged` is history:
a request that started nothing of its own, with the request of the task that was listed. -/
structure Service (κ : Type) where
  tasks : List (Entry κ) := []
  inits : List (TaskInfo κ) := []
  queue : List (Message κ) := []
  broadcasts : List String := []
  rows : List ThreadInfo := []
  disk : String × String → List UInt8 := fun _ => []
  merged : List (TaskInfo κ × TaskInfo κ) := []

inductive ServiceEvent (κ : Type) where
  | download (info : TaskInfo κ)
  | pause (url : String)
  | lowMemory
  /-- The `i`-th waiting `InitThread` is answered. The default directory and the name in the
  header stand for what the two `getFilePath` and `getFileName` would return. -/
  | initThread (i : Nat) (code contentLength : Int) (directory header : String)
  /-- The `i`-th waiting `InitThread` ends with an exception. -/
  | initFails (i : Nat)
  /-- The main thread handles its next message. -/
  | dispatch
  | broadcast (i : Nat)
  /-- The `i`-th thread of a task takes a step. -/
  | thread (task i : Nat) (event : ThreadEvent)
  /-- The process is lost. The table and the files remain. -/
  | killed

/-- `TextUtils.isEmpty`. -/
def isEmpty (text : Option String) : Bool := text.getD "" = ""

/-- What stands after the last slash. -/
def afterLastSlash (url : String) : String :=
  String.ofList (url.toList.reverse.takeWhile (· ≠ '/')).reverse

/-- The file a prepared task writes. -/
def TaskInfo.file (info : TaskInfo κ) : String × String := (info.filePath.getD "", info.fileName.getD "")

/-- `InitThread.run`: the prepared task, if the response is accepted. -/
def InitThread.run (info : TaskInfo κ) (code contentLength : Int) (directory header : String) :
    Option (TaskInfo κ) :=
  if code = 200 ∧ 0 < contentLength then
    let filePath := if isEmpty info.filePath then directory else info.filePath.getD ""
    -- The result of `trim` is not used.
    let fileName := if isEmpty info.fileName then afterLastSlash info.url else info.fileName.getD ""
    some { info with
      lenght := contentLength
      filePath := some filePath
      fileName := some (if isEmpty (some fileName) then header else fileName) }
  else none

namespace Service

/-- The first listed task of a URL, with its place. -/
def find? (w : Service κ) (url : String) : Option (Nat × Entry κ) := do
  let k ← w.tasks.findIdx? fun entry => entry.listed && decide (entry.task.taskInfo.url = url)
  let entry ← w.tasks[k]?
  pure (k, entry)

def download (w : Service κ) (info : TaskInfo κ) : Service κ :=
  match w.find? info.url with
  | some (k, entry) =>
    let w := { w with merged := w.merged ++ [(info, entry.request)] }
    if entry.task.isPause then
      let started := entry.task.restart w.rows
      { w with tasks := w.tasks.set k { entry with task := started.1 }, rows := started.2 }
    else w
  | none => { w with inits := w.inits ++ [info] }

def pause (w : Service κ) (url : String) : Service κ :=
  match w.find? url with
  | some (k, entry) => { w with tasks := w.tasks.set k { entry with task := entry.task.pause } }
  | none => w

def onLowMemory (w : Service κ) : Service κ :=
  { w with tasks := w.tasks.map fun entry =>
      if entry.listed then { entry with task := entry.task.pause } else entry }

/-- The end of the `i`-th `InitThread`, with the task it has prepared. -/
def endInit (w : Service κ) (i : Nat) (prepare : TaskInfo κ → Option (TaskInfo κ)) : Option (Service κ) :=
  (w.inits[i]?).map fun request =>
    let w := { w with inits := w.inits.eraseIdx i }
    match prepare request with
    | none => w
    | some info =>
      { w with queue := w.queue ++ [.init request info]
               disk := Function.update w.disk info.file
                (setLength 0 (w.disk info.file) info.lenght.toNat) }

/-- The handler of the service, and for `MSG_DOWNLOADING` that of the task. -/
def handleMessage (w : Service κ) : Message κ → Service κ
  | .init request info =>
    let started := (DownloadTask.create info 1).downlaod w.rows
    { w with tasks := w.tasks ++ [{ request, task := started.1 }], rows := started.2 }
  | .downloading k progress =>
    match w.tasks[k]? with
    | none => w
    | some entry =>
      if entry.task.taskInfo.download.isSome ∧ progress ≥ 100 then
        { w with tasks := w.tasks.set k { entry with completions := entry.completions + 1 }
                 broadcasts := w.broadcasts ++ [entry.task.taskInfo.url]
                 rows := deleteThread w.rows entry.task.taskInfo.url }
      else w
  | .downloadFinished url =>
    match w.find? url with
    | some (k, entry) => { w with tasks := w.tasks.set k { entry with listed := false } }
    | none => w
  | .bindSuccess => w

def step (w : Service κ) : ServiceEvent κ → Option (Service κ)
  | .download info => some (w.download info)
  | .pause url => some (w.pause url)
  | .lowMemory => some w.onLowMemory
  | .initThread i code contentLength directory header =>
    w.endInit i fun request => InitThread.run request code contentLength directory header
  | .initFails i => w.endInit i fun _ => none
  | .dispatch =>
    match w.queue with
    | [] => none
    | message :: rest => some ({ w with queue := rest }.handleMessage message)
  | .broadcast i => (w.broadcasts[i]?).map fun url =>
    { w with broadcasts := w.broadcasts.eraseIdx i, queue := w.queue ++ [.downloadFinished url] }
  | .thread k i event => do
    let entry ← w.tasks[k]?
    let outcome ← entry.task.runThread floatProgress w.rows (w.disk entry.task.taskInfo.file) i event
    pure { w with
      tasks := w.tasks.set k { entry with
        task := outcome.task, writes := entry.writes ++ outcome.written.toList }
      rows := outcome.rows
      disk := Function.update w.disk entry.task.taskInfo.file outcome.file
      queue := w.queue ++ outcome.posted.toList.map (.downloading k) }
  | .killed => some { rows := w.rows, disk := w.disk }

theorem of_find? {w : Service κ} {url : String} {k : Nat} {entry : Entry κ}
    (found : w.find? url = some (k, entry)) :
    w.tasks[k]? = some entry ∧ entry.listed = true ∧ entry.task.taskInfo.url = url := by
  simp only [find?, Option.bind_eq_bind, Option.bind_eq_some_iff, Option.pure_def, Option.some.injEq,
    Prod.mk.injEq] at found
  obtain ⟨place, first, entry', present, rfl, rfl⟩ := found
  obtain ⟨bound, holds, -⟩ := List.findIdx?_eq_some_iff_getElem.mp first
  rw [List.getElem?_eq_getElem bound, Option.some.injEq] at present
  subst present
  simpa using holds

theorem find?_eq_none {w : Service κ} {url : String} (absent : w.find? url = none) {entry : Entry κ}
    (member : entry ∈ w.tasks) (listed : entry.listed = true) : entry.task.taskInfo.url ≠ url := by
  intro same
  cases first : w.tasks.findIdx? fun entry => entry.listed && decide (entry.task.taskInfo.url = url) with
  | none =>
    have none_of := List.findIdx?_eq_none_iff.mp first entry member
    simp [listed, same] at none_of
  | some k =>
    have bound := (List.findIdx?_eq_some_iff_getElem.mp first).1
    simp [find?, first, bound] at absent

end Service

/-- What one step of the service can be, guards included. -/
inductive Stepped (w : Service κ) : ServiceEvent κ → Service κ → Prop
  | restarted (info : TaskInfo κ) (k : Nat) (entry : Entry κ) (found : w.find? info.url = some (k, entry))
      (paused : entry.task.isPause = true) :
      Stepped w (.download info)
        { w with tasks := w.tasks.set k { entry with task := (entry.task.restart w.rows).1 }
                 rows := (entry.task.restart w.rows).2
                 merged := w.merged ++ [(info, entry.request)] }
  | ignored (info : TaskInfo κ) (k : Nat) (entry : Entry κ) (found : w.find? info.url = some (k, entry))
      (unpaused : entry.task.isPause = false) :
      Stepped w (.download info) { w with merged := w.merged ++ [(info, entry.request)] }
  | requested (info : TaskInfo κ) (absent : w.find? info.url = none) :
      Stepped w (.download info) { w with inits := w.inits ++ [info] }
  | pausedTask (url : String) (k : Nat) (entry : Entry κ) (found : w.find? url = some (k, entry)) :
      Stepped w (.pause url) { w with tasks := w.tasks.set k { entry with task := entry.task.pause } }
  | pausedNothing (url : String) (absent : w.find? url = none) : Stepped w (.pause url) w
  | lowMemory : Stepped w .lowMemory w.onLowMemory
  | prepared (i : Nat) (request info : TaskInfo κ) (code contentLength : Int) (directory header : String)
      (waiting : w.inits[i]? = some request)
      (accepted : InitThread.run request code contentLength directory header = some info) :
      Stepped w (.initThread i code contentLength directory header)
        { w with inits := w.inits.eraseIdx i
                 queue := w.queue ++ [.init request info]
                 disk := Function.update w.disk info.file (setLength 0 (w.disk info.file) info.lenght.toNat) }
  | notPrepared (event : ServiceEvent κ) (i : Nat) (request : TaskInfo κ) (waiting : w.inits[i]? = some request)
      (ended : event = .initFails i ∨ ∃ code contentLength directory header,
        event = .initThread i code contentLength directory header ∧
          InitThread.run request code contentLength directory header = none) :
      Stepped w event { w with inits := w.inits.eraseIdx i }
  | created (request info : TaskInfo κ) (rest : List (Message κ)) (first : w.queue = .init request info :: rest) :
      Stepped w .dispatch
        { w with queue := rest
                 tasks := w.tasks ++ [{ request, task := ((DownloadTask.create info 1).downlaod w.rows).1 }]
                 rows := ((DownloadTask.create info 1).downlaod w.rows).2 }
  | completed (k : Nat) (progress : Int) (rest : List (Message κ)) (entry : Entry κ)
      (first : w.queue = .downloading k progress :: rest) (present : w.tasks[k]? = some entry)
      (called : entry.task.taskInfo.download.isSome) (full : 100 ≤ progress) :
      Stepped w .dispatch
        { w with queue := rest
                 tasks := w.tasks.set k { entry with completions := entry.completions + 1 }
                 broadcasts := w.broadcasts ++ [entry.task.taskInfo.url]
                 rows := deleteThread w.rows entry.task.taskInfo.url }
  | progressed (k : Nat) (progress : Int) (rest : List (Message κ))
      (first : w.queue = .downloading k progress :: rest)
      (unfinished : ∀ entry, w.tasks[k]? = some entry → entry.task.taskInfo.download.isSome → progress < 100) :
      Stepped w .dispatch { w with queue := rest }
  | unlisted (url : String) (rest : List (Message κ)) (k : Nat) (entry : Entry κ)
      (first : w.queue = .downloadFinished url :: rest) (found : w.find? url = some (k, entry)) :
      Stepped w .dispatch { w with queue := rest, tasks := w.tasks.set k { entry with listed := false } }
  | unlistedNothing (url : String) (rest : List (Message κ)) (first : w.queue = .downloadFinished url :: rest)
      (absent : w.find? url = none) :
      Stepped w .dispatch { w with queue := rest }
  | bindSuccess (rest : List (Message κ)) (first : w.queue = .bindSuccess :: rest) :
      Stepped w .dispatch { w with queue := rest }
  | broadcast (i : Nat) (url : String) (sent : w.broadcasts[i]? = some url) :
      Stepped w (.broadcast i)
        { w with broadcasts := w.broadcasts.eraseIdx i, queue := w.queue ++ [.downloadFinished url] }
  | ran (k i : Nat) (event : ThreadEvent) (entry : Entry κ) (thread thread' : DownloadThread) (action : Action)
      (outcome : DownloadTask.Outcome κ) (present : w.tasks[k]? = some entry)
      (started : entry.task.threads[i]? = some thread)
      (ran : Ran entry.task.isPause thread.threadInfo thread.phase event thread' action)
      (performed : Performed floatProgress entry.task w.rows (w.disk entry.task.taskInfo.file) i thread' action outcome) :
      Stepped w (.thread k i event)
        { w with tasks := w.tasks.set k { entry with
                   task := outcome.task, writes := entry.writes ++ outcome.written.toList }
                 rows := outcome.rows
                 disk := Function.update w.disk entry.task.taskInfo.file outcome.file
                 queue := w.queue ++ outcome.posted.toList.map (.downloading k) }
  | killed : Stepped w .killed { rows := w.rows, disk := w.disk }

theorem stepped_of_step {w w' : Service κ} {event : ServiceEvent κ} (taken : w.step event = some w') :
    Stepped w event w' := by
  cases event with
  | download info =>
    cases taken
    unfold Service.download
    cases found : w.find? info.url with
    | none => exact .requested info found
    | some both =>
      cases paused : both.2.task.isPause with
      | true => simpa [paused] using Stepped.restarted info both.1 both.2 found paused
      | false => simpa [paused] using Stepped.ignored info both.1 both.2 found paused
  | pause url =>
    cases taken
    unfold Service.pause
    cases found : w.find? url with
    | none => exact .pausedNothing url found
    | some both => exact .pausedTask url both.1 both.2 found
  | lowMemory =>
    cases taken
    exact .lowMemory
  | initThread i code contentLength directory header =>
    obtain ⟨request, waiting, rfl⟩ := Option.map_eq_some_iff.mp taken
    cases accepted : InitThread.run request code contentLength directory header with
    | none =>
      simp only [accepted]
      exact .notPrepared _ i request waiting (Or.inr ⟨_, _, _, _, rfl, accepted⟩)
    | some info =>
      simp only [accepted]
      exact .prepared i request info code contentLength directory header waiting accepted
  | initFails i =>
    obtain ⟨request, waiting, rfl⟩ := Option.map_eq_some_iff.mp taken
    exact .notPrepared _ i request waiting (Or.inl rfl)
  | dispatch =>
    simp only [Service.step] at taken
    cases first : w.queue with
    | nil => simp [first] at taken
    | cons message rest =>
      simp only [first, Option.some.injEq] at taken
      subst taken
      cases message with
      | init request info => exact .created request info rest first
      | downloading k progress =>
        simp only [Service.handleMessage]
        cases present : w.tasks[k]? with
        | none =>
          apply Stepped.progressed k progress rest first
          intro entry
          simp [present]
        | some entry =>
          by_cases full : entry.task.taskInfo.download.isSome ∧ progress ≥ 100
          · simpa [full] using Stepped.completed k progress rest entry first present full.1 full.2
          · simp only [full, if_false]
            apply Stepped.progressed k progress rest first
            intro entry' present' called
            cases present.symm.trans present'
            exact not_le.mp fun complete => full ⟨called, complete⟩
      | downloadFinished url =>
        cases found : w.find? url with
        | none =>
          have same : ({ w with queue := rest } : Service κ).find? url = none := found
          simpa [Service.handleMessage, same] using Stepped.unlistedNothing url rest first found
        | some both =>
          have same : ({ w with queue := rest } : Service κ).find? url = some both := found
          simpa [Service.handleMessage, same] using Stepped.unlisted url rest both.1 both.2 first found
      | bindSuccess => exact .bindSuccess rest first
  | broadcast i =>
    obtain ⟨url, sent, rfl⟩ := Option.map_eq_some_iff.mp taken
    exact .broadcast i url sent
  | thread k i event =>
    simp only [Service.step, Option.bind_eq_bind, Option.bind_eq_some_iff, Option.pure_def,
      Option.some.injEq] at taken
    obtain ⟨entry, present, outcome, run, rfl⟩ := taken
    obtain ⟨thread, thread', action, started, taken, performed⟩ := performed_run run
    exact .ran k i event entry thread thread' action outcome present started (ran_of_run taken) performed
  | killed =>
    cases taken
    exact .killed

end AdTerminal.Download
