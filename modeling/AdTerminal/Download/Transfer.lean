import AdTerminal.Download.DownloadTask
import Mathlib.Tactic.Ring

/-! One task at work: its threads, the main thread that handles its progress messages, and
requests to pause it and to go on. What every thread keeps to, however the server cuts the
file, is that the bytes counted in its segment are those of the resource. -/

namespace AdTerminal.Download
open Transition RandomAccess

variable {κ : Type}

/-- A task with its file and the table. `inbox` are the progress messages still to be
handled. The last three fields are history: all progress posted, all writes, and the file
at each call of `onDownloadFinished`. -/
structure Transfer (κ : Type) where
  task : DownloadTask κ
  rows : List ThreadInfo
  file : List UInt8
  inbox : List Int := []
  posted : List Int := []
  writes : List (Nat × List UInt8) := []
  finishedFiles : List (List UInt8) := []

inductive TransferEvent where
  /-- The `i`-th thread of the task takes a step. -/
  | thread (i : Nat) (event : ThreadEvent)
  | pause
  /-- The URL is requested again. -/
  | download
  /-- The handler of the task takes its next message. -/
  | dispatch

namespace Transfer

/-- A task started by `MSG_INIT` on the file its `InitThread` has prepared. -/
def begin (taskInfo : TaskInfo κ) (threadCount : Int) (rows : List ThreadInfo) (file : List UInt8) :
    Transfer κ :=
  let started := (DownloadTask.create taskInfo threadCount).downlaod rows
  { task := started.1, rows := started.2, file := setLength 0 file taskInfo.lenght.toNat }

def download (w : Transfer κ) : Transfer κ :=
  if w.task.isPause then
    let started := w.task.restart w.rows
    { w with task := started.1, rows := started.2 }
  else w

/-- The handler of `DownloadTask.init`. -/
def dispatchMessage (w : Transfer κ) (progress : Int) : Transfer κ :=
  match w.task.taskInfo.download with
  | none => w
  | some _ =>
    if progress ≥ 100 then
      { w with finishedFiles := w.finishedFiles ++ [w.file]
               rows := deleteThread w.rows w.task.taskInfo.url }
    else w

def step (progress : Int → Int → Int) (w : Transfer κ) : TransferEvent → Option (Transfer κ)
  | .thread i event => (w.task.runThread progress w.rows w.file i event).map fun outcome =>
    { w with task := outcome.task, rows := outcome.rows, file := outcome.file
             inbox := w.inbox ++ outcome.posted.toList
             posted := w.posted ++ outcome.posted.toList
             writes := w.writes ++ outcome.written.toList }
  | .pause => some { w with task := w.task.pause }
  | .download => some w.download
  | .dispatch =>
    match w.inbox with
    | [] => none
    | message :: rest => some ({ w with inbox := rest }.dispatchMessage message)

end Transfer

/-- What one step of a thread can be, guards included. -/
inductive Ran (isPause : Bool) (info : ThreadInfo) : Phase → ThreadEvent → DownloadThread → Action → Prop
  | accepted (code : Int) (body : List UInt8) (seeks : 0 ≤ int (info.start + info.finished))
      (served : code = 206 ∨ code = 200) :
      Ran isPause info .queued (.respond code body)
        ⟨info, .reading (int (info.start + info.finished)).toNat body⟩ .none
  | refused (code : Int) (body : List UInt8)
      (throws : ¬ (0 ≤ int (info.start + info.finished) ∧ (code = 206 ∨ code = 200))) :
      Ran isPause info .queued (.respond code body) ⟨info, .ended⟩ .none
  | read (pointer length : Nat) (body : List UInt8) (some_bytes : 0 < length) (held : length ≤ body.length) :
      Ran isPause info (.reading pointer body) (.read length)
        ⟨info, .writing pointer (body.drop length) (body.take length)⟩ .none
  | endOfStream (pointer : Nat) (body : List UInt8) :
      Ran isPause info (.reading pointer body) .endOfStream ⟨info, .closing⟩ .none
  | wrote (pointer : Nat) (body buffer : List UInt8) :
      Ran isPause info (.writing pointer body buffer) .proceed
        ⟨{ info with finished := int (info.finished + buffer.length) }, .timing (pointer + buffer.length) body⟩
        (.write pointer buffer)
  | clock (pointer : Nat) (body : List UInt8) (late : Bool) :
      Ran isPause info (.timing pointer body) (.clock late) ⟨info, .polling pointer body⟩
        (if late then .notifyProgress else .none)
  | polled (pointer : Nat) (body : List UInt8) :
      Ran isPause info (.polling pointer body) .proceed
        ⟨info, if isPause then .pausing else .reading pointer body⟩ .none
  | pausing : Ran isPause info .pausing .proceed ⟨info, .saving⟩ .notifyProgress
  | saving : Ran isPause info .saving .proceed ⟨info, .ended⟩ .updateThread
  | closing : Ran isPause info .closing .proceed ⟨info, .ended⟩ .notifyProgress
  | failed (phase : Phase) (throws : phase = .queued ∨ (∃ pointer body, phase = .reading pointer body) ∨
      ∃ pointer body buffer, phase = .writing pointer body buffer) :
      Ran isPause info phase .fail ⟨info, .ended⟩ .none

theorem ran_of_run {isPause : Bool} {thread thread' : DownloadThread} {event : ThreadEvent} {action : Action}
    (taken : thread.run isPause event = some (thread', action)) :
    Ran isPause thread.threadInfo thread.phase event thread' action := by
  obtain ⟨info, phase⟩ := thread
  cases event with
  | respond code body =>
    cases phase <;> simp only [DownloadThread.run, reduceCtorEq] at taken
    split at taken
    next both =>
      cases taken
      exact .accepted code body both.1 both.2
    next neither =>
      cases taken
      exact .refused code body neither
  | read length =>
    cases phase <;> simp only [DownloadThread.run, reduceCtorEq, Option.ite_none_right_eq_some] at taken
    obtain ⟨⟨positive, -, held⟩, same⟩ := taken
    cases same
    exact .read _ length _ positive held
  | endOfStream =>
    cases phase <;> simp only [DownloadThread.run, reduceCtorEq] at taken
    cases taken
    exact .endOfStream _ _
  | clock late =>
    cases phase <;> simp only [DownloadThread.run, reduceCtorEq] at taken
    cases taken
    exact .clock _ _ late
  | proceed =>
    cases phase <;> simp only [DownloadThread.run, reduceCtorEq] at taken <;> cases taken
    · exact .wrote _ _ _
    · exact .polled _ _
    · exact .pausing
    · exact .saving
    · exact .closing
  | fail =>
    cases phase <;> simp only [DownloadThread.run, reduceCtorEq] at taken <;> cases taken
    · exact .failed _ (Or.inl rfl)
    · exact .failed _ (Or.inr (Or.inl ⟨_, _, rfl⟩))
    · exact .failed _ (Or.inr (Or.inr ⟨_, _, _, rfl⟩))

/-- A step never moves a segment, only its count. -/
theorem threadInfo_of_ran {isPause : Bool} {info : ThreadInfo} {phase : Phase} {event : ThreadEvent}
    {thread' : DownloadThread} {action : Action} (ran : Ran isPause info phase event thread' action) :
    ∃ finished, thread'.threadInfo = { info with finished } := by
  cases ran <;> exact ⟨_, rfl⟩

end AdTerminal.Download
