import AdTerminal.Library.Binary32
import AdTerminal.Library.RandomAccess
import AdTerminal.Library.Transition

/-! One download. `downlaod` cuts the file into segments or takes those left in the
`thread_info` table, and starts a `DownloadThread` for each; the threads write the file,
count their bytes in one shared array and post the progress it adds up to. -/

namespace AdTerminal.Download
open RandomAccess

/-- A value in Java's `int`, which wraps around at 32 bits. -/
def int (value : Int) : Int := value.bmod (2 ^ 32)

/-- The segment of one thread, in memory and as a row of `thread_info`. Both bounds are inclusive. -/
structure ThreadInfo where
  id : Int
  url : String
  start : Int
  end_ : Int
  finished : Int
  deriving DecidableEq, Repr

/-- One request. `κ` stands for the callback objects. -/
structure TaskInfo (κ : Type) where
  url : String
  filePath : Option String
  fileName : Option String
  lenght : Int
  download : Option κ
  deriving DecidableEq, Repr

/-! `ThreadDAOImpl`, on the rows of `thread_info` in the order of insertion. -/

def getThread (rows : List ThreadInfo) (url : String) : List ThreadInfo :=
  rows.filter fun row => row.url = url

def insertThread (rows : List ThreadInfo) (info : ThreadInfo) : List ThreadInfo := rows ++ [info]

def deleteThread (rows : List ThreadInfo) (url : String) : List ThreadInfo :=
  rows.filter fun row => row.url ≠ url

theorem foldl_insertThread (infos rows : List ThreadInfo) :
    infos.foldl insertThread rows = rows ++ infos := by
  induction infos generalizing rows with
  | nil => simp
  | cons info infos ih => simp [ih, insertThread]

def updateThread (rows : List ThreadInfo) (url : String) (thread_id finished : Int) : List ThreadInfo :=
  rows.map fun row => if row.url = url ∧ row.id = thread_id then { row with finished } else row

theorem getThread_append (rows rows' : List ThreadInfo) (url : String) :
    getThread (rows ++ rows') url = getThread rows url ++ getThread rows' url :=
  List.filter_append ..

theorem getThread_eq_self {rows : List ThreadInfo} {url : String} (own : ∀ row ∈ rows, row.url = url) :
    getThread rows url = rows :=
  List.filter_eq_self.mpr fun row member => decide_eq_true (own row member)

theorem getThread_eq_nil {rows : List ThreadInfo} {url : String} (other : ∀ row ∈ rows, row.url ≠ url) :
    getThread rows url = [] :=
  List.filter_eq_nil_iff.mpr fun row member => by simpa using other row member

/-- An update keeps the URL of every row. -/
theorem getThread_updateThread (rows : List ThreadInfo) (url url' : String) (thread_id finished : Int) :
    getThread (updateThread rows url thread_id finished) url' =
      updateThread (getThread rows url') url thread_id finished := by
  simp only [getThread, updateThread, List.filter_map]
  congr 2
  funext row
  simp only [Function.comp_apply]
  split <;> rfl

theorem getThread_deleteThread (rows : List ThreadInfo) (url : String) :
    getThread (deleteThread rows url) url = [] :=
  getThread_eq_nil fun _ member => of_decide_eq_true (List.mem_filter.mp member).2

theorem getThread_deleteThread_of_ne (rows : List ThreadInfo) {url url' : String} (other : url' ≠ url) :
    getThread (deleteThread rows url) url' = getThread rows url' := by
  simp only [getThread, deleteThread, List.filter_filter]
  apply List.filter_congr
  intro row _
  by_cases own : row.url = url' <;> simp [own, other]

/-- How far `run` has come. `pointer` is the file pointer, `body` what is left of the
response and `buffer` what the last read returned. -/
inductive Phase where
  /-- The thread waits in the pool, or for the response. -/
  | queued
  | reading (pointer : Nat) (body : List UInt8)
  | writing (pointer : Nat) (body buffer : List UInt8)
  /-- The buffer is written, and the clock is read next. -/
  | timing (pointer : Nat) (body : List UInt8)
  /-- `isPause` is read next. -/
  | polling (pointer : Nat) (body : List UInt8)
  | pausing
  | saving
  /-- The stream has ended, and the last progress is to be posted. -/
  | closing
  | ended
  deriving DecidableEq, Repr

/-- A `DownloadThread`. The local variable `finished` of `run` is the one of its segment:
both are always set together. -/
structure DownloadThread where
  threadInfo : ThreadInfo
  phase : Phase
  deriving DecidableEq, Repr

inductive ThreadEvent where
  /-- The response code and, for an accepted one, the body. -/
  | respond (code : Int) (body : List UInt8)
  /-- `read` fills the buffer with that many bytes. -/
  | read (length : Nat)
  | endOfStream
  /-- The clock is read, and tells whether two seconds have passed. -/
  | clock (late : Bool)
  /-- The next statement is executed. -/
  | proceed
  /-- The statement throws an `IOException`. -/
  | fail
  deriving DecidableEq, Repr

/-- What a step of a thread does outside it. -/
inductive Action where
  | none
  | write (pointer : Nat) (bytes : List UInt8)
  | notifyProgress
  | updateThread
  deriving DecidableEq, Repr

/-- The first byte a thread asks for, and its first file pointer. -/
def DownloadThread.position (thread : DownloadThread) : Int :=
  int (thread.threadInfo.start + thread.threadInfo.finished)

/-- `DownloadThread.run`, one shared access at a time. -/
def DownloadThread.run (isPause : Bool) (thread : DownloadThread) :
    ThreadEvent → Option (DownloadThread × Action)
  | .respond code body =>
    match thread.phase with
    | .queued =>
      -- `seek` throws on a negative position, before the response code is looked at.
      if 0 ≤ thread.position ∧ (code = 206 ∨ code = 200) then
        some ({ thread with phase := .reading thread.position.toNat body }, .none)
      else some ({ thread with phase := .ended }, .none)
    | _ => none
  | .read length =>
    match thread.phase with
    | .reading pointer body =>
      if 0 < length ∧ length ≤ 1024 * 4 ∧ length ≤ body.length then
        some ({ thread with phase := .writing pointer (body.drop length) (body.take length) }, .none)
      else none
    | _ => none
  | .endOfStream =>
    match thread.phase with
    | .reading _ _ => some ({ thread with phase := .closing }, .none)
    | _ => none
  | .clock late =>
    match thread.phase with
    | .timing pointer body =>
      some ({ thread with phase := .polling pointer body }, if late then .notifyProgress else .none)
    | _ => none
  | .proceed =>
    match thread.phase with
    | .writing pointer body buffer =>
      let finished := int (thread.threadInfo.finished + buffer.length)
      some ({ threadInfo := { thread.threadInfo with finished },
              phase := .timing (pointer + buffer.length) body }, .write pointer buffer)
    | .polling pointer body =>
      some ({ thread with phase := if isPause then .pausing else .reading pointer body }, .none)
    | .pausing => some ({ thread with phase := .saving }, .notifyProgress)
    | .saving => some ({ thread with phase := .ended }, .updateThread)
    | .closing => some ({ thread with phase := .ended }, .notifyProgress)
    | _ => none
  | .fail =>
    match thread.phase with
    | .queued | .reading .. | .writing .. => some ({ thread with phase := .ended }, .none)
    | _ => none

/-- The thread is queued or running. -/
def DownloadThread.Live (thread : DownloadThread) : Prop := thread.phase ≠ .ended

instance (thread : DownloadThread) : Decidable thread.Live := inferInstanceAs (Decidable (_ ≠ _))

/-- A `DownloadTask` with the threads it has started. -/
structure DownloadTask (κ : Type) where
  taskInfo : TaskInfo κ
  isPause : Bool := false
  threadCount : Nat
  totalFinished : List Int
  threads : List DownloadThread := []
  deriving DecidableEq, Repr

namespace DownloadTask

variable {κ : Type}

def defaultThreadCount : Nat := 3

/-- The constructor, with `init`. -/
def create (taskInfo : TaskInfo κ) (threadCount : Int) : DownloadTask κ :=
  let count := if threadCount > 0 then threadCount.toNat else defaultThreadCount
  { taskInfo, threadCount := count, totalFinished := List.replicate count 0 }

/-- The segments of a file without rows. No bound exceeds the length, so none wraps. -/
def segments (taskInfo : TaskInfo κ) (threadCount : Nat) : List ThreadInfo :=
  let block := taskInfo.lenght.tdiv threadCount
  if block > 0 then
    (List.range threadCount).map fun (i : Nat) =>
      { id := i, url := taskInfo.url, start := i * block
        end_ := if i = threadCount - 1 then taskInfo.lenght else (i + 1) * block - 1
        finished := 0 }
  else [{ id := 0, url := taskInfo.url, start := 0, end_ := taskInfo.lenght, finished := 0 }]

theorem segments_one {taskInfo : TaskInfo κ} (positive : 0 < taskInfo.lenght) :
    segments taskInfo 1 =
      [{ id := 0, url := taskInfo.url, start := 0, end_ := taskInfo.lenght, finished := 0 }] := by
  simp [segments, positive]

/-- The segments `downlaod` starts threads for. -/
def threadInfoList (task : DownloadTask κ) (rows : List ThreadInfo) : List ThreadInfo :=
  let stored := getThread rows task.taskInfo.url
  if stored.length ≤ 0 then segments task.taskInfo task.threadCount else stored

/-- `downlaod`: the task with its new threads, and the rows. -/
def downlaod (task : DownloadTask κ) (rows : List ThreadInfo) : DownloadTask κ × List ThreadInfo :=
  let infos := task.threadInfoList rows
  ({ task with threads := task.threads ++ infos.map fun threadInfo => { threadInfo, phase := .queued } },
    if (getThread rows task.taskInfo.url).length ≤ 0 then infos.foldl insertThread rows else rows)

def pause (task : DownloadTask κ) : DownloadTask κ := { task with isPause := true }

def restart (task : DownloadTask κ) (rows : List ThreadInfo) : DownloadTask κ × List ThreadInfo :=
  { task with isPause := false }.downlaod rows

/-- `notifyProgress`: the task with its updated array and the progress it posts. How the
two numbers make a progress is a parameter. -/
def notifyProgress (progress : Int → Int → Int) (task : DownloadTask κ) (threadId finished : Int) :
    DownloadTask κ × Option Int :=
  if 0 ≤ threadId ∧ threadId < task.totalFinished.length then
    let totalFinished := task.totalFinished.set threadId.toNat finished
    let nowFinished := totalFinished.foldl (fun now total => int (now + total)) 0
    ({ task with totalFinished }, some (progress nowFinished task.taskInfo.lenght))
  else (task, none)

/-- A task after a step of one of its threads, with what the step changed around it. -/
structure Outcome (κ : Type) where
  task : DownloadTask κ
  rows : List ThreadInfo
  file : List UInt8
  posted : Option Int := none
  written : Option (Nat × List UInt8) := none

def perform (progress : Int → Int → Int) (task : DownloadTask κ) (rows : List ThreadInfo) (file : List UInt8)
    (thread : DownloadThread) : Action → Outcome κ
  | .none => { task, rows, file }
  | .write pointer bytes => { task, rows, file := writeAt 0 file pointer bytes, written := some (pointer, bytes) }
  | .notifyProgress =>
    let notified := task.notifyProgress progress thread.threadInfo.id thread.threadInfo.finished
    { task := notified.1, rows, file, posted := notified.2 }
  | .updateThread =>
    { task, file
      rows := Download.updateThread rows thread.threadInfo.url thread.threadInfo.id thread.threadInfo.finished }

/-- A step of the `i`-th thread the task has started. -/
def runThread (progress : Int → Int → Int) (task : DownloadTask κ) (rows : List ThreadInfo)
    (file : List UInt8)
    (i : Nat) (event : ThreadEvent) : Option (Outcome κ) := do
  let thread ← task.threads[i]?
  let (thread, action) ← thread.run task.isPause event
  pure (perform progress { task with threads := task.threads.set i thread } rows file thread action)

end DownloadTask

/-- The progress as the code computes it, in 32-bit floats. -/
def floatProgress (nowFinished lenght : Int) : Int :=
  Binary32.truncate (Binary32.round (Binary32.round (Binary32.round nowFinished / Binary32.round lenght) * 100))

/-- While the converted count is below the converted length, the progress is below 100:
neither the division nor the product rounds up to it. -/
theorem floatProgress_lt {nowFinished lenght : Int} (nonneg : 0 ≤ nowFinished)
    (less : Binary32.round nowFinished < Binary32.round lenght) : floatProgress nowFinished lenght < 100 := by
  rcases nonneg.eq_or_lt with rfl | positive
  · simp [floatProgress, Binary32.truncate]
  · have now_pos : (0 : ℚ) < nowFinished := by exact_mod_cast positive
    have length_pos : (0 : ℚ) < lenght := by
      by_contra nonpos
      have rounded := Binary32.round_pos now_pos
      have order : Binary32.round lenght ≤ 0 := Binary32.round_nonpos (not_lt.mp nonpos)
      linarith
    have held := Binary32.representable_round now_pos
    have held' := Binary32.representable_round length_pos
    have now_round := Binary32.round_pos now_pos
    have quotient := Binary32.round_div_le held held' now_round less
    have positive_quotient := Binary32.round_pos (div_pos now_round (Binary32.round_pos length_pos))
    have product := Binary32.round_pos (mul_pos positive_quotient (by norm_num : (0 : ℚ) < 100))
    apply Binary32.truncate_lt product.le _ (by norm_num)
    exact_mod_cast Binary32.round_hundred_lt positive_quotient quotient

/-- Otherwise it is at least 100. -/
theorem le_floatProgress {nowFinished lenght : Int} (positive : 0 < lenght)
    (order : Binary32.round lenght ≤ Binary32.round nowFinished) :
    100 ≤ floatProgress nowFinished lenght := by
  have length_pos : (0 : ℚ) < lenght := by exact_mod_cast positive
  have rounded := Binary32.round_pos length_pos
  have quotient : 1 ≤ Binary32.round (Binary32.round nowFinished / Binary32.round lenght) :=
    Binary32.le_round one_pos ((one_le_div rounded).mpr order) ⟨1, 0, by norm_num, by norm_num⟩
  have product : 100 ≤ Binary32.round
      (Binary32.round (Binary32.round nowFinished / Binary32.round lenght) * 100) :=
    Binary32.le_round (by norm_num) (by linarith) ⟨100, 0, by norm_num, by norm_num⟩
  exact Binary32.le_truncate (by norm_num) (by exact_mod_cast product) (by norm_num)

/-- When all bytes are counted, the progress is at least 100. -/
theorem le_floatProgress_of_le {nowFinished lenght : Int} (positive : 0 < lenght)
    (le : lenght ≤ nowFinished) :
    100 ≤ floatProgress nowFinished lenght := by
  have length_pos : (0 : ℚ) < lenght := by exact_mod_cast positive
  exact le_floatProgress positive (Binary32.round_mono length_pos (by exact_mod_cast le))

/-- The same with exact fractions. -/
def exactProgress (nowFinished lenght : Int) : Int := (nowFinished * 100).tdiv lenght

end AdTerminal.Download
