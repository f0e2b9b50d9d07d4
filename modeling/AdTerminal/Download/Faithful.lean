import AdTerminal.Download.Transfer

/-! Threads that keep to the resource. As long as the server answers a range with the bytes
of that range, the part of the file that a segment counts as finished holds the resource,
and the file pointer and what is left of the response stand right behind it. -/

namespace AdTerminal.Download
open Transition RandomAccess

variable {κ : Type} {resource file : List UInt8} {info : ThreadInfo} {isPause : Bool}

theorem int_of_range {value : Int} (lower : -2 ^ 31 ≤ value) (upper : value < 2 ^ 31) : int value = value :=
  Int.bmod_eq_of_le_mul_two (by omega) (by omega)

/-- The end of a segment, cut at the end of the resource. -/
def ThreadInfo.stop (resource : List UInt8) (info : ThreadInfo) : Int := min (info.end_ + 1) resource.length

/-- The bytes of a segment from a position of the file on. -/
def ThreadInfo.rest (resource : List UInt8) (info : ThreadInfo) (pointer : Nat) : List UInt8 :=
  (resource.take (info.stop resource).toNat).drop pointer

/-- The positions a segment counts as finished. -/
def ThreadInfo.counted (info : ThreadInfo) : Set Nat :=
  {p | info.start ≤ p ∧ (p : Int) < info.start + info.finished}

/-- The finished part of a segment lies inside it and holds the resource. -/
structure ThreadInfo.Sound (resource file : List UInt8) (info : ThreadInfo) : Prop where
  start_nonneg : 0 ≤ info.start
  finished_nonneg : 0 ≤ info.finished
  within : info.start + info.finished ≤ info.stop resource
  agree : AgreeOn file resource info.counted

/-- The next byte to be written is the first one not counted yet. -/
def Ahead (resource : List UInt8) (info : ThreadInfo) : Phase → Prop
  | .reading pointer body | .timing pointer body | .polling pointer body =>
    (pointer : Int) = info.start + info.finished ∧ body = info.rest resource pointer
  | .writing pointer body buffer =>
    (pointer : Int) = info.start + info.finished ∧ buffer ++ body = info.rest resource pointer
  | .queued | .pausing | .saving | .closing | .ended => True

structure DownloadThread.Sound (resource file : List UInt8) (thread : DownloadThread) : Prop where
  segment : thread.threadInfo.Sound resource file
  ahead : Ahead resource thread.threadInfo thread.phase

/-- An accepted response carries the bytes of the segment from the requested one on. -/
def Answers (resource : List UInt8) (info : ThreadInfo) : ThreadEvent → Prop
  | .respond code body => code = 206 ∨ code = 200 → body = info.rest resource (int (info.start + info.finished)).toNat
  | _ => True

/-- The file after a step. -/
def Action.onFile (file : List UInt8) : Action → List UInt8
  | .write pointer bytes => writeAt 0 file pointer bytes
  | _ => file

/-- What a step writes. -/
def Action.written : Action → List (Nat × List UInt8)
  | .write pointer bytes => [(pointer, bytes)]
  | _ => []

/-- Every position that agrees in one file agrees in the other. -/
def Keeps (resource before after : List UInt8) : Prop :=
  ∀ positions, AgreeOn before resource positions → AgreeOn after resource positions

theorem Keeps.refl (resource file : List UInt8) : Keeps resource file file := fun _ agree => agree

theorem ThreadInfo.Sound.mono {after : List UInt8} (sound : info.Sound resource file)
    (keeps : Keeps resource file after) : info.Sound resource after :=
  { sound with agree := keeps _ sound.agree }

theorem DownloadThread.Sound.mono {after : List UInt8} {thread : DownloadThread}
    (sound : thread.Sound resource file) (keeps : Keeps resource file after) : thread.Sound resource after :=
  ⟨sound.segment.mono keeps, sound.ahead⟩

theorem ThreadInfo.stop_le (resource : List UInt8) (info : ThreadInfo) :
    info.stop resource ≤ resource.length :=
  min_le_right _ _

/-- Nothing counted is always sound. -/
theorem sound_of_nothing {info : ThreadInfo} (start : 0 ≤ info.start) (finished : info.finished = 0)
    (within : info.start ≤ info.stop resource) : info.Sound resource file := by
  refine ⟨start, finished.ge, by omega, ?_⟩
  intro p member
  have lower : info.start ≤ p := member.1
  have upper : (p : Int) < info.start + info.finished := member.2
  omega

/-- A buffer read from the rest of the segment ends inside it. -/
theorem buffer_within {pointer : Nat} {body buffer : List UInt8} (sound : info.Sound resource file)
    (at_pointer : (pointer : Int) = info.start + info.finished)
    (split : buffer ++ body = info.rest resource pointer) :
    info.start + info.finished + buffer.length ≤ info.stop resource := by
  have length := congrArg List.length split
  simp only [ThreadInfo.rest, List.length_append, List.length_drop, List.length_take] at length
  have inside := sound.within
  have bound := info.stop_le resource
  omega

theorem ThreadInfo.Sound.length_of_write {pointer : Nat} {body buffer : List UInt8}
    (sound : info.Sound resource file) (length : file.length = resource.length)
    (at_pointer : (pointer : Int) = info.start + info.finished)
    (split : buffer ++ body = info.rest resource pointer) :
    (writeAt 0 file pointer buffer).length = resource.length := by
  have inside := buffer_within sound at_pointer split
  have bound := info.stop_le resource
  rw [length_writeAt 0 (by omega), length]

/-- Writing the buffer extends the finished part by exactly the bytes counted. -/
theorem ThreadInfo.Sound.write {pointer : Nat} {body buffer : List UInt8} (sound : info.Sound resource file)
    (length : file.length = resource.length) (small : (resource.length : Int) < 2 ^ 31)
    (at_pointer : (pointer : Int) = info.start + info.finished)
    (split : buffer ++ body = info.rest resource pointer) :
    Keeps resource file (writeAt 0 file pointer buffer) ∧
    DownloadThread.Sound resource (writeAt 0 file pointer buffer)
      ⟨{ info with finished := int (info.finished + buffer.length) }, .timing (pointer + buffer.length) body⟩ := by
  have inside := buffer_within sound at_pointer split
  have bound := info.stop_le resource
  have start_nonneg := sound.start_nonneg
  have finished_nonneg := sound.finished_nonneg
  have reached : pointer ≤ file.length := by omega
  have piece := piece_of_append split
  have counted : int (info.finished + buffer.length) = info.finished + buffer.length :=
    int_of_range (by omega) (by omega)
  refine ⟨?_, ⟨?_, ?_⟩⟩
  · intro positions agree
    exact (AgreeOn.writeAt agree reached piece).mono Set.subset_union_left
  · rw [counted]
    refine ⟨start_nonneg, by change 0 ≤ info.finished + buffer.length; omega, ?_, ?_⟩
    · change info.start + (info.finished + buffer.length) ≤ info.stop resource
      omega
    · apply (AgreeOn.writeAt sound.agree reached piece).mono
      intro p member
      have lower : info.start ≤ p := member.1
      have upper : (p : Int) < info.start + (info.finished + buffer.length) := member.2
      by_cases before : (p : Int) < info.start + info.finished
      · exact Or.inl ⟨lower, before⟩
      · exact Or.inr ⟨by omega, by omega⟩
  · rw [counted]
    refine ⟨?_, rest_of_append split⟩
    change ((pointer + buffer.length : Nat) : Int) = info.start + (info.finished + buffer.length)
    omega

/-- A step of a sound thread leaves it sound, keeps every agreement and the length of the file. -/
theorem sound_run {phase : Phase} {event : ThreadEvent} {thread' : DownloadThread} {action : Action}
    (ran : Ran isPause info phase event thread' action) (sound : info.Sound resource file)
    (ahead : Ahead resource info phase) (answers : Answers resource info event)
    (length : file.length = resource.length) (small : (resource.length : Int) < 2 ^ 31) :
    (action.onFile file).length = resource.length ∧ Keeps resource file (action.onFile file) ∧
      thread'.Sound resource (action.onFile file) := by
  have keeps := Keeps.refl resource file
  cases ran with
  | accepted code body seeks served =>
    have bound := info.stop_le resource
    have inside := sound.within
    have start_nonneg := sound.start_nonneg
    have finished_nonneg := sound.finished_nonneg
    have position : int (info.start + info.finished) = info.start + info.finished :=
      int_of_range (by omega) (by omega)
    refine ⟨length, keeps, sound, ?_, answers served⟩
    rw [position]
    exact Int.toNat_of_nonneg (by omega)
  | read pointer length' body some_bytes held =>
    refine ⟨length, keeps, sound, ahead.1, ?_⟩
    rw [List.take_append_drop]
    exact ahead.2
  | wrote pointer body buffer =>
    have written := sound.write length small ahead.1 ahead.2
    exact ⟨sound.length_of_write length ahead.1 ahead.2, written.1, written.2⟩
  | clock pointer body late =>
    have same : (if late then Action.notifyProgress else Action.none).onFile file = file := by cases late <;> rfl
    rw [same]
    exact ⟨length, keeps, sound, ahead⟩
  | polled pointer body =>
    refine ⟨length, keeps, sound, ?_⟩
    cases isPause with
    | true => trivial
    | false => exact ahead
  | _ => exact ⟨length, keeps, sound, trivial⟩

/-! What `runThread` does around the thread. -/

section
variable {progress : Int → Int → Int} {task : DownloadTask κ} {rows : List ThreadInfo}

/-- A task after a step of its `i`-th thread, from `thread` to `thread'` with the given action. -/
structure Performed (progress : Int → Int → Int) (task : DownloadTask κ) (rows : List ThreadInfo)
    (file : List UInt8) (i : Nat) (thread' : DownloadThread) (action : Action) (outcome : DownloadTask.Outcome κ) :
    Prop where
  taskInfo : outcome.task.taskInfo = task.taskInfo
  isPause : outcome.task.isPause = task.isPause
  threadCount : outcome.task.threadCount = task.threadCount
  threads : outcome.task.threads = task.threads.set i thread'
  file : outcome.file = action.onFile file
  rows : outcome.rows = if action = .updateThread then
      updateThread rows thread'.threadInfo.url thread'.threadInfo.id thread'.threadInfo.finished
    else rows
  totals : outcome.task.totalFinished = if action = .notifyProgress then
      (task.notifyProgress progress thread'.threadInfo.id thread'.threadInfo.finished).1.totalFinished
    else task.totalFinished
  posted : outcome.posted = if action = .notifyProgress then
      (task.notifyProgress progress thread'.threadInfo.id thread'.threadInfo.finished).2
    else none
  written : outcome.written.toList = action.written

theorem notifyProgress_task (progress : Int → Int → Int) (task : DownloadTask κ) (threadId finished : Int) :
    ∃ totalFinished, (task.notifyProgress progress threadId finished).1 = { task with totalFinished } ∧
      totalFinished.length = task.totalFinished.length := by
  unfold DownloadTask.notifyProgress
  split
  · exact ⟨_, rfl, List.length_set⟩
  · exact ⟨_, rfl, rfl⟩

/-- Notifying does not depend on the threads. -/
theorem notifyProgress_threads (threads : List DownloadThread) (threadId finished : Int) :
    ({ task with threads } : DownloadTask κ).notifyProgress progress threadId finished =
      ({ (task.notifyProgress progress threadId finished).1 with threads },
        (task.notifyProgress progress threadId finished).2) := by
  simp only [DownloadTask.notifyProgress]
  split <;> rfl

theorem performed_run {i : Nat} {event : ThreadEvent} {outcome : DownloadTask.Outcome κ}
    (taken : task.runThread progress rows file i event = some outcome) :
    ∃ thread thread' action, task.threads[i]? = some thread ∧
      thread.run task.isPause event = some (thread', action) ∧
      Performed progress task rows file i thread' action outcome := by
  simp only [DownloadTask.runThread, Option.bind_eq_bind, Option.bind_eq_some_iff, Option.pure_def,
    Option.some.injEq, Prod.exists] at taken
  obtain ⟨thread, present, thread', action, ran, rfl⟩ := taken
  refine ⟨thread, thread', action, present, ran, ?_⟩
  cases action with
  | notifyProgress =>
    simp only [DownloadTask.perform, notifyProgress_threads]
    obtain ⟨totalFinished, same, -⟩ :=
      notifyProgress_task progress task thread'.threadInfo.id thread'.threadInfo.finished
    constructor <;> simp [same, Action.onFile, Action.written]
  | _ => constructor <;> rfl

theorem Performed.totals_length {i : Nat} {thread' : DownloadThread} {action : Action}
    {outcome : DownloadTask.Outcome κ}
    (performed : Performed progress task rows file i thread' action outcome) :
    outcome.task.totalFinished.length = task.totalFinished.length := by
  rw [performed.totals]
  split
  · obtain ⟨totalFinished, same, length⟩ :=
      notifyProgress_task progress task thread'.threadInfo.id thread'.threadInfo.finished
    rw [same]
    exact length
  · rfl

end

theorem Transfer.step_thread {progress : Int → Int → Int} {w w' : Transfer κ} {i : Nat} {event : ThreadEvent}
    (taken : w.step progress (.thread i event) = some w') :
    ∃ thread thread' action outcome, w.task.threads[i]? = some thread ∧
      thread.run w.task.isPause event = some (thread', action) ∧
      Performed progress w.task w.rows w.file i thread' action outcome ∧
      w' = { w with task := outcome.task, rows := outcome.rows, file := outcome.file
                    inbox := w.inbox ++ outcome.posted.toList
                    posted := w.posted ++ outcome.posted.toList
                    writes := w.writes ++ outcome.written.toList } := by
  simp only [Transfer.step, Option.map_eq_some_iff] at taken
  obtain ⟨outcome, ran, same⟩ := taken
  obtain ⟨thread, thread', action, present, run, performed⟩ := performed_run ran
  exact ⟨thread, thread', action, outcome, present, run, performed, same.symm⟩

end AdTerminal.Download
