import AdTerminal.Download.OneSegment
import AdTerminal.Library.ListUpdate

/-! One task and one writer for a URL. The list is looked up when a URL is requested, but
the task is only added when `MSG_INIT` is handled, and a restart does not wait for the
thread it replaces. Both go wrong exactly when what was looked up has changed. -/

namespace AdTerminal.Download
open Transition ListUpdate

variable {κ : Type} {w w' : Service κ}

/-- The thread is queued or running for the URL and the thread id. -/
def DownloadThread.writes (url : String) (id : Int) (thread : DownloadThread) : Bool :=
  thread.Live ∧ thread.threadInfo.url = url ∧ thread.threadInfo.id = id

namespace Service

/-- All threads of all tasks, the unlisted ones included. -/
def threads (w : Service κ) : List DownloadThread := w.tasks.flatMap fun entry => entry.task.threads

def listedCount (w : Service κ) (url : String) : Nat :=
  w.tasks.countP fun entry => entry.listed && decide (entry.task.taskInfo.url = url)

/-- The threads of a URL and a thread id that are queued or running. -/
def writerCount (w : Service κ) (url : String) (id : Int) : Nat :=
  w.threads.countP (DownloadThread.writes url id)

/-- No thread of the URL is queued or running. -/
def Quiet (w : Service κ) (url : String) : Prop :=
  ∀ thread ∈ w.threads, thread.threadInfo.url = url → ¬ thread.Live

end Service

structure OneWriter (w : Service κ) : Prop where
  tasks : ∀ url, w.listedCount url ≤ 1
  threads : ∀ url id, w.writerCount url id ≤ 1

/-- A paused task is restarted only when no thread of its URL is left, and `MSG_INIT` is
handled only when, besides, no task of its URL is listed. -/
def Alone (w : Service κ) : ServiceEvent κ → Prop
  | .download info => ∀ k entry, w.find? info.url = some (k, entry) → entry.task.isPause = true → w.Quiet info.url
  | .dispatch => ∀ request info rest, w.queue = .init request info :: rest →
      w.find? info.url = none ∧ w.Quiet info.url
  | _ => True

theorem find?_eq_none_iff (url : String) : w.find? url = none ↔ w.listedCount url = 0 := by
  constructor
  · intro absent
    apply List.countP_eq_zero.mpr
    intro entry member
    have other := Service.find?_eq_none absent member
    simpa using other
  · intro nothing
    cases found : w.find? url with
    | none => rfl
    | some both =>
      have first := Service.of_find? found
      have positive : 0 < w.listedCount url :=
        List.countP_pos_iff.mpr ⟨both.2, List.mem_of_getElem? first.1, by simp [first.2]⟩
      omega

/-- All threads have the id 0, so a URL without a writer of that id has none. -/
theorem quiet_iff (tidy : w.Tidy) (url : String) : w.Quiet url ↔ w.writerCount url 0 = 0 := by
  simp only [Service.writerCount, List.countP_eq_zero, DownloadThread.writes, decide_eq_true_eq]
  constructor
  · intro quiet thread member writes
    exact quiet thread member writes.2.1 writes.1
  · intro nothing thread member same live
    obtain ⟨entry, present, own⟩ := List.mem_flatMap.mp member
    exact nothing thread member ⟨live, same, ((tidy.tasks entry present).threads thread own).1.1⟩

theorem writes_queued (info : ThreadInfo) (url : String) (id : Int) :
    DownloadThread.writes url id ⟨info, .queued⟩ = decide (info.url = url ∧ info.id = id) := by
  simp [DownloadThread.writes, DownloadThread.Live]

section
variable {k : Nat} {entry entry' : Entry κ}

theorem listedCount_set (present : w.tasks[k]? = some entry) (tasks : w'.tasks = w.tasks.set k entry')
    (same : entry'.task.taskInfo.url = entry.task.taskInfo.url)
    (listed : entry'.listed = true → entry.listed = true)
    (url : String) : w'.listedCount url ≤ w.listedCount url := by
  have change := countP_set_add present entry' fun entry => entry.listed && decide (entry.task.taskInfo.url = url)
  rw [same] at change
  rw [Service.listedCount, tasks, Service.listedCount]
  cases was : entry.listed with
  | true =>
    rw [was] at change
    simp only [Bool.true_and] at change
    have bound : (if (entry'.listed && decide (entry.task.taskInfo.url = url)) = true then 1 else 0) ≤
        if decide (entry.task.taskInfo.url = url) = true then 1 else 0 := by
      cases entry'.listed with
      | true => simp only [Bool.true_and, le_refl]
      | false => simp
    omega
  | false =>
    have now : entry'.listed = false := by
      cases is : entry'.listed with
      | true => exact (listed is).symm.trans was
      | false => rfl
    simp only [was, now, Bool.false_and, Bool.false_eq_true, if_false] at change
    omega

theorem listedCount_created (tasks : w'.tasks = w.tasks ++ [entry]) (listed : entry.listed = true)
    (url : String) :
    w'.listedCount url = w.listedCount url + if entry.task.taskInfo.url = url then 1 else 0 := by
  simp only [Service.listedCount, tasks, List.countP_append, List.countP_singleton, listed, Bool.true_and,
    decide_eq_true_eq]

theorem writerCount_set (present : w.tasks[k]? = some entry) (tasks : w'.tasks = w.tasks.set k entry')
    (url : String) (id : Int) :
    w'.writerCount url id + entry.task.threads.countP (DownloadThread.writes url id) =
      w.writerCount url id + entry'.task.threads.countP (DownloadThread.writes url id) := by
  have change := countP_flatMap_set_add present entry' (fun entry : Entry κ => entry.task.threads)
    (DownloadThread.writes url id)
  simpa only [Service.writerCount, Service.threads, tasks] using change

/-- One writer is kept when a task changes without being listed or getting a thread. -/
theorem OneWriter.set (one : OneWriter w) (present : w.tasks[k]? = some entry)
    (tasks : w'.tasks = w.tasks.set k entry') (same : entry'.task.taskInfo.url = entry.task.taskInfo.url)
    (listed : entry'.listed = true → entry.listed = true)
    (writers : ∀ url id, entry'.task.threads.countP (DownloadThread.writes url id) ≤
      entry.task.threads.countP (DownloadThread.writes url id)) : OneWriter w' := by
  constructor
  · intro url
    exact (listedCount_set present tasks same listed url).trans (one.tasks url)
  · intro url id
    have change := writerCount_set present tasks url id
    have fewer := writers url id
    have bound := one.threads url id
    omega

theorem OneWriter.congr (one : OneWriter w) (tasks : w'.tasks = w.tasks) : OneWriter w' := by
  constructor
  · intro url
    rw [Service.listedCount, tasks]
    exact one.tasks url
  · intro url id
    rw [Service.writerCount, Service.threads, tasks]
    exact one.threads url id

end

/-- A step of a thread adds no writer, since a thread that has ended never runs again. -/
theorem writes_of_ran {isPause : Bool} {info : ThreadInfo} {phase : Phase} {event : ThreadEvent}
    {thread' : DownloadThread} {action : Action} (ran : Ran isPause info phase event thread' action)
    (only : info.Only) {url : String} {id : Int} (writes : thread'.writes url id = true) :
    DownloadThread.writes url id ⟨info, phase⟩ = true := by
  have new := only_of_ran ran only
  have live : phase ≠ .ended := by
    cases ran with
    | failed phase throws =>
      intro ended
      simp [ended] at throws
    | _ => simp
  simp only [DownloadThread.writes, decide_eq_true_eq] at writes ⊢
  exact ⟨live, new.2.symm.trans writes.2.1, only.1.trans (new.1.1.symm.trans writes.2.2)⟩

/-- Starting a thread keeps one writer exactly when there was none. -/
theorem writers_started {info : ThreadInfo} (one : OneWriter w) (only : info.Only)
    (threads : ∀ url id, w'.writerCount url id =
      w.writerCount url id + if DownloadThread.writes url id ⟨info, .queued⟩ then 1 else 0) :
    (∀ url id, w'.writerCount url id ≤ 1) ↔ w.writerCount info.url 0 = 0 := by
  simp only [writes_queued, decide_eq_true_eq] at threads
  constructor
  · intro one'
    have both := threads info.url 0
    have bound := one' info.url 0
    rw [if_pos ⟨rfl, only.1⟩] at both
    omega
  · intro nothing url id
    rw [threads]
    split
    next same => rw [← same.1, ← same.2, only.1, nothing]
    next => exact one.threads url id

theorem oneWriter_restarted {k : Nat} {entry : Entry κ} (tidy : w.Tidy) (one : OneWriter w)
    (present : w.tasks[k]? = some entry)
    (tasks : w'.tasks = w.tasks.set k { entry with task := (entry.task.restart w.rows).1 }) :
    OneWriter w' ↔ w.Quiet entry.task.taskInfo.url := by
  obtain ⟨segment, url, only, started⟩ := tidy.restart_single present
  have threads : ∀ url id, w'.writerCount url id =
      w.writerCount url id + if DownloadThread.writes url id ⟨segment, .queued⟩ then 1 else 0 := by
    intro url id
    have change := writerCount_set present tasks url id
    simp only [started, List.countP_append, List.countP_singleton] at change
    omega
  rw [quiet_iff tidy, ← url, ← writers_started one only threads]
  constructor
  · exact OneWriter.threads
  · intro writers
    exact ⟨fun url => (listedCount_set present tasks rfl id url).trans (one.tasks url), writers⟩

theorem oneWriter_created {request info : TaskInfo κ} (tidy : w.Tidy) (one : OneWriter w)
    (positive : 0 < info.lenght)
    (tasks : w'.tasks = w.tasks ++ [{ request, task := ((DownloadTask.create info 1).downlaod w.rows).1 }]) :
    OneWriter w' ↔ w.find? info.url = none ∧ w.Quiet info.url := by
  obtain ⟨segment, url, only, started⟩ := tidy.create_single positive
  have threads : ∀ url id, w'.writerCount url id =
      w.writerCount url id + if DownloadThread.writes url id ⟨segment, .queued⟩ then 1 else 0 := by
    intro url id
    simp only [Service.writerCount, Service.threads, tasks, List.flatMap_append, List.countP_append,
      List.flatMap_singleton, started, List.countP_singleton]
  have listed : ∀ url, w'.listedCount url = w.listedCount url + if info.url = url then 1 else 0 :=
    listedCount_created tasks rfl
  rw [quiet_iff tidy, ← url, ← writers_started one only threads, url, find?_eq_none_iff]
  constructor
  · intro one'
    have both := listed info.url
    have bound := one'.tasks info.url
    rw [if_pos rfl] at both
    exact ⟨by omega, one'.threads⟩
  · intro both
    refine ⟨?_, both.2⟩
    intro url
    rw [listed]
    split
    next same => rw [← same, both.1]
    next => exact one.tasks url

theorem listedCount_onLowMemory (w : Service κ) (url : String) :
    w.onLowMemory.listedCount url = w.listedCount url := by
  simp only [Service.listedCount, Service.onLowMemory, List.countP_map]
  congr 1
  funext entry
  simp only [Function.comp_apply]
  split <;> rfl

theorem OneWriter.onLowMemory (one : OneWriter w) : OneWriter w.onLowMemory := by
  constructor
  · intro url
    rw [listedCount_onLowMemory]
    exact one.tasks url
  · intro url id
    have same : w.onLowMemory.threads = w.threads := by
      simp only [Service.threads, Service.onLowMemory, List.flatMap_map]
      congr 1
      funext entry
      split <;> rfl
    rw [Service.writerCount, same]
    exact one.threads url id

theorem oneWriter_ran {k i : Nat} {event : ThreadEvent} {entry : Entry κ} {thread thread' : DownloadThread}
    {action : Action} {task : DownloadTask κ} {writes : List (Nat × List UInt8)} (tidy : w.Tidy)
    (one : OneWriter w)
    (present : w.tasks[k]? = some entry) (started : entry.task.threads[i]? = some thread)
    (ran : Ran entry.task.isPause thread.threadInfo thread.phase event thread' action)
    (taskInfo : task.taskInfo = entry.task.taskInfo)
    (threads : task.threads = entry.task.threads.set i thread')
    (tasks : w'.tasks = w.tasks.set k { entry with task, writes }) : OneWriter w' := by
  have own := (tidy.task present).threads thread (List.mem_of_getElem? started)
  apply one.set present tasks (congrArg TaskInfo.url taskInfo) id
  intro url id
  have change := countP_set_add started thread' (DownloadThread.writes url id)
  have kept : thread'.writes url id = true → thread.writes url id = true := writes_of_ran ran own.1
  simp only [threads]
  split at change
  next => split at change <;> omega
  next not_before =>
    rw [if_neg fun after => not_before (kept after)] at change
    omega

theorem oneWriter_step_iff {event : ServiceEvent κ} (tidy : w.Tidy) (one : OneWriter w)
    (stepped : Stepped w event w') : OneWriter w' ↔ Alone w event := by
  have other : ∀ message rest, w.queue = message :: rest → (∀ request info, message ≠ .init request info) →
      Alone w .dispatch := by
    intro message rest first no_init request info rest' first'
    rw [first, List.cons.injEq] at first'
    exact absurd first'.1 (no_init request info)
  cases stepped with
  | restarted info k entry found paused =>
    have first := Service.of_find? found
    rw [oneWriter_restarted tidy one first.1 rfl, first.2.2]
    exact ⟨fun quiet _ _ _ _ => quiet, fun alone => alone k entry found paused⟩
  | ignored info k entry found unpaused =>
    apply iff_of_true
    · exact one.congr rfl
    · intro k' entry' found' paused
      cases found.symm.trans found'
      simp [unpaused] at paused
  | requested info absent =>
    apply iff_of_true
    · exact one.congr rfl
    · intro k entry found
      simp [absent] at found
  | pausedTask url k entry found =>
    apply iff_of_true
    · exact one.set (Service.of_find? found).1 rfl rfl id fun _ _ => le_rfl
    · trivial
  | lowMemory => exact iff_of_true one.onLowMemory trivial
  | notPrepared event i request waiting ended =>
    apply iff_of_true
    · exact one.congr rfl
    · rcases ended with rfl | ⟨_, _, _, _, rfl, -⟩ <;> trivial
  | created request info rest first =>
    have message := tidy.messages request info (first ▸ List.mem_cons_self)
    rw [oneWriter_created tidy one message.2 rfl]
    constructor
    · intro both request' info' rest' first'
      cases first.symm.trans first'
      exact both
    · intro alone
      exact alone request info rest first
  | completed k progress rest entry first present called full =>
    apply iff_of_true
    · exact one.set present rfl rfl id fun _ _ => le_rfl
    · exact other _ rest first (by simp)
  | progressed k progress rest first unfinished =>
    apply iff_of_true
    · exact one.congr rfl
    · exact other _ rest first (by simp)
  | unlisted url rest k entry first found =>
    apply iff_of_true
    · exact one.set (Service.of_find? found).1 rfl rfl (by simp) fun _ _ => le_rfl
    · exact other _ rest first (by simp)
  | unlistedNothing url rest first absent =>
    apply iff_of_true
    · exact one.congr rfl
    · exact other _ rest first (by simp)
  | bindSuccess rest first =>
    apply iff_of_true
    · exact one.congr rfl
    · exact other _ rest first (by simp)
  | ran k i event entry thread thread' action outcome present started ran performed =>
    apply iff_of_true
    · exact oneWriter_ran tidy one present started ran performed.taskInfo performed.threads rfl
    · trivial
  | killed =>
    apply iff_of_true
    · exact ⟨by simp [Service.listedCount], by simp [Service.writerCount, Service.threads]⟩
    · trivial
  | _ =>
    apply iff_of_true
    · exact one.congr rfl
    · trivial

theorem alone_of_disabled {event : ServiceEvent κ} (disabled : w.step event = none) : Alone w event := by
  cases event with
  | download info => simp [Service.step] at disabled
  | dispatch =>
    intro request info rest first
    simp [Service.step, first] at disabled
  | _ => trivial

theorem oneWriter_start : OneWriter ({} : Service κ) :=
  ⟨by simp [Service.listedCount], by simp [Service.writerCount, Service.threads]⟩

/-- From the start of the service on, over every order of its events, there is one task and
one writer for a URL in every state exactly when every restart and every `MSG_INIT` finds
its URL alone. -/
theorem oneWriter_iff {es : List (ServiceEvent κ)} :
    Throughout Service.step OneWriter ({} : Service κ) es ↔ Steps Service.step Alone {} es := by
  have agree : ∀ (w : Service κ) event, w.Tidy ∧ OneWriter w →
      ((∀ t, w.step event = some t → OneWriter t) ↔ Alone w event) := by
    intro w event inv
    constructor
    · intro next
      cases taken : w.step event with
      | some t => exact (oneWriter_step_iff inv.1 inv.2 (stepped_of_step taken)).mp (next t taken)
      | none => exact alone_of_disabled taken
    · intro alone t taken
      exact (oneWriter_step_iff inv.1 inv.2 (stepped_of_step taken)).mpr alone
  have preserved : ∀ (w : Service κ) event t, w.Tidy ∧ OneWriter w → Alone w event → OneWriter t →
      w.step event = some t → t.Tidy ∧ OneWriter t :=
    fun w event t inv _ next taken => ⟨tidy_step inv.1 (stepped_of_step taken), next⟩
  exact throughout_iff_steps agree preserved ⟨tidy_start, oneWriter_start⟩ oneWriter_start

def poster : TaskInfo Unit :=
  { url := "/poster.png", filePath := some "media", fileName := some "poster.png", lenght := 0, download := some () }

/-- The poster is requested again while its first `InitThread` is under way. -/
def requestedTwice : List (ServiceEvent Unit) :=
  [.download poster, .download poster, .initThread 0 200 4 "" "", .initThread 0 200 4 "" "", .dispatch, .dispatch]

theorem requestedTwice_two_writers : ¬ Throughout Service.step OneWriter {} requestedTwice := by
  intro all
  have reached : (run Service.step {} requestedTwice).map (fun w => w.writerCount poster.url 0) = some 2 := by
    decide +kernel
  obtain ⟨w, whole, count⟩ := Option.map_eq_some_iff.mp reached
  have one := (all requestedTwice [] rfl w whole).threads poster.url 0
  omega

end AdTerminal.Download
