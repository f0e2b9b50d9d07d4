import AdTerminal.Download.DownloadService

/-! The service gives every task one segment. Whatever is requested, the table has at most
one row for a URL, and every thread works on the segment 0 of the URL of its task. -/

namespace AdTerminal.Download
open Transition RandomAccess

variable {κ : Type} {w w' : Service κ}

/-- The id of an only segment, with a count that is an `int`. -/
def ThreadInfo.Only (info : ThreadInfo) : Prop := info.id = 0 ∧ int info.finished = info.finished

structure DownloadTask.Tidy (task : DownloadTask κ) : Prop where
  count : task.threadCount = 1
  totals : task.totalFinished.length = 1
  positive : 0 < task.taskInfo.lenght
  threads : ∀ thread ∈ task.threads, thread.threadInfo.Only ∧ thread.threadInfo.url = task.taskInfo.url

structure TidyRows (rows : List ThreadInfo) : Prop where
  only : ∀ row ∈ rows, row.Only
  single : ∀ url, (getThread rows url).length ≤ 1

structure Service.Tidy (w : Service κ) : Prop where
  rows : TidyRows w.rows
  messages : ∀ request info, Message.init request info ∈ w.queue → info.url = request.url ∧ 0 < info.lenght
  tasks : ∀ entry ∈ w.tasks, entry.task.Tidy

theorem TidyRows.deleteThread {rows : List ThreadInfo} (tidy : TidyRows rows) (url : String) :
    TidyRows (deleteThread rows url) := by
  constructor
  · intro row member
    exact tidy.only row (List.mem_filter.mp member).1
  · intro url'
    have fewer := (List.filter_sublist (p := fun row => row.url ≠ url) (l := rows)).filter fun row => row.url = url'
    exact fewer.length_le.trans (tidy.single url')

theorem TidyRows.updateThread {rows : List ThreadInfo} (tidy : TidyRows rows) (url : String) (thread_id : Int)
    {finished : Int} (counted : int finished = finished) :
    TidyRows (updateThread rows url thread_id finished) := by
  constructor
  · intro row member
    obtain ⟨old, present, rfl⟩ := List.mem_map.mp member
    have only := tidy.only old present
    split
    · exact ⟨only.1, counted⟩
    · exact only
  · intro url'
    rw [getThread_updateThread, Download.updateThread, List.length_map]
    exact tidy.single url'

theorem TidyRows.insert {rows : List ThreadInfo} {info : ThreadInfo} (tidy : TidyRows rows) (only : info.Only)
    (absent : getThread rows info.url = []) : TidyRows (rows ++ [info]) := by
  constructor
  · intro row member
    rcases List.mem_append.mp member with old | new
    · exact tidy.only row old
    · exact List.mem_singleton.mp new ▸ only
  · intro url
    rw [getThread_append, List.length_append]
    by_cases same : info.url = url
    · subst same
      rw [absent, List.length_nil, Nat.zero_add]
      exact List.length_filter_le _ [info]
    · have none : getThread [info] url = [] := getThread_eq_nil fun row member => List.mem_singleton.mp member ▸ same
      rw [none, List.length_nil, Nat.add_zero]
      exact tidy.single url

/-- `downlaod` starts one thread, on the stored segment or on a new one. -/
theorem downlaod_single {task : DownloadTask κ} {rows : List ThreadInfo} (tidy : task.Tidy)
    (tidyRows : TidyRows rows) :
    ∃ info : ThreadInfo, info.url = task.taskInfo.url ∧ info.Only ∧
      (task.downlaod rows).1 = { task with threads := task.threads ++ [⟨info, .queued⟩] } ∧
      ((info ∈ rows ∧ (task.downlaod rows).2 = rows) ∨
        (getThread rows task.taskInfo.url = [] ∧ (task.downlaod rows).2 = rows ++ [info] ∧
          info = { id := 0, url := task.taskInfo.url, start := 0, end_ := task.taskInfo.lenght, finished := 0 })) := by
  cases stored : getThread rows task.taskInfo.url with
  | nil =>
    refine ⟨_, rfl, ⟨rfl, rfl⟩, ?_, Or.inr ⟨rfl, ?_, rfl⟩⟩ <;>
      simp [DownloadTask.downlaod, DownloadTask.threadInfoList, stored, tidy.count,
        DownloadTask.segments_one tidy.positive, insertThread]
  | cons info others =>
    have single := tidyRows.single task.taskInfo.url
    rw [stored, List.length_cons] at single
    have alone : others = [] := List.eq_nil_of_length_eq_zero (by omega)
    subst alone
    have member : info ∈ getThread rows task.taskInfo.url := by simp [stored]
    have row := List.mem_filter.mp member
    refine ⟨info, by simpa using row.2, tidyRows.only info row.1, ?_, Or.inl ⟨row.1, ?_⟩⟩ <;>
      simp [DownloadTask.downlaod, DownloadTask.threadInfoList, stored]

theorem DownloadTask.Tidy.setPause {task : DownloadTask κ} (tidy : task.Tidy) (isPause : Bool) :
    ({ task with isPause } : DownloadTask κ).Tidy :=
  ⟨tidy.count, tidy.totals, tidy.positive, tidy.threads⟩

theorem DownloadTask.tidy_create {info : TaskInfo κ} (positive : 0 < info.lenght) : (create info 1).Tidy :=
  ⟨rfl, rfl, positive, by simp [create]⟩

/-- The task `InitThread` has prepared. -/
theorem of_initThread {request info : TaskInfo κ} {code contentLength : Int} {directory header : String}
    (accepted : InitThread.run request code contentLength directory header = some info) :
    info.url = request.url ∧ info.download = request.download ∧ info.lenght = contentLength ∧ 0 < contentLength := by
  simp only [InitThread.run, Option.ite_none_right_eq_some, Option.some.injEq] at accepted
  obtain ⟨⟨-, positive⟩, rfl⟩ := accepted
  exact ⟨rfl, rfl, rfl, positive⟩

theorem only_of_ran {isPause : Bool} {info : ThreadInfo} {phase : Phase} {event : ThreadEvent}
    {thread' : DownloadThread} {action : Action} (ran : Ran isPause info phase event thread' action)
    (only : info.Only) : thread'.threadInfo.Only ∧ thread'.threadInfo.url = info.url := by
  cases ran with
  | wrote pointer body buffer => exact ⟨⟨only.1, Int.bmod_bmod⟩, rfl⟩
  | _ => exact ⟨only, rfl⟩

/-- The progress posted for an only segment is that of its own count. -/
theorem DownloadTask.Tidy.posted {task : DownloadTask κ} {info : ThreadInfo} (tidy : task.Tidy)
    (only : info.Only)
    (progress : Int → Int → Int) : (task.notifyProgress progress info.id info.finished).2 =
      some (progress info.finished task.taskInfo.lenght) := by
  obtain ⟨total, totals⟩ := List.length_eq_one_iff.mp tidy.totals
  simp [notifyProgress, totals, only.1, only.2]

theorem DownloadTask.Tidy.downlaod {task : DownloadTask κ} {rows : List ThreadInfo} (tidy : task.Tidy)
    (tidyRows : TidyRows rows) : (task.downlaod rows).1.Tidy ∧ TidyRows (task.downlaod rows).2 := by
  obtain ⟨info, url, only, started, kept⟩ := downlaod_single tidy tidyRows
  constructor
  · rw [started]
    refine ⟨tidy.count, tidy.totals, tidy.positive, ?_⟩
    intro thread member
    rcases List.mem_append.mp member with old | new
    · exact tidy.threads thread old
    · rw [List.mem_singleton.mp new]
      exact ⟨only, url⟩
  · rcases kept with ⟨-, same⟩ | ⟨absent, inserted, -⟩
    · rw [same]
      exact tidyRows
    · rw [inserted]
      exact tidyRows.insert only (url ▸ absent)

theorem Service.Tidy.task (tidy : w.Tidy) {k : Nat} {entry : Entry κ} (present : w.tasks[k]? = some entry) :
    entry.task.Tidy :=
  tidy.tasks entry (List.mem_of_getElem? present)

/-- The messages behind the first one. -/
theorem Service.Tidy.rest (tidy : w.Tidy) {message : Message κ} {rest : List (Message κ)}
    (first : w.queue = message :: rest) :
    ∀ request info, Message.init request info ∈ rest → info.url = request.url ∧ 0 < info.lenght :=
  fun request info member => tidy.messages request info (first ▸ List.mem_cons_of_mem _ member)

/-- A restart starts one thread. -/
theorem Service.Tidy.restart_single (tidy : w.Tidy) {k : Nat} {entry : Entry κ}
    (present : w.tasks[k]? = some entry) :
    ∃ segment : ThreadInfo, segment.url = entry.task.taskInfo.url ∧ segment.Only ∧
      (entry.task.restart w.rows).1.threads = entry.task.threads ++ [⟨segment, .queued⟩] := by
  obtain ⟨segment, url, only, started, -⟩ := downlaod_single ((tidy.task present).setPause false) tidy.rows
  exact ⟨segment, url, only, congrArg DownloadTask.threads started⟩

/-- So does the handler of `MSG_INIT`. -/
theorem Service.Tidy.create_single (tidy : w.Tidy) {info : TaskInfo κ} (positive : 0 < info.lenght) :
    ∃ segment : ThreadInfo, segment.url = info.url ∧ segment.Only ∧
      ((DownloadTask.create info 1).downlaod w.rows).1.threads = [⟨segment, .queued⟩] := by
  obtain ⟨segment, url, only, started, -⟩ := downlaod_single (DownloadTask.tidy_create positive) tidy.rows
  exact ⟨segment, url, only, congrArg DownloadTask.threads started⟩

theorem Service.Tidy.set (tidy : w.Tidy) {k : Nat} {entry : Entry κ} (changed : entry.task.Tidy) :
    ∀ entry' ∈ w.tasks.set k entry, entry'.task.Tidy := by
  intro entry' member
  rcases List.mem_or_eq_of_mem_set member with old | rfl
  · exact tidy.tasks entry' old
  · exact changed

/-- A task after a step of one of its threads. -/
theorem DownloadTask.Tidy.performed {task : DownloadTask κ} {rows : List ThreadInfo}
    {file : List UInt8} {i : Nat}
    {event : ThreadEvent} {thread thread' : DownloadThread} {action : Action} {outcome : Outcome κ}
    (tidy : task.Tidy) (tidyRows : TidyRows rows) (started : task.threads[i]? = some thread)
    (ran : Ran task.isPause thread.threadInfo thread.phase event thread' action)
    (performed : Performed floatProgress task rows file i thread' action outcome) :
    outcome.task.Tidy ∧ TidyRows outcome.rows := by
  have old := tidy.threads thread (List.mem_of_getElem? started)
  have new := only_of_ran ran old.1
  constructor
  · refine ⟨performed.threadCount.trans tidy.count, performed.totals_length.trans tidy.totals, ?_, ?_⟩
    · rw [performed.taskInfo]
      exact tidy.positive
    · intro other member
      rw [performed.threads] at member
      rw [performed.taskInfo]
      rcases List.mem_or_eq_of_mem_set member with kept | rfl
      · exact tidy.threads other kept
      · exact ⟨new.1, new.2.trans old.2⟩
  · rw [performed.rows]
    split
    · exact tidyRows.updateThread _ _ new.1.2
    · exact tidyRows

theorem tidy_step {event : ServiceEvent κ} (tidy : w.Tidy) (stepped : Stepped w event w') : w'.Tidy := by
  cases stepped with
  | restarted info k entry found paused =>
    have own := tidy.task (Service.of_find? found).1
    have both := (own.setPause false).downlaod tidy.rows
    exact ⟨both.2, tidy.messages, tidy.set both.1⟩
  | pausedTask url k entry found =>
    have own := tidy.task (Service.of_find? found).1
    exact ⟨tidy.rows, tidy.messages, tidy.set (own.setPause true)⟩
  | lowMemory =>
    refine ⟨tidy.rows, tidy.messages, ?_⟩
    intro entry member
    obtain ⟨old, present, rfl⟩ := List.mem_map.mp member
    have own := tidy.tasks old present
    split
    · exact own.setPause true
    · exact own
  | prepared i request info code contentLength directory header waiting accepted =>
    have prepared := of_initThread accepted
    refine ⟨tidy.rows, ?_, tidy.tasks⟩
    intro request' info' member
    rcases List.mem_append.mp member with old | new
    · exact tidy.messages request' info' old
    · cases List.mem_singleton.mp new
      exact ⟨prepared.1, prepared.2.2.1 ▸ prepared.2.2.2⟩
  | created request info rest first =>
    have message := tidy.messages request info (first ▸ List.mem_cons_self)
    have both := (DownloadTask.tidy_create message.2).downlaod tidy.rows
    refine ⟨both.2, tidy.rest first, ?_⟩
    intro entry member
    rcases List.mem_append.mp member with old | new
    · exact tidy.tasks entry old
    · rw [List.mem_singleton.mp new]
      exact both.1
  | completed k progress rest entry first present called full =>
    have own := tidy.task present
    exact ⟨tidy.rows.deleteThread _, tidy.rest first, tidy.set own⟩
  | progressed k progress rest first unfinished => exact ⟨tidy.rows, tidy.rest first, tidy.tasks⟩
  | unlisted url rest k entry first found =>
    have own := tidy.task (Service.of_find? found).1
    exact ⟨tidy.rows, tidy.rest first, tidy.set own⟩
  | unlistedNothing url rest first absent => exact ⟨tidy.rows, tidy.rest first, tidy.tasks⟩
  | bindSuccess rest first => exact ⟨tidy.rows, tidy.rest first, tidy.tasks⟩
  | broadcast i url sent =>
    refine ⟨tidy.rows, ?_, tidy.tasks⟩
    intro request' info' member
    exact tidy.messages request' info' ((List.mem_append.mp member).resolve_right (by simp))
  | ran k i event entry thread thread' action outcome present started ran performed =>
    have both := (tidy.task present).performed tidy.rows started ran performed
    refine ⟨both.2, ?_, tidy.set both.1⟩
    intro request' info' member
    exact tidy.messages request' info' ((List.mem_append.mp member).resolve_right (by simp))
  | killed => exact ⟨tidy.rows, by simp, by simp⟩
  | _ => exact ⟨tidy.rows, tidy.messages, tidy.tasks⟩

theorem tidy_start : ({} : Service κ).Tidy :=
  ⟨⟨by simp, by simp [getThread]⟩, by simp, by simp⟩

end AdTerminal.Download
