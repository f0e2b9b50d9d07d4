import AdTerminal.Download.OneSegment
import AdTerminal.Download.Resume

/-! The rows that earlier tasks of a URL have left, and a new task that takes them up. They are
cut for the length of the resource at that time, and no one compares it with the new one. -/

namespace AdTerminal.Download
open Transition

variable {κ : Type}

/-- What changes `thread_info`: a task with any number of threads is started, the process is
killed after some of its segments are inserted, a thread saves its count, or a task is
reported finished. -/
inductive TableEvent (κ : Type) where
  | downlaod (taskInfo : TaskInfo κ) (threadCount : Int)
  | killed (taskInfo : TaskInfo κ) (threadCount : Int) (inserted : Nat)
  | updateThread (url : String) (thread_id finished : Int)
  | deleteThread (url : String)

/-- A task is made only for a positive length. -/
def tableStep (rows : List ThreadInfo) : TableEvent κ → Option (List ThreadInfo)
  | .downlaod taskInfo threadCount =>
    if 0 < taskInfo.lenght then some ((DownloadTask.create taskInfo threadCount).downlaod rows).2 else none
  | .killed taskInfo threadCount inserted =>
    if 0 < taskInfo.lenght ∧ getThread rows taskInfo.url = [] then
      some ((((DownloadTask.create taskInfo threadCount).threadInfoList rows).take inserted).foldl insertThread rows)
    else none
  | .updateThread url thread_id finished => some (updateThread rows url thread_id finished)
  | .deleteThread url => some (deleteThread rows url)

/-- The bytes recorded as finished, and those that a thread on the segment asks for. -/
def ThreadInfo.Accounts (info : ThreadInfo) (p : Int) : Prop :=
  (info.start ≤ p ∧ p < info.start + info.finished) ∨ (info.start + info.finished ≤ p ∧ p ≤ info.end_)

/-- The segments a task is started on account for every byte of its resource. -/
def CoversLength (rows : List ThreadInfo) : TableEvent κ → Prop
  | .downlaod taskInfo threadCount => ∀ p, 0 ≤ p → p < taskInfo.lenght →
    ∃ info ∈ (DownloadTask.create taskInfo threadCount).threadInfoList rows, info.Accounts p
  | _ => True

/-- No rows are stored for the URL, or one of them reaches the last byte. -/
def ReachesEnd (rows : List ThreadInfo) : TableEvent κ → Prop
  | .downlaod taskInfo _ => 0 < taskInfo.lenght → getThread rows taskInfo.url = [] ∨
    ∃ row ∈ getThread rows taskInfo.url, taskInfo.lenght ≤ row.end_ + 1 ∨ taskInfo.lenght ≤ row.start + row.finished
  | _ => True

/-- Each segment starts right behind the one before it. -/
def ContiguousFrom : Int → List ThreadInfo → Prop
  | _, [] => True
  | position, info :: rest => info.start = position ∧ position ≤ info.end_ + 1 ∧ ContiguousFrom (info.end_ + 1) rest

/-- The segments stored for each URL start at byte 0 and have no gaps. -/
def Contiguous (rows : List ThreadInfo) : Prop := ∀ url, ContiguousFrom 0 (getThread rows url)

/-- Segments without gaps account for every byte up to the end of each of them. -/
theorem ContiguousFrom.accounts {position p : Int} {infos : List ThreadInfo} (contiguous : ContiguousFrom position infos)
    (above : position ≤ p) {last : ThreadInfo} (member : last ∈ infos) (below : p ≤ last.end_) :
    ∃ info ∈ infos, info.Accounts p := by
  induction infos generalizing position with
  | nil => cases member
  | cons info rest ih =>
    obtain ⟨start, -, contiguous⟩ := contiguous
    by_cases inside : p ≤ info.end_
    · refine ⟨info, List.mem_cons_self, ?_⟩
      unfold ThreadInfo.Accounts
      omega
    · have later : last ∈ rest := by
        rcases List.mem_cons.mp member with rfl | later
        · exact absurd below inside
        · exact later
      obtain ⟨found, member, accounts⟩ := ih contiguous (by omega) later
      exact ⟨found, List.mem_cons_of_mem _ member, accounts⟩

theorem ContiguousFrom.ordered {position : Int} {infos : List ThreadInfo} (contiguous : ContiguousFrom position infos)
    {info : ThreadInfo} (member : info ∈ infos) : info.start ≤ info.end_ + 1 := by
  induction infos generalizing position with
  | nil => cases member
  | cons first rest ih =>
    obtain ⟨start, ordered, contiguous⟩ := contiguous
    rcases List.mem_cons.mp member with rfl | later
    · omega
    · exact ih contiguous later

/-- The bytes are all accounted for when the last one is. -/
theorem ContiguousFrom.covers_iff {length : Int} {infos : List ThreadInfo} (contiguous : ContiguousFrom 0 infos)
    (positive : 0 < length) :
    (∀ p, 0 ≤ p → p < length → ∃ info ∈ infos, info.Accounts p) ↔
      ∃ info ∈ infos, length ≤ info.end_ + 1 ∨ length ≤ info.start + info.finished := by
  constructor
  · intro covers
    obtain ⟨info, member, accounts⟩ := covers (length - 1) (by omega) (by omega)
    refine ⟨info, member, ?_⟩
    unfold ThreadInfo.Accounts at accounts
    omega
  · rintro ⟨info, member, reaches⟩ p nonneg below
    by_cases inside : p ≤ info.end_
    · exact contiguous.accounts nonneg member inside
    · have ordered := contiguous.ordered member
      exact ⟨info, member, Or.inl ⟨by omega, by omega⟩⟩

theorem ContiguousFrom.take {position : Int} {infos : List ThreadInfo} (contiguous : ContiguousFrom position infos)
    (count : Nat) : ContiguousFrom position (infos.take count) := by
  induction infos generalizing position count with
  | nil => simpa using contiguous
  | cons info rest ih =>
    cases count with
    | zero => trivial
    | succ count => exact ⟨contiguous.1, contiguous.2.1, ih contiguous.2.2 count⟩

/-- Counts do not move segments. -/
theorem ContiguousFrom.map {position : Int} {infos : List ThreadInfo} (contiguous : ContiguousFrom position infos)
    {f : ThreadInfo → ThreadInfo} (start : ∀ info, (f info).start = info.start) (stop : ∀ info, (f info).end_ = info.end_) :
    ContiguousFrom position (infos.map f) := by
  induction infos generalizing position with
  | nil => trivial
  | cons info rest ih =>
    refine ⟨(start info).trans contiguous.1, ?_, ?_⟩
    · rw [stop]
      exact contiguous.2.1
    · rw [stop]
      exact ih contiguous.2.2

/-- The blocks from `k` on, the last of which goes to the end of the file. -/
theorem contiguous_blocks {block length : Int} {count : Nat} (url : String) (positive : 0 < block)
    (inside : count * block ≤ length) (m k : Nat) (all : k + m = count) :
    ContiguousFrom (k * block) ((List.range' k m).map fun (i : Nat) =>
      { id := i, url, start := i * block, end_ := if i = count - 1 then length else (i + 1) * block - 1,
        finished := 0 }) := by
  induction m generalizing k with
  | zero => trivial
  | succ m ih =>
    rw [List.range'_succ, List.map_cons]
    have rest := ih (k + 1) (by omega)
    by_cases last : k = count - 1
    · have none : m = 0 := by omega
      subst none
      refine ⟨rfl, ?_, trivial⟩
      simp only [if_pos last]
      have below : (k : Int) * block ≤ count * block := Int.mul_le_mul_of_nonneg_right (by omega) positive.le
      omega
    · refine ⟨rfl, ?_, ?_⟩
      · simp only [if_neg last]
        rw [add_mul]
        omega
      · simp only [if_neg last]
        simpa using rest

/-- The segments of a new task, whose last one goes one byte past the file. -/
theorem contiguous_segments {taskInfo : TaskInfo κ} (positive : 0 < taskInfo.lenght) {count : Nat}
    (some_thread : 0 < count) :
    ContiguousFrom 0 (DownloadTask.segments taskInfo count) ∧
      ∃ info ∈ DownloadTask.segments taskInfo count, taskInfo.lenght ≤ info.end_ + 1 := by
  by_cases blocks : 0 < taskInfo.lenght.tdiv count
  · have cut : DownloadTask.segments taskInfo count = (List.range count).map fun (i : Nat) =>
        { id := i, url := taskInfo.url, start := i * taskInfo.lenght.tdiv count
          end_ := if i = count - 1 then taskInfo.lenght else (i + 1) * taskInfo.lenght.tdiv count - 1, finished := 0 } :=
      if_pos blocks
    have inside : (count : Int) * taskInfo.lenght.tdiv count ≤ taskInfo.lenght := by
      rw [Int.tdiv_eq_ediv_of_nonneg positive.le]
      exact Int.mul_ediv_self_le (by omega)
    rw [cut]
    constructor
    · rw [List.range_eq_range']
      simpa using contiguous_blocks taskInfo.url blocks inside count 0 (by omega)
    · refine ⟨_, List.mem_map.mpr ⟨count - 1, List.mem_range.mpr (by omega), rfl⟩, ?_⟩
      simp only [if_true]
      omega
  · have whole : DownloadTask.segments taskInfo count =
        [{ id := 0, url := taskInfo.url, start := 0, end_ := taskInfo.lenght, finished := 0 }] := if_neg blocks
    rw [whole]
    refine ⟨⟨rfl, ?_, trivial⟩, _, List.mem_singleton_self _, ?_⟩
    · simp only
      omega
    · simp only
      omega

theorem url_of_segment {taskInfo : TaskInfo κ} {count : Nat} {info : ThreadInfo}
    (member : info ∈ DownloadTask.segments taskInfo count) : info.url = taskInfo.url := by
  simp only [DownloadTask.segments] at member
  split at member
  · obtain ⟨i, -, rfl⟩ := List.mem_map.mp member
    rfl
  · rw [List.mem_singleton.mp member]

theorem threadCount_pos (taskInfo : TaskInfo κ) (threadCount : Int) :
    0 < (DownloadTask.create taskInfo threadCount).threadCount := by
  simp only [DownloadTask.create, DownloadTask.defaultThreadCount]
  split <;> omega

theorem threadInfoList_fresh {task : DownloadTask κ} {rows : List ThreadInfo}
    (fresh : getThread rows task.taskInfo.url = []) :
    task.threadInfoList rows = DownloadTask.segments task.taskInfo task.threadCount := by
  simp [DownloadTask.threadInfoList, fresh]

theorem threadInfoList_stored {task : DownloadTask κ} {rows : List ThreadInfo}
    (stored : getThread rows task.taskInfo.url ≠ []) :
    task.threadInfoList rows = getThread rows task.taskInfo.url := by
  simp [DownloadTask.threadInfoList, List.length_eq_zero_iff, stored]

theorem downlaod_rows {task : DownloadTask κ} {rows : List ThreadInfo} : (task.downlaod rows).2 =
    if getThread rows task.taskInfo.url = [] then rows ++ DownloadTask.segments task.taskInfo task.threadCount
    else rows := by
  by_cases fresh : getThread rows task.taskInfo.url = []
  · simp [DownloadTask.downlaod, fresh, foldl_insertThread, threadInfoList_fresh fresh]
  · simp [DownloadTask.downlaod, List.length_eq_zero_iff, fresh]

/-- Inserting the first segments of a task whose URL has no rows. -/
theorem Contiguous.insert {rows : List ThreadInfo} (contiguous : Contiguous rows) {taskInfo : TaskInfo κ} {count : Nat}
    (positive : 0 < taskInfo.lenght) (some_thread : 0 < count) (fresh : getThread rows taskInfo.url = []) (inserted : Nat) :
    Contiguous (rows ++ (DownloadTask.segments taskInfo count).take inserted) := by
  intro url
  have own : ∀ info ∈ (DownloadTask.segments taskInfo count).take inserted, info.url = taskInfo.url :=
    fun info member => url_of_segment (List.mem_of_mem_take member)
  rw [getThread_append]
  by_cases same : taskInfo.url = url
  · subst same
    rw [fresh, getThread_eq_self own]
    exact (contiguous_segments positive some_thread).1.take inserted
  · have none : getThread ((DownloadTask.segments taskInfo count).take inserted) url = [] :=
      getThread_eq_nil fun info member => own info member ▸ same
    rw [none, List.append_nil]
    exact contiguous url

theorem Contiguous.step {rows rows' : List ThreadInfo} (contiguous : Contiguous rows) {event : TableEvent κ}
    (taken : tableStep rows event = some rows') : Contiguous rows' := by
  cases event with
  | downlaod taskInfo threadCount =>
    obtain ⟨positive, same⟩ := Option.ite_none_right_eq_some.mp taken
    cases same
    rw [downlaod_rows]
    split
    next fresh =>
      have all := contiguous.insert positive (threadCount_pos taskInfo threadCount) fresh
        (DownloadTask.segments taskInfo (DownloadTask.create taskInfo threadCount).threadCount).length
      rwa [List.take_length] at all
    next => exact contiguous
  | killed taskInfo threadCount inserted =>
    obtain ⟨⟨positive, fresh⟩, same⟩ := Option.ite_none_right_eq_some.mp taken
    cases same
    rw [foldl_insertThread, threadInfoList_fresh fresh]
    exact contiguous.insert positive (threadCount_pos taskInfo threadCount) fresh inserted
  | updateThread url thread_id finished =>
    cases taken
    intro url'
    rw [getThread_updateThread]
    refine (contiguous url').map (fun row => ?_) fun row => ?_
    · split <;> rfl
    · split <;> rfl
  | deleteThread url =>
    cases taken
    intro url'
    by_cases same : url' = url
    · rw [same, getThread_deleteThread]
      trivial
    · rw [getThread_deleteThread_of_ne rows same]
      exact contiguous url'

/-- A new task accounts for all its bytes exactly when it starts afresh, or a stored segment
reaches the last byte. -/
theorem covers_downlaod_iff {rows : List ThreadInfo} (contiguous : Contiguous rows) (event : TableEvent κ) :
    CoversLength rows event ↔ ReachesEnd rows event := by
  cases event with
  | downlaod taskInfo threadCount =>
    by_cases positive : 0 < taskInfo.lenght
    · by_cases fresh : getThread rows taskInfo.url = []
      · obtain ⟨segments, last, member, reaches⟩ :=
          contiguous_segments positive (threadCount_pos taskInfo threadCount)
        have list := @threadInfoList_fresh κ (DownloadTask.create taskInfo threadCount) rows fresh
        refine iff_of_true ?_ fun _ => Or.inl fresh
        simp only [CoversLength, list]
        exact (segments.covers_iff positive).mpr ⟨last, member, Or.inl reaches⟩
      · have covers := (contiguous taskInfo.url).covers_iff positive
        have list := @threadInfoList_stored κ (DownloadTask.create taskInfo threadCount) rows fresh
        simp only [CoversLength, ReachesEnd, list]
        exact covers.trans ⟨fun reaches _ => Or.inr reaches, fun reaches => (reaches positive).resolve_left fresh⟩
    · refine iff_of_true (fun p nonneg below => ?_) fun some_bytes => absurd some_bytes positive
      omega
  | _ => exact Iff.rfl

/-- Every new task accounts for all its bytes exactly when each is started on a table whose
segments for its URL, if there are any, reach its end. -/
theorem stored_segments_cover_iff (events : List (TableEvent κ)) :
    Steps tableStep CoversLength [] events ↔ Steps tableStep ReachesEnd [] events := by
  have start : Contiguous [] := fun _ => trivial
  have agree : ∀ rows (event : TableEvent κ), Contiguous rows → (CoversLength rows event ↔ ReachesEnd rows event) :=
    fun rows event contiguous => covers_downlaod_iff contiguous event
  have preserved : ∀ rows (event : TableEvent κ) rows', Contiguous rows → CoversLength rows event →
      tableStep rows event = some rows' → Contiguous rows' :=
    fun rows event rows' contiguous _ taken => contiguous.step taken
  exact steps_iff agree preserved start

instance (info : ThreadInfo) : DecidablePred info.Accounts :=
  fun p => inferInstanceAs (Decidable ((info.start ≤ p ∧ p < info.start + info.finished) ∨
    (info.start + info.finished ≤ p ∧ p ≤ info.end_)))

/-- A task for three bytes is paused after the first, and a new task finds five. -/
theorem grown_not_covered : ¬ Steps tableStep CoversLength []
    [.downlaod threeBytes 1, .updateThread threeBytes.url 0 1, .downlaod { threeBytes with lenght := 5 } 1] := by
  intro all
  have covers : CoversLength _ (.downlaod { threeBytes with lenght := 5 } 1) := ((all.2 _ rfl).2 _ rfl).1
  exact absurd (covers 4 (by decide) (by decide)) (by decide)

/-! The service is one such table: its tasks have one thread each. -/

section
variable {w w' : Service κ}

theorem table_of_stepped {event : ServiceEvent κ} (tidy : w.Tidy) (stepped : Stepped w event w') :
    ∃ events : List (TableEvent κ), run tableStep w.rows events = some w'.rows := by
  cases stepped with
  | restarted info k entry found paused =>
    have own := tidy.task (Service.of_find? found).1
    refine ⟨[.downlaod entry.task.taskInfo 1], ?_⟩
    have same : ((DownloadTask.create entry.task.taskInfo 1).downlaod w.rows).2 = (entry.task.restart w.rows).2 := by
      rw [DownloadTask.restart, downlaod_rows, downlaod_rows]
      simp [DownloadTask.create, own.count]
    simp [run, tableStep, own.positive, same]
  | created request info rest first =>
    have message := tidy.messages request info (first ▸ List.mem_cons_self)
    exact ⟨[.downlaod info 1], by simp [run, tableStep, message.2]⟩
  | completed k progress rest entry first present called full => exact ⟨[.deleteThread entry.task.taskInfo.url], rfl⟩
  | ran k i event entry thread thread' action outcome present started ran performed =>
    by_cases saves : action = .updateThread
    · exact ⟨[.updateThread thread'.threadInfo.url thread'.threadInfo.id thread'.threadInfo.finished],
        by simp [run, tableStep, performed.rows, saves]⟩
    · exact ⟨[], by simp [run, performed.rows, saves]⟩
  | _ => exact ⟨[], rfl⟩

/-- In every state the service reaches the rows of each URL have no gaps. -/
theorem contiguous_of_run {events : List (ServiceEvent κ)} (whole : run Service.step {} events = some w) :
    Contiguous w.rows := by
  have preserved : ∀ (w : Service κ) event w', w.Tidy ∧ Contiguous w.rows → True → w.step event = some w' →
      w'.Tidy ∧ Contiguous w'.rows := by
    rintro w event w' ⟨tidy, contiguous⟩ - taken
    have stepped := stepped_of_step taken
    obtain ⟨changes, changed⟩ := table_of_stepped tidy stepped
    exact ⟨tidy_step tidy stepped, run_invariant (fun rows event rows' contiguous _ taken => contiguous.step taken)
      contiguous Steps.any changed⟩
  exact (run_invariant preserved ⟨tidy_start, fun _ => trivial⟩ Steps.any whole).2

end

end AdTerminal.Download
