import AdTerminal.Download.Faithful

/-! Pausing and resuming a task with one segment. The count that is stored on a pause is the
position the next thread starts from, so what is counted stays correct over any number of
resumes as long as the response begins at that position. A response of code 200 does not. -/

namespace AdTerminal.Download
open Transition RandomAccess

variable {κ : Type} {resource file : List UInt8} {taskInfo : TaskInfo κ} {w w' : Transfer κ}

/-- The server knows the two accepted codes: 206 with the requested part, 200 with the whole
resource. -/
def Serves (resource : List UInt8) (w : Transfer κ) : TransferEvent → Prop
  | .thread i (.respond code body) => ∀ thread, w.task.threads[i]? = some thread →
      (code = 206 → body = thread.threadInfo.rest resource thread.position.toNat) ∧
      (code = 200 → body = resource)
  | _ => True

/-- The whole resource is only sent to a thread that starts at its first byte. -/
def WholeFromZero (w : Transfer κ) : TransferEvent → Prop
  | .thread i (.respond code _) => ∀ thread, w.task.threads[i]? = some thread → code = 200 → thread.position = 0
  | _ => True

/-- When progress is posted while bytes are missing, a float tells their count from the length. -/
def CountDistinct (w : Transfer κ) : TransferEvent → Prop
  | .thread i event => ∀ thread thread', w.task.threads[i]? = some thread →
      thread.run w.task.isPause event = some (thread', .notifyProgress) →
      thread'.threadInfo.finished < w.task.taskInfo.lenght →
      Binary32.round thread'.threadInfo.finished < Binary32.round w.task.taskInfo.lenght
  | _ => True

instance (resource : List UInt8) (w : Transfer κ) : DecidablePred (Serves resource w)
  | .thread i (.respond code body) =>
    inferInstanceAs (Decidable (∀ thread ∈ w.task.threads[i]?,
      (code = 206 → body = thread.threadInfo.rest resource thread.position.toNat) ∧
      (code = 200 → body = resource)))
  | .thread _ (.read _) | .thread _ .endOfStream | .thread _ (.clock _) | .thread _ .proceed | .thread _ .fail
  | .pause | .download | .dispatch => isTrue trivial

instance (w : Transfer κ) : DecidablePred (WholeFromZero w)
  | .thread i (.respond code _) =>
    inferInstanceAs (Decidable (∀ thread ∈ w.task.threads[i]?, code = 200 → thread.position = 0))
  | .thread _ (.read _) | .thread _ .endOfStream | .thread _ (.clock _) | .thread _ .proceed | .thread _ .fail
  | .pause | .download | .dispatch => isTrue trivial

instance (w : Transfer κ) : DecidablePred (CountDistinct w)
  | .thread i event =>
    decidable_of_iff (∀ thread ∈ w.task.threads[i]?, ∀ ran ∈ thread.run w.task.isPause event,
        ran.2 = .notifyProgress → ran.1.threadInfo.finished < w.task.taskInfo.lenght →
        Binary32.round ran.1.threadInfo.finished < Binary32.round w.task.taskInfo.lenght)
      ⟨fun all thread thread' present ran => all thread present (thread', .notifyProgress) ran rfl,
        fun all thread present ran taken notifies =>
          all thread ran.1 present (notifies ▸ taken : thread.run w.task.isPause event = some (ran.1, .notifyProgress))⟩
  | .pause | .download | .dispatch => isTrue trivial

/-- The one segment of the task: the whole file. -/
def Whole (taskInfo : TaskInfo κ) (info : ThreadInfo) : Prop :=
  info.id = 0 ∧ info.url = taskInfo.url ∧ info.start = 0 ∧ info.end_ = taskInfo.lenght

/-- The invariant over pauses and resumes. -/
structure Resuming (resource : List UInt8) (taskInfo : TaskInfo κ) (w : Transfer κ) : Prop where
  info : w.task.taskInfo = taskInfo
  count : w.task.threadCount = 1
  totals : w.task.totalFinished.length = 1
  length : w.file.length = resource.length
  rows : ∀ row ∈ w.rows, row.url = taskInfo.url → Whole taskInfo row ∧ row.Sound resource w.file
  threads : ∀ thread ∈ w.task.threads, Whole taskInfo thread.threadInfo ∧ thread.Sound resource w.file
  inbox : ∀ message ∈ w.inbox, 100 ≤ message → AgreeOn w.file resource (Set.Iio resource.length)
  finished : ∀ snapshot ∈ w.finishedFiles, snapshot = resource

theorem stop_whole {info : ThreadInfo} (length : taskInfo.lenght = resource.length)
    (whole : Whole taskInfo info) :
    info.stop resource = resource.length := by
  rw [ThreadInfo.stop, whole.2.2.2, length]
  omega

/-- The segments a task starts threads for are whole and sound: those stored, or a new one. -/
theorem threadInfoList_whole {task : DownloadTask κ} {rows : List ThreadInfo}
    (info_eq : task.taskInfo = taskInfo)
    (count : task.threadCount = 1) (positive : 0 < taskInfo.lenght)
    (stored : ∀ row ∈ rows, row.url = taskInfo.url → Whole taskInfo row ∧ row.Sound resource file) :
    ∀ info ∈ task.threadInfoList rows, Whole taskInfo info ∧ info.Sound resource file := by
  intro info member
  simp only [DownloadTask.threadInfoList, info_eq, count] at member
  split at member
  · rw [DownloadTask.segments_one positive, List.mem_singleton] at member
    subst member
    refine ⟨⟨rfl, rfl, rfl, rfl⟩, sound_of_nothing le_rfl rfl ?_⟩
    change 0 ≤ min (taskInfo.lenght + 1) (resource.length : Int)
    omega
  · have row := List.mem_filter.mp member
    exact stored info row.1 (by simpa using row.2)

theorem ThreadInfo.Sound.congr {first second : ThreadInfo} (sound : second.Sound resource file)
    (start : first.start = second.start) (end_ : first.end_ = second.end_)
    (finished : first.finished = second.finished) : first.Sound resource file := by
  have stop : first.stop resource = second.stop resource := by rw [ThreadInfo.stop, end_]; rfl
  have counted : first.counted = second.counted := by rw [ThreadInfo.counted, start, finished]; rfl
  refine ⟨start ▸ sound.start_nonneg, finished ▸ sound.finished_nonneg, ?_, counted ▸ sound.agree⟩
  rw [start, finished, stop]
  exact sound.within

theorem resuming_downlaod {task : DownloadTask κ} (resuming : Resuming resource taskInfo w)
    (positive : 0 < taskInfo.lenght) (info_eq : task.taskInfo = taskInfo) (count : task.threadCount = 1)
    (totals : task.totalFinished.length = 1) (threads : task.threads = w.task.threads) :
    Resuming resource taskInfo { w with task := (task.downlaod w.rows).1, rows := (task.downlaod w.rows).2 } := by
  have started := threadInfoList_whole info_eq count positive resuming.rows
  refine ⟨info_eq, count, totals, resuming.length, ?_, ?_, resuming.inbox, resuming.finished⟩
  · intro row member same
    simp only [DownloadTask.downlaod] at member
    split at member
    · rw [foldl_insertThread, List.mem_append] at member
      exact member.elim (fun old => resuming.rows row old same) (fun new => started row new)
    · exact resuming.rows row member same
  · intro thread member
    simp only [DownloadTask.downlaod, List.mem_append, List.mem_map, threads] at member
    rcases member with old | ⟨info, new, rfl⟩
    · exact resuming.threads thread old
    · exact ⟨(started info new).1, (started info new).2, trivial⟩

/-- What a whole segment posts: at least 100 only when everything is counted. -/
theorem posted_complete {task : DownloadTask κ} {info : ThreadInfo} {message : Int}
    (whole : Whole taskInfo info)
    (sound : info.Sound resource file) (info_eq : task.taskInfo = taskInfo)
    (length : taskInfo.lenght = resource.length) (small : (resource.length : Int) < 2 ^ 31)
    (totals : task.totalFinished.length = 1)
    (distinct : info.finished < taskInfo.lenght → Binary32.round info.finished < Binary32.round taskInfo.lenght)
    (posted : (task.notifyProgress floatProgress info.id info.finished).2 = some message)
    (complete : 100 ≤ message) :
    AgreeOn file resource (Set.Iio resource.length) := by
  have within := sound.within
  rw [stop_whole length whole, whole.2.2.1] at within
  have nonneg := sound.finished_nonneg
  obtain ⟨total, totals⟩ := List.length_eq_one_iff.mp totals
  have message_eq : floatProgress info.finished taskInfo.lenght = message := by
    have counted : int info.finished = info.finished := int_of_range (by omega) (by omega)
    simpa [DownloadTask.notifyProgress, totals, whole.1, info_eq, counted] using posted
  have reached : taskInfo.lenght ≤ info.finished := by
    by_contra missing
    have below := floatProgress_lt nonneg (distinct (not_le.mp missing))
    omega
  apply sound.agree.mono
  intro p inside
  have bound : p < resource.length := inside
  refine ⟨by rw [whole.2.2.1]; omega, ?_⟩
  rw [whole.2.2.1]
  omega

theorem answers_of_serves {i : Nat} {event : ThreadEvent} {thread : DownloadThread}
    (length : taskInfo.lenght = resource.length) (whole : Whole taskInfo thread.threadInfo)
    (present : w.task.threads[i]? = some thread) (serves : Serves resource w (.thread i event))
    (zero : WholeFromZero w (.thread i event)) : Answers resource thread.threadInfo event := by
  cases event with
  | respond code body =>
    intro served
    rcases served with rfl | rfl
    · exact (serves thread present).1 rfl
    · have position : int (thread.threadInfo.start + thread.threadInfo.finished) = 0 := zero thread present rfl
      rw [(serves thread present).2 rfl, ThreadInfo.rest, stop_whole length whole, position]
      simp
  | _ => trivial

theorem resuming_thread {i : Nat} {event : ThreadEvent} (resuming : Resuming resource taskInfo w)
    (length : taskInfo.lenght = resource.length) (small : (resource.length : Int) < 2 ^ 31)
    (serves : Serves resource w (.thread i event)) (zero : WholeFromZero w (.thread i event))
    (distinct : CountDistinct w (.thread i event))
    (taken : w.step floatProgress (.thread i event) = some w') :
    Resuming resource taskInfo w' := by
  obtain ⟨thread, thread', action, outcome, present, run, performed, rfl⟩ := Transfer.step_thread taken
  obtain ⟨whole, sound⟩ := resuming.threads thread (List.mem_of_getElem? present)
  have ran := ran_of_run run
  have answers := answers_of_serves length whole present serves zero
  obtain ⟨file_length, keeps, sound'⟩ := sound_run ran sound.segment sound.ahead answers resuming.length small
  have whole' : Whole taskInfo thread'.threadInfo := by
    obtain ⟨finished, same⟩ := threadInfo_of_ran ran
    rw [same]
    exact whole
  rw [← performed.file] at file_length keeps sound'
  refine ⟨performed.taskInfo.trans resuming.info, performed.threadCount.trans resuming.count, ?_, file_length,
    ?_, ?_, ?_, resuming.finished⟩
  · exact performed.totals_length.trans resuming.totals
  · intro row member same
    rw [performed.rows] at member
    split at member
    · obtain ⟨row₀, before, updated⟩ := List.mem_map.mp member
      have url : row₀.url = taskInfo.url := by
        rw [← same, ← updated]
        split <;> rfl
      obtain ⟨stored, row_sound⟩ := resuming.rows row₀ before url
      split at updated
      · subst updated
        refine ⟨stored, sound'.segment.congr ?_ ?_ rfl⟩
        · exact stored.2.2.1.trans whole'.2.2.1.symm
        · exact stored.2.2.2.trans whole'.2.2.2.symm
      · subst updated
        exact ⟨stored, row_sound.mono keeps⟩
    · obtain ⟨stored, row_sound⟩ := resuming.rows row member same
      exact ⟨stored, row_sound.mono keeps⟩
  · intro other member
    rw [performed.threads] at member
    rcases List.mem_or_eq_of_mem_set member with old | rfl
    · obtain ⟨other_whole, other_sound⟩ := resuming.threads other old
      exact ⟨other_whole, other_sound.mono keeps⟩
    · exact ⟨whole', sound'⟩
  · intro message member complete
    rcases List.mem_append.mp member with old | new
    · exact keeps _ (resuming.inbox message old complete)
    · rw [performed.posted, Option.mem_toList] at new
      split at new
      next notifies =>
        subst notifies
        apply posted_complete whole' sound'.segment resuming.info length small resuming.totals ?_ new complete
        have told := distinct thread thread' present run
        rwa [resuming.info] at told
      next => cases new

theorem resuming_step {e : TransferEvent} (resuming : Resuming resource taskInfo w)
    (length : taskInfo.lenght = resource.length) (positive : 0 < taskInfo.lenght)
    (small : (resource.length : Int) < 2 ^ 31)
    (ok : Serves resource w e ∧ WholeFromZero w e ∧ CountDistinct w e)
    (taken : w.step floatProgress e = some w') :
    Resuming resource taskInfo w' := by
  cases e with
  | thread i event => exact resuming_thread resuming length small ok.1 ok.2.1 ok.2.2 taken
  | pause =>
    obtain rfl := Option.some.inj taken
    exact ⟨resuming.info, resuming.count, resuming.totals, resuming.length, resuming.rows, resuming.threads,
      resuming.inbox, resuming.finished⟩
  | download =>
    obtain rfl := Option.some.inj taken
    unfold Transfer.download
    split
    · exact resuming_downlaod resuming positive resuming.info resuming.count resuming.totals rfl
    · exact resuming
  | dispatch =>
    cases waiting : w.inbox with
    | nil => simp [Transfer.step, waiting] at taken
    | cons message rest =>
      have inbox := resuming.inbox
      simp only [waiting, List.mem_cons, forall_eq_or_imp] at inbox
      simp only [Transfer.step, waiting, Option.some.injEq] at taken
      subst taken
      unfold Transfer.dispatchMessage
      split
      · exact ⟨resuming.info, resuming.count, resuming.totals, resuming.length, resuming.rows, resuming.threads,
          inbox.2, resuming.finished⟩
      · split
        next complete =>
          have equal : w.file = resource := eq_of_agreeOn resuming.length (inbox.1 complete)
          refine ⟨resuming.info, resuming.count, resuming.totals, resuming.length, ?_, resuming.threads, inbox.2, ?_⟩
          · exact fun row member => resuming.rows row (List.mem_filter.mp member).1
          · intro snapshot member
            rcases List.mem_append.mp member with old | new
            · exact resuming.finished snapshot old
            · exact (List.mem_singleton.mp new).trans equal
        next =>
          exact ⟨resuming.info, resuming.count, resuming.totals, resuming.length, resuming.rows, resuming.threads,
            inbox.2, resuming.finished⟩

theorem resuming_begin {rows : List ThreadInfo} {old : List UInt8}
    (length : taskInfo.lenght = resource.length)
    (positive : 0 < taskInfo.lenght) (fresh : ∀ row ∈ rows, row.url ≠ taskInfo.url) :
    Resuming resource taskInfo (Transfer.begin taskInfo 1 rows old) := by
  have empty : Resuming resource taskInfo
      { task := DownloadTask.create taskInfo 1, rows, file := setLength 0 old taskInfo.lenght.toNat } := by
    refine ⟨rfl, rfl, rfl, ?_, ?_, ?_, ?_, ?_⟩
    · rw [length_setLength, length, Int.toNat_natCast]
    · exact fun row member same => absurd same (fresh row member)
    · exact fun _ absent => absurd absent List.not_mem_nil
    · exact fun _ absent => absurd absent List.not_mem_nil
    · exact fun _ absent => absurd absent List.not_mem_nil
  exact resuming_downlaod empty positive rfl rfl rfl rfl

/-- Over any reads, pauses and resumes of a task with one segment, the file is the resource at
every call of `onDownloadFinished`, if the whole resource is only sent to a thread that starts
at its first byte, and a float tells the counts posted from the length. -/
theorem finished_files_complete {rows : List ThreadInfo} {old : List UInt8} {es : List TransferEvent}
    (length : taskInfo.lenght = resource.length) (positive : 0 < resource.length)
    (small : (resource.length : Int) < 2 ^ 31) (fresh : ∀ row ∈ rows, row.url ≠ taskInfo.url)
    (steps : Steps (Transfer.step floatProgress)
      (fun w e => Serves resource w e ∧ WholeFromZero w e ∧ CountDistinct w e)
      (Transfer.begin taskInfo 1 rows old) es) :
    Throughout (Transfer.step floatProgress) (fun w => ∀ snapshot ∈ w.finishedFiles, snapshot = resource)
      (Transfer.begin taskInfo 1 rows old) es := by
  have length_pos : 0 < taskInfo.lenght := by omega
  exact throughout_of_invariant (fun _ _ _ inv ok taken => resuming_step inv length length_pos small ok taken)
    (fun _ inv => inv.finished) (resuming_begin length length_pos fresh) steps

/-- A float tells all counts apart that a file of at most `2 ^ 24` bytes can have. -/
theorem countDistinct_of_small {e : TransferEvent} (resuming : Resuming resource taskInfo w)
    (length : taskInfo.lenght = resource.length) (small : resource.length ≤ 2 ^ 24)
    (serves : Serves resource w e) (zero : WholeFromZero w e) : CountDistinct w e := by
  cases e with
  | thread i event =>
    intro thread thread' present run less
    obtain ⟨whole, sound⟩ := resuming.threads thread (List.mem_of_getElem? present)
    have answers := answers_of_serves length whole present serves zero
    have bounded : (resource.length : Int) < 2 ^ 31 := by omega
    obtain ⟨-, -, sound'⟩ := sound_run (ran_of_run run) sound.segment sound.ahead answers resuming.length bounded
    obtain ⟨count, counted⟩ := Int.eq_ofNat_of_zero_le sound'.segment.finished_nonneg
    rw [resuming.info, length, counted] at less ⊢
    have below : count < resource.length := by exact_mod_cast less
    simp only [Int.cast_natCast]
    rw [Binary32.round_natCast small, Binary32.round_natCast (below.le.trans small)]
    exact_mod_cast below
  | _ => trivial

/-- A request for a resource of three bytes. -/
def threeBytes : TaskInfo Unit :=
  { url := "http://aokai.lymatrix.com/media/a.mp4", filePath := some "/Ad_Video/", fileName := some "a.mp4"
    lenght := 3, download := some () }

/-- The first thread is paused after one byte and has ended when the URL is requested again.
The second one is answered with the given response, and reads it in one piece. -/
def pausedAndResumed (code : Int) (body : List UInt8) : List TransferEvent := [
  .thread 0 (.respond 206 [1, 2, 3]), .thread 0 (.read 1), .thread 0 .proceed, .thread 0 (.clock false), .pause,
  .thread 0 .proceed, .thread 0 .proceed, .thread 0 .proceed, .dispatch, .download,
  .thread 1 (.respond code body), .thread 1 (.read body.length), .thread 1 .proceed, .thread 1 (.clock false),
  .thread 1 .proceed, .thread 1 .endOfStream, .thread 1 .proceed, .dispatch]

theorem resumed_with_part :
    Throughout (Transfer.step floatProgress) (fun w => ∀ snapshot ∈ w.finishedFiles, snapshot = [1, 2, 3])
      (Transfer.begin threeBytes 1 [] []) (pausedAndResumed 206 [2, 3]) :=
  finished_files_complete rfl (by decide) (by decide) (fun _ absent => absurd absent List.not_mem_nil)
    (by decide +kernel)

/-- Answered with the whole resource, the second thread writes it from the second byte on. -/
theorem resumed_with_whole :
    Steps (Transfer.step floatProgress) (Serves [1, 2, 3]) (Transfer.begin threeBytes 1 [] [])
      (pausedAndResumed 200 [1, 2, 3]) ∧
    (run (Transfer.step floatProgress) (Transfer.begin threeBytes 1 [] []) (pausedAndResumed 200 [1, 2, 3])).map
      Transfer.finishedFiles = some [[1, 1, 2, 3]] := by
  decide +kernel

end AdTerminal.Download
