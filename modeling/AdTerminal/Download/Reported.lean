import AdTerminal.Download.Assembly
import AdTerminal.Download.Resume

/-! How often a task with one segment is reported finished. The thread posts its progress from
three places, and every message of 100 or more calls `onDownloadFinished`. -/

namespace AdTerminal.Download
open Transition

variable {κ : Type} {w w' : Transfer κ}

/-- A progress for which the handler calls `onDownloadFinished`. -/
def complete (progress : Int) : Bool := decide (progress ≥ 100)

/-- The calls made and those still to be made for what is posted. -/
def Transfer.reports (w : Transfer κ) : Nat := w.finishedFiles.length + w.inbox.countP complete

def ReportedOnce (w : Transfer κ) : Prop := w.finishedFiles.length ≤ 1

/-- No two seconds have passed, at the clock, when all bytes are counted. -/
def EarlyTick (w : Transfer κ) : TransferEvent → Prop
  | .thread i (.clock true) => ∀ thread ∈ w.task.threads[i]?, thread.threadInfo.finished < w.task.taskInfo.lenght
  | _ => True

/-- The task has one thread, and counts nothing but its bytes. -/
structure Transfer.Single (taskInfo : TaskInfo κ) (count : Nat) (id : Int) (w : Transfer κ) (thread : DownloadThread) :
    Prop where
  task : w.task.taskInfo = taskInfo
  threads : w.task.threads = [thread]
  counted : int thread.threadInfo.finished = thread.threadInfo.finished
  segment : thread.threadInfo.id = id
  totals : ∃ total, w.task.totalFinished = (List.replicate count 0).set id.toNat total

theorem complete_exactProgress {finished lenght : Int} (positive : 0 < lenght) :
    complete (exactProgress finished lenght) = decide (lenght ≤ finished) := by
  unfold complete
  rw [decide_eq_decide]
  rcases lt_or_ge finished lenght with less | all
  · refine iff_of_false ?_ (not_le.mpr less)
    rcases lt_or_ge finished 0 with negative | nonneg
    · have below : 0 ≤ (-(finished * 100)).tdiv lenght := Int.tdiv_nonneg (by omega) positive.le
      rw [Int.neg_tdiv] at below
      unfold exactProgress
      omega
    · exact not_le.mpr (exactProgress_lt nonneg less)
  · refine iff_of_true ?_ all
    rw [exactProgress, Int.tdiv_eq_ediv_of_nonneg (by omega)]
    exact (Int.le_ediv_iff_mul_le positive).mpr (by omega)

variable {taskInfo : TaskInfo κ} {count : Nat} {id : Int} {thread : DownloadThread}

/-- What `notifyProgress` posts for the only thread: the progress of its own count. -/
theorem Transfer.Single.posted (single : w.Single taskInfo count id thread) {info : ThreadInfo} (own : info.id = id)
    (counted : int info.finished = info.finished) :
    (w.task.notifyProgress exactProgress info.id info.finished).2 =
      if 0 ≤ id ∧ id < count then some (exactProgress info.finished taskInfo.lenght) else none := by
  obtain ⟨total, totals⟩ := single.totals
  have length : w.task.totalFinished.length = count := by rw [totals, List.length_set, List.length_replicate]
  rw [own]
  split
  next inside =>
    obtain ⟨i, rfl⟩ := Int.eq_ofNat_of_zero_le inside.1
    have bound : i < w.task.totalFinished.length := by omega
    rw [(notifyProgress_inside exactProgress info.finished bound).2, totals, single.task]
    have sum : (((List.replicate count 0).set (i : Int).toNat total).set i info.finished).sum = info.finished := by
      rw [Int.toNat_natCast, List.set_set, List.sum_set]
      simp
      omega
    rw [sum, counted]
  next outside =>
    rw [← length] at outside
    simp only [DownloadTask.notifyProgress, if_neg outside]

theorem Transfer.Single.totals_notify (single : w.Single taskInfo count id thread) {info : ThreadInfo}
    (own : info.id = id) : ∃ total, (w.task.notifyProgress exactProgress info.id info.finished).1.totalFinished =
      (List.replicate count 0).set id.toNat total := by
  obtain ⟨total, totals⟩ := single.totals
  unfold DownloadTask.notifyProgress
  rw [own]
  split
  next =>
    refine ⟨info.finished, ?_⟩
    change w.task.totalFinished.set id.toNat info.finished = _
    rw [totals, List.set_set]
  next => exact ⟨total, totals⟩

theorem counted_of_ran {isPause : Bool} {info : ThreadInfo} {phase : Phase} {event : ThreadEvent}
    {thread' : DownloadThread} {action : Action} (ran : Ran isPause info phase event thread' action)
    (counted : int info.finished = info.finished) :
    int thread'.threadInfo.finished = thread'.threadInfo.finished ∧ thread'.threadInfo.id = info.id := by
  cases ran with
  | wrote pointer body buffer => exact ⟨Int.bmod_bmod, rfl⟩
  | _ => exact ⟨counted, rfl⟩

/-- The message posted by a step calls `onDownloadFinished`. -/
def Reports (taskInfo : TaskInfo κ) (count : Nat) (id : Int) (thread : DownloadThread) (action : Action) : Prop :=
  action = .notifyProgress ∧ (0 ≤ id ∧ id < count) ∧ taskInfo.lenght ≤ thread.threadInfo.finished

instance (taskInfo : TaskInfo κ) (count : Nat) (id : Int) (thread : DownloadThread) (action : Action) :
    Decidable (Reports taskInfo count id thread action) :=
  inferInstanceAs (Decidable (_ ∧ _))

theorem Transfer.Single.ran (single : w.Single taskInfo count id thread) (positive : 0 < taskInfo.lenght) {i : Nat}
    {event : ThreadEvent} (taken : w.step exactProgress (.thread i event) = some w') :
    ∃ thread' action, w.task.threads[i]? = some thread ∧
      Ran w.task.isPause thread.threadInfo thread.phase event thread' action ∧
      w'.Single taskInfo count id thread' ∧ w'.finishedFiles = w.finishedFiles ∧
      w'.reports = w.reports + if Reports taskInfo count id thread' action then 1 else 0 := by
  obtain ⟨own, thread', action, outcome, present, run, performed, rfl⟩ := Transfer.step_thread taken
  have inside : own ∈ [thread] := single.threads ▸ List.mem_of_getElem? present
  obtain rfl := List.mem_singleton.mp inside
  have first : i = 0 := by
    have bound := (List.getElem?_eq_some_iff.mp present).1
    rw [single.threads, List.length_singleton] at bound
    omega
  subst first
  have ran := ran_of_run run
  obtain ⟨counted, same⟩ := counted_of_ran ran single.counted
  have segment := same.trans single.segment
  have posted := single.posted segment counted
  refine ⟨thread', action, present, ran, ⟨?_, ?_, counted, segment, ?_⟩, rfl, ?_⟩
  · exact performed.taskInfo.trans single.task
  · rw [performed.threads, single.threads]
    rfl
  · rw [performed.totals]
    split
    · exact single.totals_notify segment
    · exact single.totals
  · rw [Transfer.reports, Transfer.reports, List.countP_append, performed.posted, posted]
    unfold Reports
    by_cases notifies : action = .notifyProgress
    · by_cases range : 0 ≤ id ∧ id < count
      · simp [notifies, range, complete_exactProgress positive, List.countP_cons, Nat.add_assoc]
      · simp [notifies, range]
    · simp [notifies]

/-- The main thread adds nothing to the calls made and to be made. -/
theorem Transfer.Single.handled (single : w.Single taskInfo count id thread) {event : TransferEvent}
    (never : event ≠ .download) (not_thread : ∀ i event', event ≠ .thread i event')
    (taken : w.step exactProgress event = some w') :
    w'.Single taskInfo count id thread ∧ w'.reports ≤ w.reports ∧
      (taskInfo.download.isSome → w'.reports = w.reports) := by
  cases event with
  | thread i event' => exact absurd rfl (not_thread i event')
  | download => exact absurd rfl never
  | pause =>
    cases taken
    exact ⟨⟨single.task, single.threads, single.counted, single.segment, single.totals⟩, le_rfl, fun _ => rfl⟩
  | dispatch =>
    simp only [Transfer.step] at taken
    split at taken
    next => cases taken
    next message rest inbox =>
      cases taken
      unfold Transfer.dispatchMessage
      have count : w.inbox.countP complete = rest.countP complete + if complete message then 1 else 0 := by
        rw [inbox, List.countP_cons]
      split
      next absent =>
        have none : taskInfo.download = none := single.task ▸ absent
        refine ⟨⟨single.task, single.threads, single.counted, single.segment, single.totals⟩, ?_, by simp [none]⟩
        simp only [Transfer.reports, count]
        omega
      next =>
        split
        next full =>
          have same : complete message = true := decide_eq_true full
          refine ⟨⟨single.task, single.threads, single.counted, single.segment, single.totals⟩, ?_, fun _ => ?_⟩ <;>
            simp only [Transfer.reports, count, same, if_true, List.length_append, List.length_singleton] <;> omega
        next early =>
          have same : complete message = false := decide_eq_false early
          refine ⟨⟨single.task, single.threads, single.counted, single.segment, single.totals⟩, ?_, fun _ => ?_⟩ <;>
            simp [Transfer.reports, count, same]

/-- How many calls a thread may have led to when its clock was never late: none before its
last message. -/
def Phase.allowance : Phase → Nat
  | .saving | .ended => 1
  | _ => 0

theorem allowance_of_ran {isPause : Bool} {info : ThreadInfo} {phase : Phase} {event : ThreadEvent}
    {thread' : DownloadThread} {action : Action} (ran : Ran isPause info phase event thread' action)
    (early : event = .clock true → info.finished < taskInfo.lenght) :
    phase.allowance + (if Reports taskInfo count id thread' action then 1 else 0) ≤ thread'.phase.allowance := by
  cases ran with
  | clock pointer body late =>
    have silent : ¬ Reports taskInfo count id ⟨info, .polling pointer body⟩ (if late then .notifyProgress else .none) := by
      cases late with
      | false => exact fun reports => nomatch reports.1
      | true => exact fun reports => absurd (early rfl) (not_lt.mpr reports.2.2)
    rw [if_neg silent]
    rfl
  | polled pointer body => cases isPause <;> simp [Phase.allowance, Reports]
  | pausing =>
    change 0 + _ ≤ 1
    split <;> omega
  | closing =>
    change 0 + _ ≤ 1
    split <;> omega
  | failed phase throws =>
    rcases throws with rfl | ⟨pointer, body, rfl⟩ | ⟨pointer, body, buffer, rfl⟩ <;> simp [Phase.allowance, Reports]
  | _ => simp [Phase.allowance, Reports]

/-- A call is made or posted before the last message of the thread. -/
def Overdue (taskInfo : TaskInfo κ) (thread : DownloadThread) (reports : Nat) : Prop :=
  match thread.phase with
  | .queued => False
  | .saving | .ended => taskInfo.lenght ≤ thread.threadInfo.finished → 2 ≤ reports
  | _ => 1 ≤ reports

theorem overdue_of_ran {isPause : Bool} {info : ThreadInfo} {phase : Phase} {event : ThreadEvent}
    {thread' : DownloadThread} {action : Action} {reports : Nat} (ran : Ran isPause info phase event thread' action)
    (range : 0 ≤ id ∧ id < count) (unbroken : event ≠ .fail) (overdue : Overdue taskInfo ⟨info, phase⟩ reports) :
    Overdue taskInfo thread' (reports + if Reports taskInfo count id thread' action then 1 else 0) := by
  cases ran with
  | accepted => exact overdue.elim
  | refused => exact overdue.elim
  | pausing =>
    intro all
    rw [if_pos ⟨rfl, range, all⟩]
    exact Nat.succ_le_succ overdue
  | closing =>
    intro all
    rw [if_pos ⟨rfl, range, all⟩]
    exact Nat.succ_le_succ overdue
  | polled pointer body =>
    have more : 1 ≤ reports := overdue
    cases isPause <;> exact Nat.le_add_right_of_le more
  | saving => exact fun all => Nat.le_add_right_of_le (overdue all)
  | failed => exact absurd rfl unbroken
  | _ => exact Nat.le_add_right_of_le overdue

/-- All that is posted is handled, and the thread has come to its end with all bytes counted. -/
def Completed (w : Transfer κ) : Prop :=
  w.inbox = [] ∧ ∃ thread ∈ w.task.threads, thread.phase = .ended ∧ w.task.taskInfo.lenght ≤ thread.threadInfo.finished

def Sole (taskInfo : TaskInfo κ) (count : Nat) (id : Int) (w : Transfer κ) : Prop :=
  ∃ thread, w.Single taskInfo count id thread

theorem Sole.step {event : TransferEvent} (positive : 0 < taskInfo.lenght) (sole : Sole taskInfo count id w)
    (never : event ≠ .download) (taken : w.step exactProgress event = some w') : Sole taskInfo count id w' := by
  obtain ⟨thread, single⟩ := sole
  by_cases threaded : ∃ i event', event = .thread i event'
  · obtain ⟨i, event', rfl⟩ := threaded
    obtain ⟨thread', action, -, -, single', -, -⟩ := single.ran positive taken
    exact ⟨thread', single'⟩
  · exact ⟨thread, (single.handled never (fun i event' same => threaded ⟨i, event', same⟩) taken).1⟩

/-- While no tick is late with all bytes counted, there is at most the call for the last message. -/
def Allowed (taskInfo : TaskInfo κ) (count : Nat) (id : Int) (w : Transfer κ) : Prop :=
  ∃ thread, w.Single taskInfo count id thread ∧ w.reports ≤ thread.phase.allowance

def Doubled (taskInfo : TaskInfo κ) (count : Nat) (id : Int) (w : Transfer κ) : Prop :=
  ∃ thread, w.Single taskInfo count id thread ∧ Overdue taskInfo thread w.reports

theorem Allowed.step {event : TransferEvent} (positive : 0 < taskInfo.lenght) (allowed : Allowed taskInfo count id w)
    (never : event ≠ .download) (early : EarlyTick w event) (taken : w.step exactProgress event = some w') :
    Allowed taskInfo count id w' := by
  obtain ⟨thread, single, bound⟩ := allowed
  by_cases threaded : ∃ i event', event = .thread i event'
  · obtain ⟨i, event', rfl⟩ := threaded
    obtain ⟨thread', action, present, ran, single', -, reports⟩ := single.ran positive taken
    have tick : event' = .clock true → thread.threadInfo.finished < taskInfo.lenght := by
      rintro rfl
      exact single.task ▸ early thread present
    have more := @allowance_of_ran κ taskInfo count id _ _ _ _ _ _ ran tick
    exact ⟨thread', single', by omega⟩
  · have other : ∀ i event', event ≠ .thread i event' := fun i event' same => threaded ⟨i, event', same⟩
    obtain ⟨single', fewer, -⟩ := single.handled never other taken
    exact ⟨thread, single', fewer.trans bound⟩

theorem Doubled.step {event : TransferEvent} (positive : 0 < taskInfo.lenght) (callback : taskInfo.download.isSome)
    (range : 0 ≤ id ∧ id < count) (doubled : Doubled taskInfo count id w) (never : event ≠ .download)
    (unbroken : ∀ i, event ≠ .thread i .fail) (taken : w.step exactProgress event = some w') :
    Doubled taskInfo count id w' := by
  obtain ⟨thread, single, overdue⟩ := doubled
  by_cases threaded : ∃ i event', event = .thread i event'
  · obtain ⟨i, event', rfl⟩ := threaded
    obtain ⟨thread', action, present, ran, single', -, reports⟩ := single.ran positive taken
    have whole : event' ≠ .fail := fun same => unbroken i (same ▸ rfl)
    exact ⟨thread', single', reports ▸ overdue_of_ran ran range whole overdue⟩
  · have other : ∀ i event', event ≠ .thread i event' := fun i event' same => threaded ⟨i, event', same⟩
    obtain ⟨single', -, same⟩ := single.handled never other taken
    exact ⟨thread, single', by rwa [same callback]⟩

/-- A late tick with all bytes counted posts a message that reports the task finished. -/
theorem doubled_of_tick {event : TransferEvent} (positive : 0 < taskInfo.lenght) (range : 0 ≤ id ∧ id < count)
    (single : w.Single taskInfo count id thread) (tick : ¬ EarlyTick w event)
    (taken : w.step exactProgress event = some w') : Doubled taskInfo count id w' := by
  unfold EarlyTick at tick
  split at tick
  next i =>
    push Not at tick
    obtain ⟨own, present, all⟩ := tick
    obtain ⟨thread', action, found, ran, single', -, reports⟩ := single.ran positive taken
    cases found.symm.trans present
    obtain ⟨info, phase⟩ := thread
    cases ran with
    | clock pointer body late =>
      have called : Reports taskInfo count id ⟨info, .polling pointer body⟩ .notifyProgress :=
        ⟨rfl, range, by rwa [← single.task]⟩
      have more : w'.reports = w.reports + 1 := by
        rw [reports, if_pos]
        exact called
      refine ⟨_, single', ?_⟩
      rw [more]
      exact Nat.le_add_left 1 w.reports
  next => exact absurd trivial tick

/-- A task that `downlaod` has just started on one segment. -/
theorem single_begin {threadCount : Int} {rows : List ThreadInfo} {info : ThreadInfo} (old : List UInt8)
    (one : (DownloadTask.create taskInfo threadCount).threadInfoList rows = [info])
    (counted : int info.finished = info.finished) :
    (Transfer.begin taskInfo threadCount rows old).Single taskInfo (DownloadTask.create taskInfo threadCount).threadCount
      info.id ⟨info, .queued⟩ where
  task := rfl
  threads := by
    simp only [Transfer.begin, DownloadTask.downlaod, one]
    rfl
  counted := counted
  segment := rfl
  totals := ⟨0, List.set_replicate_self.symm⟩

theorem not_doubled_of_completed (completed : Completed w) (once : ReportedOnce w) : ¬ Doubled taskInfo count id w := by
  rintro ⟨thread, single, overdue⟩
  obtain ⟨nothing, own, member, ended, all⟩ := completed
  rw [single.threads, List.mem_singleton] at member
  subst member
  unfold Overdue at overdue
  rw [ended] at overdue
  have twice : 2 ≤ w.reports := overdue (single.task ▸ all)
  rw [Transfer.reports, nothing, List.countP_nil] at twice
  unfold ReportedOnce at once
  omega

section
variable {start : Transfer κ} {events : List TransferEvent}

theorem once_of_early (positive : 0 < taskInfo.lenght) (allowed : Allowed taskInfo count id start)
    (never : ∀ event ∈ events, event ≠ .download) (early : Steps (Transfer.step exactProgress) EarlyTick start events) :
    Throughout (Transfer.step exactProgress) ReportedOnce start events := by
  have restless : Steps (Transfer.step exactProgress) (fun _ event => event ≠ .download) start events :=
    Steps.of_forall never
  refine throughout_of_invariant (fun w event w' allowed both taken => allowed.step positive both.1 both.2 taken)
    ?_ allowed (restless.and early)
  rintro w ⟨thread, -, reports⟩
  have bound : thread.phase.allowance ≤ 1 := by
    unfold Phase.allowance
    split <;> omega
  unfold Transfer.reports at reports
  unfold ReportedOnce
  omega

theorem early_of_once {done : Transfer κ} (positive : 0 < taskInfo.lenght) (callback : taskInfo.download.isSome)
    (range : 0 ≤ id ∧ id < count) (sole : Sole taskInfo count id start)
    (never : ∀ event ∈ events, event ≠ .download) (unbroken : ∀ i, .thread i .fail ∉ events)
    (whole : run (Transfer.step exactProgress) start events = some done) (completed : Completed done)
    (once : Throughout (Transfer.step exactProgress) ReportedOnce start events) :
    Steps (Transfer.step exactProgress) EarlyTick start events := by
  have admitted : Steps (Transfer.step exactProgress) (fun _ event => event ≠ .download ∧ ∀ i, event ≠ .thread i .fail)
      start events :=
    Steps.of_forall fun event member => ⟨never event member, fun i same => unbroken i (same ▸ member)⟩
  have leads : ∀ w event w', Sole taskInfo count id w → (event ≠ .download ∧ ∀ i, event ≠ .thread i .fail) →
      ¬ EarlyTick w event → w.step exactProgress event = some w' → Doubled taskInfo count id w' := by
    rintro w event w' ⟨thread, single⟩ - tick taken
    exact doubled_of_tick positive range single tick taken
  have stays : ∀ w event w', Sole taskInfo count id w → Doubled taskInfo count id w →
      (event ≠ .download ∧ ∀ i, event ≠ .thread i .fail) → w.step exactProgress event = some w' →
      Doubled taskInfo count id w' :=
    fun w event w' _ doubled ok taken => doubled.step positive callback range ok.1 ok.2 taken
  have last : ReportedOnce done := once events [] (List.append_nil _).symm done whole
  exact Steps.of_end (fun w event w' sole ok taken => sole.step positive ok.1 taken) leads stays sole admitted whole
    (not_doubled_of_completed completed last)

end

/-- While no tick is late with all bytes counted, the task is reported at most once; and in a
run that completes the transfer, only then. -/
theorem reported_once {threadCount : Int} {rows : List ThreadInfo} {info : ThreadInfo} {old : List UInt8}
    {events : List TransferEvent} (positive : 0 < taskInfo.lenght)
    (one : (DownloadTask.create taskInfo threadCount).threadInfoList rows = [info])
    (counted : int info.finished = info.finished) (never : ∀ event ∈ events, event ≠ .download) :
    (Steps (Transfer.step exactProgress) EarlyTick (Transfer.begin taskInfo threadCount rows old) events →
      Throughout (Transfer.step exactProgress) ReportedOnce (Transfer.begin taskInfo threadCount rows old) events) ∧
    ∀ done, taskInfo.download.isSome → 0 ≤ info.id ∧ info.id < (DownloadTask.create taskInfo threadCount).threadCount →
      (∀ i, .thread i .fail ∉ events) →
      run (Transfer.step exactProgress) (Transfer.begin taskInfo threadCount rows old) events = some done →
      Completed done →
      Throughout (Transfer.step exactProgress) ReportedOnce (Transfer.begin taskInfo threadCount rows old) events →
      Steps (Transfer.step exactProgress) EarlyTick (Transfer.begin taskInfo threadCount rows old) events := by
  have single := single_begin old one counted
  constructor
  · intro early
    have nothing : Transfer.reports (Transfer.begin taskInfo threadCount rows old) ≤ 0 := le_rfl
    exact once_of_early positive ⟨_, single, nothing⟩ never early
  · intro done callback range unbroken whole completed once
    exact early_of_once positive callback range ⟨_, single⟩ never unbroken whole completed once

instance (w : Transfer κ) : DecidablePred (EarlyTick w)
  | .thread i (.clock true) => inferInstanceAs (Decidable (∀ thread ∈ w.task.threads[i]?,
      thread.threadInfo.finished < w.task.taskInfo.lenght))
  | .thread _ (.clock false) => isTrue trivial
  | .thread _ (.respond ..) => isTrue trivial
  | .thread _ (.read _) => isTrue trivial
  | .thread _ .endOfStream => isTrue trivial
  | .thread _ .proceed => isTrue trivial
  | .thread _ .fail => isTrue trivial
  | .pause => isTrue trivial
  | .download => isTrue trivial
  | .dispatch => isTrue trivial

/-- Three bytes in two reads. Two seconds have passed after the first, and for the given flag
also after the second. -/
def twoReads (late : Bool) : List TransferEvent := [
  .thread 0 (.respond 206 [1, 2, 3]), .thread 0 (.read 1), .thread 0 .proceed, .thread 0 (.clock true), .thread 0 .proceed,
  .thread 0 (.read 2), .thread 0 .proceed, .thread 0 (.clock late), .thread 0 .proceed, .thread 0 .endOfStream,
  .thread 0 .proceed] ++ List.replicate (if late then 3 else 2) .dispatch

theorem not_download_twoReads (late : Bool) : ∀ event ∈ twoReads late, event ≠ .download := by
  cases late <;> simp [twoReads]

theorem early_reported_once : Throughout (Transfer.step exactProgress) ReportedOnce (Transfer.begin threeBytes 1 [] [])
    (twoReads false) :=
  (reported_once (by decide) rfl rfl (not_download_twoReads false)).1 (by decide)

/-- The tick after the last read reports the task, and the end of the stream reports it again. -/
theorem late_reported_twice : ¬ Throughout (Transfer.step exactProgress) ReportedOnce (Transfer.begin threeBytes 1 [] [])
    (twoReads true) := by
  intro once
  have calls : (run (Transfer.step exactProgress) (Transfer.begin threeBytes 1 [] []) (twoReads true)).map
      (fun w => w.finishedFiles.length) = some 2 := by decide +kernel
  obtain ⟨w, whole, twice⟩ := Option.map_eq_some_iff.mp calls
  have last : w.finishedFiles.length ≤ 1 := once (twoReads true) [] (List.append_nil _).symm w whole
  omega

end AdTerminal.Download
