import AdTerminal.Download.Faithful
import AdTerminal.Library.ListUpdate

/-! Fetching a file in several segments. The bounds `downlaod` computes cut the file into
tiles, so that the threads together write every byte once; and as the shared array never
counts more than has been written, the thread that ends last posts the full progress. -/

namespace AdTerminal.Download
open Transition ListUpdate RandomAccess

variable {κ : Type} {resource file : List UInt8} {taskInfo : TaskInfo κ} {w w' : Transfer κ} {n : Nat}

/-- The server answers with exactly the bytes of the requested range, the stream ends behind
them and nothing fails. -/
def Normal (resource : List UInt8) (thread : DownloadThread) : ThreadEvent → Prop
  | .respond code body => code = 206 ∧ body = thread.threadInfo.rest resource thread.position.toNat
  | .endOfStream => ∀ pointer body, thread.phase = .reading pointer body → body = []
  | .fail => False
  | .read _ | .clock _ | .proceed => True

/-- Every transfer is normal and the task is never paused. -/
def Delivers (resource : List UInt8) (w : Transfer κ) : TransferEvent → Prop
  | .thread i event => ∀ thread, w.task.threads[i]? = some thread → Normal resource thread event
  | .pause => False
  | .download | .dispatch => True

instance (resource : List UInt8) (thread : DownloadThread) : DecidablePred (Normal resource thread)
  | .respond code body =>
    inferInstanceAs (Decidable (code = 206 ∧ body = thread.threadInfo.rest resource thread.position.toNat))
  | .endOfStream =>
    match phase : thread.phase with
    | .reading pointer body =>
      decidable_of_iff (body = []) ⟨fun empty _ _ same => by cases phase.symm.trans same; exact empty,
        fun normal => normal pointer body phase⟩
    | .queued | .writing .. | .timing .. | .polling .. | .pausing | .saving | .closing | .ended =>
      isTrue fun _ _ same => nomatch phase.symm.trans same
  | .fail => isFalse id
  | .read _ | .clock _ | .proceed => isTrue trivial

instance (resource : List UInt8) (w : Transfer κ) : DecidablePred (Delivers resource w)
  | .thread i event => inferInstanceAs (Decidable (∀ thread ∈ w.task.threads[i]?, Normal resource thread event))
  | .pause => isFalse id
  | .download | .dispatch => isTrue trivial

/-- How many segments a file of that length is cut into. -/
def segmentCount (length n : Nat) : Nat := if 0 < length / n then n else 1

/-- Where segment `i` starts. From the number of segments on, the end of the file. -/
def boundary (length n i : Nat) : Nat := if i < segmentCount length n then i * (length / n) else length

theorem segmentCount_pos (length : Nat) (positive : 0 < n) : 0 < segmentCount length n := by
  unfold segmentCount
  split <;> omega

theorem segmentCount_le (length : Nat) (positive : 0 < n) : segmentCount length n ≤ n := by
  unfold segmentCount
  split <;> omega

theorem boundary_zero (length : Nat) (positive : 0 < n) : boundary length n 0 = 0 := by
  rw [boundary, if_pos (segmentCount_pos length positive), Nat.zero_mul]

theorem boundary_end (length : Nat) {i : Nat} (past : segmentCount length n ≤ i) :
    boundary length n i = length :=
  if_neg (Nat.not_lt.mpr past)

theorem boundary_le (length n i : Nat) : boundary length n i ≤ length := by
  by_cases inside : i < segmentCount length n
  · rw [boundary, if_pos inside]
    by_cases several : 0 < length / n
    · rw [segmentCount, if_pos several] at inside
      exact (Nat.mul_le_mul_right _ inside.le).trans (Nat.mul_div_le length n)
    · rw [Nat.eq_zero_of_not_pos several, Nat.mul_zero]
      exact Nat.zero_le _
  · exact (boundary_end length (not_lt.mp inside)).le

theorem boundary_mono (length n : Nat) : Monotone (boundary length n) := by
  intro i j le
  by_cases inside : j < segmentCount length n
  · rw [boundary, boundary, if_pos inside, if_pos (le.trans_lt inside)]
    exact Nat.mul_le_mul_right _ le
  · rw [boundary_end length (not_lt.mp inside)]
    exact boundary_le length n i

/-- Segment `i` of the file. -/
structure IsSegment (resource : List UInt8) (n i : Nat) (info : ThreadInfo) : Prop where
  id : info.id = i
  start : info.start = boundary resource.length n i
  stop : info.stop resource = boundary resource.length n (i + 1)

theorem length_segments (length : taskInfo.lenght = resource.length) :
    (DownloadTask.segments taskInfo n).length = segmentCount resource.length n := by
  have block : taskInfo.lenght.tdiv n = ((resource.length / n : Nat) : Int) := by
    rw [length, ← Int.ofNat_tdiv]
  simp only [DownloadTask.segments, segmentCount, block]
  by_cases several : 0 < resource.length / n
  · rw [if_pos (by omega), if_pos several, List.length_map, List.length_range]
  · rw [if_neg (by omega), if_neg several]
    rfl

/-- The bounds computed by `downlaod` are those of the tiles, also when there are fewer bytes
than threads. -/
theorem segments_isSegment (length : taskInfo.lenght = resource.length) {i : Nat} {info : ThreadInfo}
    (found : (DownloadTask.segments taskInfo n)[i]? = some info) :
    IsSegment resource n i info ∧ info.finished = 0 := by
  have block : taskInfo.lenght.tdiv n = ((resource.length / n : Nat) : Int) := by
    rw [length, ← Int.ofNat_tdiv]
  have whole := Nat.mul_div_le resource.length n
  simp only [DownloadTask.segments, block] at found
  by_cases several : 0 < resource.length / n
  · rw [if_pos (by omega)] at found
    obtain ⟨bound, same⟩ := List.getElem?_eq_some_iff.mp found
    simp only [List.getElem_map, List.getElem_range, List.length_map, List.length_range] at bound same
    subst same
    refine ⟨⟨rfl, ?_, ?_⟩, rfl⟩
    · simp [boundary, segmentCount, several, bound]
    · have fits : (i + 1) * (resource.length / n) ≤ n * (resource.length / n) := Nat.mul_le_mul_right _ bound
      simp only [ThreadInfo.stop, boundary, segmentCount, several, if_true]
      by_cases last : i = n - 1
      · rw [if_pos last, if_neg (by omega), length]
        omega
      · rw [if_neg last, if_pos (by omega)]
        push_cast
        have upper : ((i : Int) + 1) * ((resource.length / n : Nat) : Int) ≤ resource.length := by
          exact_mod_cast fits.trans whole
        push_cast at upper
        omega
  · rw [if_neg (by omega)] at found
    have single : segmentCount resource.length n = 1 := if_neg several
    obtain ⟨bound, same⟩ := List.getElem?_eq_some_iff.mp found
    have first : i = 0 := by simpa using bound
    subst first same
    refine ⟨⟨rfl, ?_, ?_⟩, rfl⟩
    · simp [boundary, single]
    · rw [boundary_end resource.length (by omega), ThreadInfo.stop]
      simp only [List.getElem_cons_zero]
      omega

/-- All bytes of the segment are counted. -/
def ThreadInfo.Complete (resource : List UInt8) (info : ThreadInfo) : Prop :=
  info.start + info.finished = info.stop resource

/-- Neither paused nor failed: a thread that has left its loop has its whole segment. -/
def DownloadThread.Underway (resource : List UInt8) (thread : DownloadThread) : Prop :=
  match thread.phase with
  | .pausing | .saving => False
  | .closing | .ended => thread.threadInfo.Complete resource
  | .queued | .reading .. | .writing .. | .timing .. | .polling .. => True

/-- What an entry of the shared array counts: not more than its thread has written, all of
it once the thread has ended, and nothing where there is no thread. -/
def Counted (total : Int) : Option DownloadThread → Prop
  | none => total = 0
  | some thread => total ≤ thread.threadInfo.finished ∧ (thread.phase = .ended → total = thread.threadInfo.finished)

/-- A task whose threads fetch the segments of the file. -/
structure Fetching (resource : List UInt8) (n : Nat) (task : DownloadTask κ) : Prop where
  count : task.threads.length = segmentCount resource.length n
  segment : ∀ (i : Nat) (thread : DownloadThread), task.threads[i]? = some thread →
    IsSegment resource n i thread.threadInfo ∧ thread.threadInfo.start + thread.threadInfo.finished ≤
      thread.threadInfo.stop resource ∧ thread.Underway resource
  totals : task.totalFinished.length = n
  total : ∀ (i : Nat) (total : Int), task.totalFinished[i]? = some total → 0 ≤ total ∧ Counted total task.threads[i]?

/-- The size of every segment, and zero for the threads there are no bytes for. -/
def sizes (length n : Nat) : List Int :=
  (List.range n).map fun i => (boundary length n (i + 1) : Int) - boundary length n i

theorem sum_sizes (length : Nat) (positive : 0 < n) : (sizes length n).sum = length := by
  rw [sizes, sum_tiles _ (boundary_zero length positive), boundary_end length (segmentCount_le length positive)]

theorem getElem?_sizes (length : Nat) {i : Nat} (inside : i < n) :
    (sizes length n)[i]? = some ((boundary length n (i + 1) : Int) - boundary length n i) := by
  simp [sizes, inside]

namespace Fetching

variable {task : DownloadTask κ}

theorem total_le (fetching : Fetching resource n task) {i : Nat} {total : Int}
    (found : task.totalFinished[i]? = some total) :
    total ≤ (boundary resource.length n (i + 1) : Int) - boundary resource.length n i := by
  have counted := (fetching.total i total found).2
  cases present : task.threads[i]? with
  | none =>
    rw [present] at counted
    have ordered : boundary resource.length n i ≤ boundary resource.length n (i + 1) :=
      boundary_mono resource.length n (Nat.le_succ i)
    have zero : total = 0 := counted
    omega
  | some thread =>
    rw [present] at counted
    obtain ⟨segment, within, -⟩ := fetching.segment i thread present
    have below := counted.1
    rw [segment.start, segment.stop] at within
    omega

theorem limits (fetching : Fetching resource n task) :
    List.Forall₂ (· ≤ ·) task.totalFinished (sizes resource.length n) := by
  rw [List.forall₂_iff_get]
  refine ⟨by simp [fetching.totals, sizes], fun i first second => ?_⟩
  have inside : i < n := fetching.totals ▸ first
  have below := fetching.total_le (List.getElem?_eq_getElem first)
  have size := getElem?_sizes resource.length inside
  rw [List.getElem?_eq_getElem second] at size
  simp only [List.get_eq_getElem]
  rw [Option.some.inj size]
  exact below

/-- When the array adds up to the length, every byte of every segment is counted. -/
theorem complete (fetching : Fetching resource n task) (positive : 0 < n)
    (sum : (resource.length : Int) ≤ task.totalFinished.sum) (thread : DownloadThread)
    (member : thread ∈ task.threads) : thread.threadInfo.Complete resource := by
  have equal := eq_of_sum_le fetching.limits (by rwa [sum_sizes resource.length positive])
  obtain ⟨i, present⟩ := List.getElem?_of_mem member
  have inside : i < n := by
    have bound := (List.getElem?_eq_some_iff.mp present).1
    have few := segmentCount_le resource.length positive
    rw [fetching.count] at bound
    omega
  have found := getElem?_sizes resource.length inside
  rw [← equal] at found
  obtain ⟨segment, within, -⟩ := fetching.segment i thread present
  have counted := (fetching.total i _ found).2
  rw [present] at counted
  have below := counted.1
  rw [ThreadInfo.Complete]
  rw [segment.start, segment.stop] at within ⊢
  omega

/-- When every thread has ended, the array adds up to the length. -/
theorem full (fetching : Fetching resource n task) (positive : 0 < n)
    (ended : ∀ thread ∈ task.threads, thread.phase = .ended) :
    task.totalFinished.sum = resource.length := by
  have same : task.totalFinished = sizes resource.length n := by
    apply List.ext_getElem?
    intro i
    rcases Nat.lt_or_ge i n with inside | outside
    · have bound : i < task.totalFinished.length := fetching.totals.symm ▸ inside
      rw [getElem?_sizes resource.length inside, List.getElem?_eq_getElem bound]
      congr 1
      have counted := (fetching.total i _ (List.getElem?_eq_getElem bound)).2
      cases present : task.threads[i]? with
      | none =>
        rw [present] at counted
        have past := List.getElem?_eq_none_iff.mp present
        rw [fetching.count] at past
        rw [boundary_end resource.length past, boundary_end resource.length (past.trans (Nat.le_succ i))]
        have zero : task.totalFinished[i] = 0 := counted
        omega
      | some thread =>
        rw [present] at counted
        have done := ended thread (List.mem_of_getElem? present)
        obtain ⟨segment, -, underway⟩ := fetching.segment i thread present
        rw [DownloadThread.Underway, done] at underway
        have complete : thread.threadInfo.start + thread.threadInfo.finished = thread.threadInfo.stop resource :=
          underway
        rw [segment.start, segment.stop] at complete
        have all := counted.2 done
        omega
    · rw [List.getElem?_eq_none (fetching.totals.trans_le outside), List.getElem?_eq_none (by simpa [sizes] using outside)]
  rw [same, sum_sizes resource.length positive]

end Fetching

/-- Adding up in `int` gives the sum in `int`. -/
theorem foldl_int (totals : List Int) (start : Int) :
    totals.foldl (fun now total => int (now + total)) (int start) = int (start + totals.sum) := by
  induction totals generalizing start with
  | nil => simp
  | cons total rest ih =>
    have wrapped : int (int start + total) = int (start + total) := Int.bmod_add_bmod
    rw [List.foldl_cons, wrapped, ih, List.sum_cons, add_assoc]

theorem notifyProgress_inside (progress : Int → Int → Int) (finished : Int) {task : DownloadTask κ} {i : Nat}
    (inside : i < task.totalFinished.length) :
    (task.notifyProgress progress i finished).1.totalFinished = task.totalFinished.set i finished ∧
    (task.notifyProgress progress i finished).2 =
      some (progress (int (task.totalFinished.set i finished).sum) task.taskInfo.lenght) := by
  have bounds : 0 ≤ (i : Int) ∧ (i : Int) < task.totalFinished.length := by omega
  have added := foldl_int (task.totalFinished.set i finished) 0
  have zero : int 0 = 0 := rfl
  rw [zero, zero_add] at added
  simp only [DownloadTask.notifyProgress, if_pos bounds, Int.toNat_natCast, added]
  exact ⟨trivial, trivial⟩

/-- Exact fractions: the progress is 100 exactly for all bytes, and less for fewer. -/
theorem exactProgress_full {lenght : Int} (positive : 0 < lenght) : exactProgress lenght lenght = 100 := by
  rw [exactProgress, mul_comm, Int.mul_tdiv_cancel _ positive.ne']

theorem exactProgress_lt {nowFinished lenght : Int} (nonneg : 0 ≤ nowFinished) (less : nowFinished < lenght) :
    exactProgress nowFinished lenght < 100 := by
  rw [exactProgress, Int.tdiv_eq_ediv_of_nonneg (by omega)]
  exact Int.ediv_lt_of_lt_mul (by omega) (by omega)

/-- A write reaches a position. -/
def Covers (p : Nat) (write : Nat × List UInt8) : Prop := write.1 ≤ p ∧ p < write.1 + write.2.length

instance (p : Nat) (write : Nat × List UInt8) : Decidable (Covers p write) :=
  inferInstanceAs (Decidable (_ ∧ _))

instance (info : ThreadInfo) (p : Nat) : Decidable (p ∈ info.counted) :=
  inferInstanceAs (Decidable (info.start ≤ p ∧ (p : Int) < info.start + info.finished))

/-- The bytes written are those of the resource at their position. -/
def IsPiece (resource : List UInt8) (write : Nat × List UInt8) : Prop :=
  ∀ k, k < write.2.length → write.2[k]? = resource[write.1 + k]?

/-- The invariant of a task that fetches a file in segments. -/
structure Assembling (resource : List UInt8) (taskInfo : TaskInfo κ) (n : Nat) (w : Transfer κ) : Prop where
  info : w.task.taskInfo = taskInfo
  running : w.task.isPause = false
  length : w.file.length = resource.length
  fetching : Fetching resource n w.task
  sound : ∀ thread ∈ w.task.threads, thread.Sound resource w.file
  covered : ∀ p, w.writes.countP (fun write => decide (Covers p write)) =
    w.task.threads.countP fun thread => decide (p ∈ thread.threadInfo.counted)
  pieces : ∀ write ∈ w.writes, IsPiece resource write
  posted : ∀ message ∈ w.posted, 100 ≤ message → ∀ thread ∈ w.task.threads, thread.threadInfo.Complete resource
  last : (∀ thread ∈ w.task.threads, thread.phase = .ended) → 100 ∈ w.posted

theorem answers_of_normal {thread : DownloadThread} {event : ThreadEvent}
    (normal : Normal resource thread event) :
    Answers resource thread.threadInfo event := by
  cases event with
  | respond code body => exact fun _ => normal.2
  | _ => trivial

/-- A thread that is neither refused nor interrupted leaves its loop with its whole segment,
and posts its count as its last act. -/
theorem underway_run {info : ThreadInfo} {phase : Phase} {event : ThreadEvent} {thread' : DownloadThread}
    {action : Action} (ran : Ran false info phase event thread' action) (sound : info.Sound resource file)
    (ahead : Ahead resource info phase) (underway : DownloadThread.Underway resource ⟨info, phase⟩)
    (small : (resource.length : Int) < 2 ^ 31) (normal : Normal resource ⟨info, phase⟩ event) :
    thread'.Underway resource ∧ (thread'.phase = .ended → action = .notifyProgress) := by
  cases ran with
  | refused code body throws =>
    have bound := info.stop_le resource
    have within := sound.within
    have start := sound.start_nonneg
    have finished := sound.finished_nonneg
    have position : int (info.start + info.finished) = info.start + info.finished :=
      int_of_range (by omega) (by omega)
    exact absurd ⟨by rw [position]; omega, Or.inl normal.1⟩ throws
  | endOfStream pointer body =>
    refine ⟨?_, by simp⟩
    have nothing : ([] : List UInt8) = info.rest resource pointer := (normal pointer body rfl) ▸ ahead.2
    have length := congrArg List.length nothing
    simp only [ThreadInfo.rest, List.length_nil, List.length_drop, List.length_take] at length
    have within := sound.within
    have bound := info.stop_le resource
    have pointer_eq := ahead.1
    change info.start + info.finished = info.stop resource
    omega
  | pausing => exact underway.elim
  | saving => exact underway.elim
  | closing => exact ⟨underway, fun _ => rfl⟩
  | failed => exact normal.elim
  | _ => exact ⟨trivial, by simp⟩

/-- What a step adds to the counted positions is what it writes. -/
theorem counted_run {info : ThreadInfo} {phase : Phase} {event : ThreadEvent} {thread' : DownloadThread}
    {action : Action} {isPause : Bool} (ran : Ran isPause info phase event thread' action)
    (sound : info.Sound resource file) (ahead : Ahead resource info phase)
    (small : (resource.length : Int) < 2 ^ 31) :
    (∃ pointer bytes, action = .write pointer bytes ∧ IsPiece resource (pointer, bytes) ∧
      thread'.threadInfo = { info with finished := info.finished + bytes.length } ∧
      (pointer : Int) = info.start + info.finished) ∨
    ((∀ pointer bytes, action ≠ .write pointer bytes) ∧ thread'.threadInfo = info) := by
  cases ran with
  | wrote pointer body buffer =>
    have inside := buffer_within sound ahead.1 ahead.2
    have bound := info.stop_le resource
    have start := sound.start_nonneg
    have finished := sound.finished_nonneg
    have counted : int (info.finished + buffer.length) = info.finished + buffer.length :=
      int_of_range (by omega) (by omega)
    exact Or.inl ⟨pointer, buffer, rfl, piece_of_append ahead.2, by rw [counted], ahead.1⟩
  | clock pointer body late => exact Or.inr ⟨by cases late <;> simp, rfl⟩
  | _ => exact Or.inr ⟨by simp, rfl⟩

theorem Fetching.sum_le {task : DownloadTask κ} (fetching : Fetching resource n task) (positive : 0 < n) :
    0 ≤ task.totalFinished.sum ∧ task.totalFinished.sum ≤ resource.length := by
  constructor
  · apply List.sum_nonneg
    intro total member
    obtain ⟨i, found⟩ := List.getElem?_of_mem member
    exact (fetching.total i total found).1
  · exact fetching.limits.sum_le_sum.trans_eq (sum_sizes resource.length positive)

/-- The array after a step keeps to what its threads have written. -/
theorem fetching_thread {i : Nat} {thread thread' : DownloadThread} {action : Action}
    {outcome : DownloadTask.Outcome κ} {rows : List ThreadInfo} {task : DownloadTask κ} (positive : 0 < n)
    (fetching : Fetching resource n task) (present : task.threads[i]? = some thread)
    (performed : Performed exactProgress task rows file i thread' action outcome)
    (same : ∃ finished, thread'.threadInfo = { thread.threadInfo with finished })
    (grown : thread.threadInfo.finished ≤ thread'.threadInfo.finished)
    (nonneg : 0 ≤ thread'.threadInfo.finished)
    (within : thread'.threadInfo.start + thread'.threadInfo.finished ≤ thread'.threadInfo.stop resource)
    (underway : thread'.Underway resource) (ends : thread'.phase = .ended → action = .notifyProgress) :
    Fetching resource n outcome.task ∧ (action = .notifyProgress →
      outcome.posted = some (exactProgress (int outcome.task.totalFinished.sum) task.taskInfo.lenght)) := by
  have bound := (List.getElem?_eq_some_iff.mp present).1
  have few := segmentCount_le resource.length positive
  have inside : i < task.totalFinished.length := by
    rw [fetching.totals]
    rw [fetching.count] at bound
    omega
  have segment' : IsSegment resource n i thread'.threadInfo := by
    obtain ⟨finished, moved⟩ := same
    have segment := (fetching.segment i thread present).1
    rw [moved]
    exact ⟨segment.id, segment.start, segment.stop⟩
  have set := notifyProgress_inside exactProgress thread'.threadInfo.finished inside
  rw [← segment'.id] at set
  have own := List.getElem?_set_self (a := thread') bound
  refine ⟨⟨?_, ?_, performed.totals_length.trans fetching.totals, ?_⟩, ?_⟩
  · rw [performed.threads, List.length_set, fetching.count]
  · intro j other found
    rw [performed.threads] at found
    rcases mem_set_cases found with ⟨rfl, rfl⟩ | ⟨-, before⟩
    · exact ⟨segment', within, underway⟩
    · exact fetching.segment j other before
  · intro j total found
    rw [performed.threads]
    rw [performed.totals] at found
    by_cases touched : j = i
    · subst touched
      rw [own]
      split at found
      · rw [set.1, List.getElem?_set_self inside] at found
        obtain rfl := Option.some.inj found
        exact ⟨nonneg, le_rfl, fun _ => rfl⟩
      next silent =>
        obtain ⟨old_nonneg, counted⟩ := fetching.total j total found
        rw [present] at counted
        exact ⟨old_nonneg, counted.1.trans grown, fun ended => absurd (ends ended) silent⟩
    · rw [List.getElem?_set_ne (Ne.symm touched)]
      apply fetching.total j total
      split at found
      · rwa [set.1, List.getElem?_set_ne (Ne.symm touched)] at found
      · exact found
  · intro notifies
    rw [performed.posted, performed.totals, if_pos notifies, if_pos notifies, set.1]
    exact set.2

/-- A complete segment stays complete: its count can only grow, and not beyond its end. -/
theorem complete_grown {info info' : ThreadInfo} (same : ∃ finished, info' = { info with finished })
    (grown : info.finished ≤ info'.finished) (within : info'.start + info'.finished ≤ info'.stop resource)
    (complete : info.Complete resource) : info'.Complete resource := by
  obtain ⟨finished, rfl⟩ := same
  have reached : info.start + info.finished = info.stop resource := complete
  have more : info.finished ≤ finished := grown
  have limit : info.start + finished ≤ info.stop resource := within
  change info.start + finished = info.stop resource
  omega

/-- What is written once more is counted once more. -/
theorem covered_step {threads : List DownloadThread} {i p : Nat} {thread thread' : DownloadThread}
    {action : Action}
    {writes : List (Nat × List UInt8)} (present : threads[i]? = some thread)
    (nonneg : 0 ≤ thread.threadInfo.finished)
    (counted : (∃ pointer bytes, action = .write pointer bytes ∧ IsPiece resource (pointer, bytes) ∧
        thread'.threadInfo = { thread.threadInfo with finished := thread.threadInfo.finished + bytes.length } ∧
        (pointer : Int) = thread.threadInfo.start + thread.threadInfo.finished) ∨
      ((∀ pointer bytes, action ≠ .write pointer bytes) ∧ thread'.threadInfo = thread.threadInfo))
    (covered : writes.countP (fun write => decide (Covers p write)) =
      threads.countP fun thread => decide (p ∈ thread.threadInfo.counted)) :
    (writes ++ action.written).countP (fun write => decide (Covers p write)) =
      (threads.set i thread').countP fun thread => decide (p ∈ thread.threadInfo.counted) := by
  have change_one := countP_set_add present thread' fun thread => decide (p ∈ thread.threadInfo.counted)
  rw [List.countP_append, covered]
  rcases counted with ⟨pointer, bytes, rfl, -, more, behind⟩ | ⟨silent, same⟩
  · rw [more] at change_one
    have before : p ∈ thread.threadInfo.counted ↔ thread.threadInfo.start ≤ p ∧
        (p : Int) < thread.threadInfo.start + thread.threadInfo.finished := Iff.rfl
    have after : p ∈ ({ thread.threadInfo with finished := thread.threadInfo.finished + bytes.length } :
        ThreadInfo).counted ↔ thread.threadInfo.start ≤ p ∧
        (p : Int) < thread.threadInfo.start + (thread.threadInfo.finished + bytes.length) := Iff.rfl
    have write : Covers p (pointer, bytes) ↔ pointer ≤ p ∧ p < pointer + bytes.length := Iff.rfl
    simp only [decide_eq_true_eq, before, after] at change_one
    simp only [Action.written, List.countP_singleton, decide_eq_true_eq, write]
    split_ifs at change_one ⊢ <;> omega
  · rw [same] at change_one
    have nothing : action.written = [] := by
      cases action with
      | write pointer bytes => exact absurd rfl (silent pointer bytes)
      | _ => rfl
    rw [nothing, List.countP_nil]
    omega

theorem assembling_thread {i : Nat} {event : ThreadEvent} (assembling : Assembling resource taskInfo n w)
    (length : taskInfo.lenght = resource.length) (positive : 0 < n) (nonempty : 0 < resource.length)
    (small : (resource.length : Int) < 2 ^ 31) (delivers : Delivers resource w (.thread i event))
    (taken : w.step exactProgress (.thread i event) = some w') : Assembling resource taskInfo n w' := by
  obtain ⟨thread, thread', action, outcome, present, run, performed, rfl⟩ := Transfer.step_thread taken
  rw [assembling.running] at run
  have ran := ran_of_run run
  have normal := delivers thread present
  have member := List.mem_of_getElem? present
  obtain ⟨sound, ahead⟩ := assembling.sound thread member
  obtain ⟨segment, -, underway⟩ := assembling.fetching.segment i thread present
  obtain ⟨file_length, keeps, sound'⟩ :=
    sound_run ran sound ahead (answers_of_normal normal) assembling.length small
  obtain ⟨underway', ends⟩ := underway_run ran sound ahead underway small normal
  have counted := counted_run ran sound ahead small
  have grown : thread.threadInfo.finished ≤ thread'.threadInfo.finished := by
    rcases counted with ⟨_, bytes, -, -, more, -⟩ | ⟨-, same⟩
    · rw [more]
      change _ ≤ thread.threadInfo.finished + (bytes.length : Int)
      omega
    · rw [same]
  obtain ⟨fetching', notified⟩ := fetching_thread positive assembling.fetching present performed
    (threadInfo_of_ran ran) grown sound'.segment.finished_nonneg sound'.segment.within underway' ends
  obtain ⟨sum_nonneg, sum_le⟩ := fetching'.sum_le positive
  have sum_int : int outcome.task.totalFinished.sum = outcome.task.totalFinished.sum :=
    int_of_range (by omega) (by omega)
  rw [sum_int, assembling.info, length] at notified
  refine ⟨performed.taskInfo.trans assembling.info, performed.isPause.trans assembling.running, ?_, fetching', ?_,
    ?_, ?_, ?_, ?_⟩
  · rw [performed.file]
    exact file_length
  · intro other found
    rw [performed.threads] at found
    rw [performed.file]
    rcases List.mem_or_eq_of_mem_set found with old | rfl
    · exact (assembling.sound other old).mono keeps
    · exact sound'
  · intro p
    rw [performed.threads, performed.written]
    exact covered_step present sound.finished_nonneg counted (assembling.covered p)
  · intro write found
    rw [performed.written] at found
    rcases List.mem_append.mp found with old | new
    · exact assembling.pieces write old
    · rcases counted with ⟨pointer, bytes, rfl, piece, -, -⟩ | ⟨silent, -⟩
      · exact List.mem_singleton.mp new ▸ piece
      · cases action with
        | write pointer bytes => exact absurd rfl (silent pointer bytes)
        | _ => exact absurd new List.not_mem_nil
  · intro message found complete
    rcases List.mem_append.mp found with old | new
    · have before := assembling.posted message old complete
      intro other other_found
      rw [performed.threads] at other_found
      rcases List.mem_or_eq_of_mem_set other_found with unchanged | rfl
      · exact before other unchanged
      · exact complete_grown (threadInfo_of_ran ran) grown sound'.segment.within (before thread member)
    · rw [Option.mem_toList] at new
      have notifies : action = .notifyProgress := by
        by_contra silent
        rw [performed.posted, if_neg silent] at new
        cases new
      rw [notified notifies] at new
      obtain rfl := Option.some.inj new
      apply fetching'.complete positive
      by_contra fewer
      have below := exactProgress_lt sum_nonneg (not_le.mp fewer)
      omega
  · intro ended
    have last : thread' ∈ outcome.task.threads := by
      rw [performed.threads]
      exact List.mem_of_getElem? (List.getElem?_set_self (List.getElem?_eq_some_iff.mp present).1)
    rw [notified (ends (ended thread' last)), fetching'.full positive ended, exactProgress_full (by omega)]
    exact List.mem_append_right _ (List.mem_singleton_self _)

theorem assembling_step {e : TransferEvent} (assembling : Assembling resource taskInfo n w)
    (length : taskInfo.lenght = resource.length) (positive : 0 < n) (nonempty : 0 < resource.length)
    (small : (resource.length : Int) < 2 ^ 31) (delivers : Delivers resource w e)
    (taken : w.step exactProgress e = some w') : Assembling resource taskInfo n w' := by
  cases e with
  | thread i event => exact assembling_thread assembling length positive nonempty small delivers taken
  | pause => exact delivers.elim
  | download =>
    obtain rfl := Option.some.inj taken
    have ignored : w.download = w := if_neg (by simp [assembling.running])
    rw [ignored]
    exact assembling
  | dispatch =>
    cases waiting : w.inbox with
    | nil => simp [Transfer.step, waiting] at taken
    | cons message rest =>
      simp only [Transfer.step, waiting, Option.some.injEq] at taken
      subst taken
      unfold Transfer.dispatchMessage
      split
      · exact ⟨assembling.info, assembling.running, assembling.length, assembling.fetching, assembling.sound,
          assembling.covered, assembling.pieces, assembling.posted, assembling.last⟩
      · split <;> exact ⟨assembling.info, assembling.running, assembling.length, assembling.fetching,
          assembling.sound, assembling.covered, assembling.pieces, assembling.posted, assembling.last⟩

section
variable {rows : List ThreadInfo} {old : List UInt8}

theorem create_begin (positive : 0 < n) :
    DownloadTask.create taskInfo n = { taskInfo, threadCount := n, totalFinished := List.replicate n 0 } := by
  simp [DownloadTask.create, positive]

/-- Without stored rows the threads of a new task are those of its segments. -/
theorem threads_begin (positive : 0 < n) (fresh : ∀ row ∈ rows, row.url ≠ taskInfo.url) :
    (Transfer.begin taskInfo n rows old).task.threads =
      (DownloadTask.segments taskInfo n).map fun threadInfo => { threadInfo, phase := .queued } := by
  have none_stored : getThread rows taskInfo.url = [] := by
    apply List.filter_eq_nil_iff.mpr
    exact fun row member => by simpa using fresh row member
  simp [Transfer.begin, DownloadTask.downlaod, DownloadTask.threadInfoList, create_begin positive, none_stored]

theorem started_begin (length : taskInfo.lenght = resource.length) (positive : 0 < n)
    (fresh : ∀ row ∈ rows, row.url ≠ taskInfo.url) {i : Nat} {thread : DownloadThread}
    (found : (Transfer.begin taskInfo n rows old).task.threads[i]? = some thread) :
    IsSegment resource n i thread.threadInfo ∧ thread.threadInfo.finished = 0 ∧ thread.phase = .queued := by
  rw [threads_begin positive fresh, List.getElem?_map, Option.map_eq_some_iff] at found
  obtain ⟨info, present, rfl⟩ := found
  obtain ⟨segment, nothing⟩ := segments_isSegment length present
  exact ⟨segment, nothing, rfl⟩

theorem sound_begin (length : taskInfo.lenght = resource.length) (positive : 0 < n)
    (fresh : ∀ row ∈ rows, row.url ≠ taskInfo.url) :
    ∀ thread ∈ (Transfer.begin taskInfo n rows old).task.threads,
      thread.Sound resource (Transfer.begin taskInfo n rows old).file := by
  intro thread member
  obtain ⟨i, found⟩ := List.getElem?_of_mem member
  obtain ⟨segment, nothing, queued⟩ := started_begin length positive fresh found
  have ordered : boundary resource.length n i ≤ boundary resource.length n (i + 1) :=
    boundary_mono resource.length n (Nat.le_succ i)
  refine ⟨sound_of_nothing ?_ nothing ?_, by rw [queued]; trivial⟩
  · rw [segment.start]
    omega
  · rw [segment.start, segment.stop]
    exact_mod_cast ordered

theorem fetching_begin (length : taskInfo.lenght = resource.length) (positive : 0 < n)
    (fresh : ∀ row ∈ rows, row.url ≠ taskInfo.url) :
    Fetching resource n (Transfer.begin taskInfo n rows old).task := by
  have totals : (Transfer.begin taskInfo n rows old).task.totalFinished = List.replicate n 0 := by
    simp [Transfer.begin, DownloadTask.downlaod, create_begin positive]
  refine ⟨?_, ?_, ?_, ?_⟩
  · rw [threads_begin positive fresh, List.length_map, length_segments length]
  · intro i thread found
    obtain ⟨segment, nothing, queued⟩ := started_begin length positive fresh found
    have sound := sound_begin length positive fresh thread (List.mem_of_getElem? found)
    refine ⟨segment, sound.segment.within, ?_⟩
    rw [DownloadThread.Underway, queued]
    trivial
  · rw [totals, List.length_replicate]
  · intro i total found
    rw [totals, List.getElem?_replicate, Option.ite_none_right_eq_some] at found
    obtain ⟨-, rfl⟩ := And.imp_right Option.some.inj found
    refine ⟨le_rfl, ?_⟩
    cases present : (Transfer.begin taskInfo n rows old).task.threads[i]? with
    | none => rfl
    | some thread =>
      obtain ⟨-, nothing, queued⟩ := started_begin length positive fresh present
      exact ⟨nothing.ge, fun ended => nomatch queued.symm.trans ended⟩

/-- There is at least one segment, and it is not fetched yet. -/
theorem not_ended_begin (length : taskInfo.lenght = resource.length) (positive : 0 < n)
    (fresh : ∀ row ∈ rows, row.url ≠ taskInfo.url) :
    ∃ thread ∈ (Transfer.begin taskInfo n rows old).task.threads, thread.phase ≠ .ended := by
  have some_segment : 0 < (DownloadTask.segments taskInfo n).length := by
    rw [length_segments length]
    exact segmentCount_pos resource.length positive
  obtain ⟨info, member⟩ := List.length_pos_iff_exists_mem.mp some_segment
  refine ⟨⟨info, .queued⟩, ?_, by simp⟩
  rw [threads_begin positive fresh]
  exact List.mem_map_of_mem member

theorem assembling_begin (length : taskInfo.lenght = resource.length) (positive : 0 < n)
    (fresh : ∀ row ∈ rows, row.url ≠ taskInfo.url) :
    Assembling resource taskInfo n (Transfer.begin taskInfo n rows old) := by
  refine ⟨?_, ?_, ?_, fetching_begin length positive fresh, sound_begin length positive fresh, ?_, ?_, ?_, ?_⟩
  · simp [Transfer.begin, DownloadTask.downlaod, create_begin positive]
  · simp [Transfer.begin, DownloadTask.downlaod, create_begin positive]
  · simp [Transfer.begin, length]
  · intro p
    symm
    apply List.countP_eq_zero.mpr
    intro thread member
    obtain ⟨i, found⟩ := List.getElem?_of_mem member
    obtain ⟨-, nothing, -⟩ := started_begin length positive fresh found
    rw [decide_eq_true_eq]
    intro counted
    have lower : thread.threadInfo.start ≤ p := counted.1
    have upper : (p : Int) < thread.threadInfo.start + thread.threadInfo.finished := counted.2
    omega
  · exact fun _ absent => absurd absent List.not_mem_nil
  · exact fun _ absent => absurd absent List.not_mem_nil
  · intro ended
    obtain ⟨thread, member, live⟩ := not_ended_begin length positive fresh
    exact absurd (ended thread member) live

end

/-- The positions of a segment. -/
def ThreadInfo.tile (resource : List UInt8) (info : ThreadInfo) : Set Nat :=
  {p | info.start ≤ p ∧ (p : Int) < info.stop resource}

instance (resource : List UInt8) (info : ThreadInfo) (p : Nat) : Decidable (p ∈ info.tile resource) :=
  inferInstanceAs (Decidable (info.start ≤ p ∧ (p : Int) < info.stop resource))

/-- Every byte of the file lies in exactly one segment. -/
theorem countP_segments {task : DownloadTask κ} (fetching : Fetching resource n task)
    (positive : 0 < n) {p : Nat}
    (below : p < resource.length) :
    task.threads.countP (fun thread => decide (p ∈ thread.threadInfo.tile resource)) = 1 := by
  have tiles := countP_tiles (boundary_mono resource.length n) (boundary_zero resource.length positive)
    (below.trans_eq (boundary_end resource.length le_rfl).symm)
  have same : task.threads.map (fun thread => decide (p ∈ thread.threadInfo.tile resource)) =
      (List.range (segmentCount resource.length n)).map
        fun i => decide (boundary resource.length n i ≤ p ∧ p < boundary resource.length n (i + 1)) := by
    apply List.ext_getElem
    · simp [fetching.count]
    · intro i first second
      simp only [List.getElem_map, List.getElem_range, decide_eq_decide]
      have inside : i < task.threads.length := by simpa using first
      obtain ⟨segment, -, -⟩ := fetching.segment i _ (List.getElem?_eq_getElem inside)
      have member : p ∈ task.threads[i].threadInfo.tile resource ↔ task.threads[i].threadInfo.start ≤ p ∧
          (p : Int) < task.threads[i].threadInfo.stop resource := Iff.rfl
      rw [member, segment.start, segment.stop]
      omega
  calc
    _ = (task.threads.map fun thread => decide (p ∈ thread.threadInfo.tile resource)).countP id := by
      rw [List.countP_map]
      rfl
    _ = _ := by
      rw [same, List.countP_map]
      rfl
    _ = 1 := tiles

/-- What holds of a transfer in segments in every state: all bytes written belong where they
are, none is written twice, no progress of 100 is posted while one is missing, and when all
threads have ended the file is the resource and 100 has been posted. -/
structure Assembled (resource : List UInt8) (w : Transfer κ) : Prop where
  pieces : ∀ write ∈ w.writes, IsPiece resource write
  once : ∀ p, p < resource.length → w.writes.countP (fun write => decide (Covers p write)) ≤ 1
  below : (∃ p, p < resource.length ∧ ∀ write ∈ w.writes, ¬ Covers p write) → ∀ message ∈ w.posted, message < 100
  done : (∀ thread ∈ w.task.threads, thread.phase = .ended) → w.file = resource ∧ 100 ∈ w.posted ∧
    ∀ p, p < resource.length → w.writes.countP (fun write => decide (Covers p write)) = 1

/-- Complete segments count every byte exactly once. -/
theorem Assembling.counted_complete (assembling : Assembling resource taskInfo n w) (positive : 0 < n)
    (complete : ∀ thread ∈ w.task.threads, thread.threadInfo.Complete resource) {p : Nat}
    (below : p < resource.length) : w.writes.countP (fun write => decide (Covers p write)) = 1 := by
  rw [assembling.covered p, ← countP_segments assembling.fetching positive below]
  apply List.countP_congr
  intro thread member
  have reached : thread.threadInfo.start + thread.threadInfo.finished = thread.threadInfo.stop resource :=
    complete thread member
  rw [decide_eq_true_eq, decide_eq_true_eq, ThreadInfo.tile, ← reached]
  exact Iff.rfl

theorem Assembling.assembled (assembling : Assembling resource taskInfo n w) (positive : 0 < n) :
    Assembled resource w where
  pieces := assembling.pieces
  once p below := by
    rw [assembling.covered p, ← countP_segments assembling.fetching positive below]
    apply List.countP_mono_left
    intro thread member counted
    rw [decide_eq_true_eq] at counted ⊢
    have lower : thread.threadInfo.start ≤ p := counted.1
    have upper : (p : Int) < thread.threadInfo.start + thread.threadInfo.finished := counted.2
    have within := (assembling.sound thread member).segment.within
    exact ⟨lower, by omega⟩
  below missing message posted := by
    obtain ⟨p, below, uncovered⟩ := missing
    by_contra large
    have complete := assembling.posted message posted (not_lt.mp large)
    have once := assembling.counted_complete positive complete below
    have never : w.writes.countP (fun write => decide (Covers p write)) = 0 :=
      List.countP_eq_zero.mpr fun write member => by simpa using uncovered write member
    omega
  done ended := by
    have complete : ∀ thread ∈ w.task.threads, thread.threadInfo.Complete resource := by
      intro thread member
      obtain ⟨i, found⟩ := List.getElem?_of_mem member
      have underway := (assembling.fetching.segment i thread found).2.2
      rw [DownloadThread.Underway, ended thread member] at underway
      exact underway
    refine ⟨eq_of_agreeOn assembling.length ?_, assembling.last ended,
      fun p below => assembling.counted_complete positive complete below⟩
    intro p below
    have one := countP_segments assembling.fetching positive below
    obtain ⟨thread, member, inside⟩ := List.countP_pos_iff.mp (one ▸ Nat.one_pos)
    rw [decide_eq_true_eq] at inside
    have reached : thread.threadInfo.start + thread.threadInfo.finished = thread.threadInfo.stop resource :=
      complete thread member
    exact (assembling.sound thread member).segment.agree ⟨inside.1, by rw [reached]; exact inside.2⟩

/-- How many steps a thread has before it at most, reading byte by byte. -/
def DownloadThread.stepsLeft (resource : List UInt8) (thread : DownloadThread) : Nat :=
  match thread.phase with
  | .queued => 4 * (thread.threadInfo.rest resource thread.position.toNat).length + 3
  | .reading _ body => 4 * body.length + 2
  | .writing _ body _ => 4 * body.length + 5
  | .timing _ body => 4 * body.length + 4
  | .polling _ body => 4 * body.length + 3
  | .closing => 1
  -- the first two only when the task is paused
  | .pausing | .saving | .ended => 0

/-- No thread is stuck: a normal event has it go on. -/
theorem thread_proceeds {thread : DownloadThread} (underway : thread.Underway resource) (live : thread.phase ≠ .ended) :
    ∃ event thread' action, Normal resource thread event ∧ thread.run false event = some (thread', action) ∧
      thread'.stepsLeft resource < thread.stepsLeft resource := by
  obtain ⟨info, phase⟩ := thread
  cases phase with
  | queued =>
    have normal : Normal resource ⟨info, .queued⟩ (.respond 206 (info.rest resource
      (DownloadThread.position ⟨info, .queued⟩).toNat)) := ⟨rfl, rfl⟩
    by_cases seeks : 0 ≤ DownloadThread.position ⟨info, .queued⟩
    · refine ⟨_, _, _, normal, if_pos ⟨seeks, .inl rfl⟩, ?_⟩
      exact Nat.lt_succ_self _
    · refine ⟨_, _, _, normal, if_neg fun both => seeks both.1, ?_⟩
      exact Nat.succ_pos _
  | reading pointer body =>
    cases body with
    | nil =>
      refine ⟨.endOfStream, _, _, fun _ _ same => ?_, rfl, Nat.one_lt_two⟩
      exact (Phase.reading.inj same).2.symm
    | cons byte body =>
      have taken : DownloadThread.run false ⟨info, .reading pointer (byte :: body)⟩ (.read 1) =
          some (⟨info, .writing pointer body [byte]⟩, .none) := by
        simp [DownloadThread.run]
      refine ⟨.read 1, _, _, trivial, taken, ?_⟩
      change 4 * body.length + 5 < 4 * (body.length + 1) + 2
      omega
  | writing pointer body buffer => exact ⟨.proceed, _, _, trivial, rfl, Nat.lt_succ_self _⟩
  | timing pointer body => exact ⟨.clock false, _, _, trivial, rfl, Nat.lt_succ_self _⟩
  | polling pointer body => exact ⟨.proceed, _, _, trivial, rfl, Nat.lt_succ_self _⟩
  | pausing => exact underway.elim
  | saving => exact underway.elim
  | closing => exact ⟨.proceed, _, _, trivial, rfl, Nat.one_pos⟩
  | ended => exact absurd rfl live

/-- While a thread has not ended, a normal step of the task has fewer steps left after it. -/
theorem assembling_proceeds (length : taskInfo.lenght = resource.length) (positive : 0 < n)
    (nonempty : 0 < resource.length) (small : (resource.length : Int) < 2 ^ 31)
    (assembling : Assembling resource taskInfo n w) (live : ¬ ∀ thread ∈ w.task.threads, thread.phase = .ended) :
    ∃ event w', Delivers resource w event ∧ w.step exactProgress event = some w' ∧
      Assembling resource taskInfo n w' ∧ (w'.task.threads.map (·.stepsLeft resource)).sum <
        (w.task.threads.map (·.stepsLeft resource)).sum := by
  obtain ⟨thread, member, unended⟩ : ∃ thread ∈ w.task.threads, thread.phase ≠ .ended := by
    by_contra none_live
    exact live fun thread member => by_contra fun unended => none_live ⟨thread, member, unended⟩
  obtain ⟨i, present⟩ := List.getElem?_of_mem member
  obtain ⟨event, thread', action, normal, ran, fewer⟩ :=
    thread_proceeds (assembling.fetching.segment i thread present).2.2 unended
  have delivers : Delivers resource w (.thread i event) := by
    intro other same
    rw [present, Option.some_inj] at same
    exact same ▸ normal
  obtain ⟨w', taken⟩ : ∃ w', w.step exactProgress (.thread i event) = some w' := by
    simp [Transfer.step, DownloadTask.runThread, present, assembling.running, ran]
  refine ⟨.thread i event, w', delivers, taken,
    assembling_step assembling length positive nonempty small delivers taken, ?_⟩
  obtain ⟨before, after, acted, outcome, found, moved, performed, rfl⟩ := Transfer.step_thread taken
  rw [present, Option.some_inj] at found
  subst found
  rw [assembling.running, ran] at moved
  cases moved
  rw [performed.threads, List.map_set]
  exact sum_set_lt (by rw [List.getElem?_map, present]; rfl) fewer

/-- From every state of a run, further steps lead to one in which all threads have ended. -/
theorem segments_end {rows : List ThreadInfo} {old : List UInt8} {es : List TransferEvent}
    (length : taskInfo.lenght = resource.length) (positive : 0 < n) (nonempty : 0 < resource.length)
    (small : (resource.length : Int) < 2 ^ 31) (fresh : ∀ row ∈ rows, row.url ≠ taskInfo.url)
    (steps : Steps (Transfer.step exactProgress) (Delivers resource) (Transfer.begin taskInfo n rows old) es)
    (reached : run (Transfer.step exactProgress) (Transfer.begin taskInfo n rows old) es = some w) :
    ∃ more w', Steps (Transfer.step exactProgress) (Delivers resource) w more ∧
      run (Transfer.step exactProgress) w more = some w' ∧ ∀ thread ∈ w'.task.threads, thread.phase = .ended := by
  have assembling : Assembling resource taskInfo n w := run_invariant
    (fun _ _ _ inv ok taken => assembling_step inv length positive nonempty small ok taken)
    (assembling_begin length positive fresh) steps reached
  exact exists_run_of_nearer (fun _ inv live => assembling_proceeds length positive nonempty small inv live) assembling

/-- For every length, every number of threads and every interleaving of their steps, the
segments put the file together. -/
theorem segments_assemble {rows : List ThreadInfo} {old : List UInt8} {es : List TransferEvent}
    (length : taskInfo.lenght = resource.length) (positive : 0 < n) (nonempty : 0 < resource.length)
    (small : (resource.length : Int) < 2 ^ 31) (fresh : ∀ row ∈ rows, row.url ≠ taskInfo.url)
    (steps : Steps (Transfer.step exactProgress) (Delivers resource) (Transfer.begin taskInfo n rows old) es) :
    Throughout (Transfer.step exactProgress) (Assembled resource) (Transfer.begin taskInfo n rows old) es :=
  throughout_of_invariant
    (fun _ _ _ inv ok taken => assembling_step inv length positive nonempty small ok taken)
    (fun _ inv => inv.assembled positive) (assembling_begin length positive fresh) steps

/-- A request for a resource of three bytes. -/
def segmented : TaskInfo Unit :=
  { url := "http://aokai.lymatrix.com/media/b.mp4", filePath := some "/Ad_Video/", fileName := some "b.mp4"
    lenght := 3, download := some () }

/-- Two threads take turns: one fetches the first byte, the other the last two. -/
def takingTurns : List TransferEvent := [
  .thread 1 (.respond 206 [2, 3]), .thread 0 (.respond 206 [1]), .thread 1 (.read 1), .thread 0 (.read 1),
  .thread 1 .proceed, .thread 0 .proceed, .thread 0 (.clock false), .thread 1 (.clock true), .thread 0 .proceed,
  .thread 0 .endOfStream, .thread 1 .proceed, .thread 0 .proceed, .dispatch, .thread 1 (.read 1), .thread 1 .proceed,
  .thread 1 (.clock false), .thread 1 .proceed, .thread 1 .endOfStream, .thread 1 .proceed, .dispatch]

/-- All threads have ended then, and the file is the resource. -/
theorem takingTurns_assemble :
    ∃ w, run (Transfer.step exactProgress) (Transfer.begin segmented 2 [] []) takingTurns = some w ∧
      (∀ thread ∈ w.task.threads, thread.phase = .ended) ∧ w.file = [1, 2, 3] ∧ 100 ∈ w.posted := by
  have assembled : Throughout (Transfer.step exactProgress) (Assembled [1, 2, 3]) (Transfer.begin segmented 2 [] [])
      takingTurns :=
    segments_assemble rfl (by decide) (by decide) (by decide) (fun _ absent => absurd absent List.not_mem_nil)
      (by decide +kernel)
  have whole : (run (Transfer.step exactProgress) (Transfer.begin segmented 2 [] []) takingTurns).map
      (fun w => w.task.threads.map DownloadThread.phase) = some [.ended, .ended] := by
    decide +kernel
  obtain ⟨w, reached, phases⟩ := Option.map_eq_some_iff.mp whole
  have ended : ∀ thread ∈ w.task.threads, thread.phase = .ended := by
    intro thread member
    have phase := phases ▸ List.mem_map_of_mem member
    simpa using phase
  obtain ⟨file, posted, -⟩ := (assembled takingTurns [] (List.append_nil _).symm w reached).done ended
  exact ⟨w, reached, ended, file, posted⟩

end AdTerminal.Download
