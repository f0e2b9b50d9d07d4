import AdTerminal.Download.OneWriter

/-! Listed tasks are attended. A task that is listed and not paused is ignored when its URL
is requested, so it must be at work or about to be unlisted. A thread that ends with an
exception, a refused response or a short stream leaves it neither. -/

namespace AdTerminal.Download
open Transition ListUpdate

variable {κ : Type} {w w' : Service κ}

/-- The thread is queued or running, and not on its way out after a pause. -/
def DownloadThread.Pursuing (thread : DownloadThread) : Prop :=
  thread.phase ≠ .pausing ∧ thread.phase ≠ .saving ∧ thread.phase ≠ .ended

/-- The message leads to the end of the task at that place, or of the listed task of the URL. -/
def Message.completes (k : Nat) (url : String) : Message κ → Bool
  | .downloading task progress => task = k ∧ 100 ≤ progress
  | .downloadFinished finished => finished = url
  | .init .. | .bindSuccess => false

/-- A completion of the task at that place is in flight. -/
def Service.Completing (w : Service κ) (k : Nat) (url : String) : Prop :=
  (∃ message ∈ w.queue, message.completes k url) ∨ url ∈ w.broadcasts

/-- Every listed task that is not paused has a thread queued or running, or a completion in flight. -/
def Attended (w : Service κ) : Prop :=
  ∀ k entry, w.tasks[k]? = some entry → entry.listed = true → entry.task.isPause = false →
    (∃ thread ∈ entry.task.threads, thread.Live) ∨ w.Completing k entry.task.taskInfo.url

/-- The same for one task, with a thread that does not stop for an earlier pause. -/
def PursuedAt (w : Service κ) (k : Nat) (entry : Entry κ) : Prop :=
  entry.listed = true → entry.task.isPause = false →
    (∃ thread ∈ entry.task.threads, thread.Pursuing) ∨ w.Completing k entry.task.taskInfo.url

def Pursued (w : Service κ) : Prop := ∀ k entry, w.tasks[k]? = some entry → PursuedAt w k entry

/-- The step ends the thread without its segment being counted: by an exception, a position or
a code that is not accepted, or an end of the stream at which a float tells the count from
the length. -/
def GivesUp (lenght : Int) (thread : DownloadThread) : ThreadEvent → Prop
  | .fail => True
  | .respond code _ => ¬ (0 ≤ thread.position ∧ (code = 206 ∨ code = 200))
  | .proceed => thread.phase = .closing ∧ Binary32.round thread.threadInfo.finished < Binary32.round lenght
  | _ => False

def Message.isInit (url : String) : Message κ → Bool
  | .init _ info => info.url = url
  | _ => false

/-- The `InitThread`s of a URL and its `MSG_INIT`s. -/
def Service.initCount (w : Service κ) (url : String) : Nat :=
  w.inits.countP (fun info => info.url = url) + w.queue.countP (Message.isInit url)

/-- A completed task that is listed and not paused has a callback. -/
def Heard (w : Service κ) : Message κ → Prop
  | .downloading k progress => 100 ≤ progress → ∀ entry ∈ w.tasks[k]?, entry.listed = true →
      entry.task.isPause = false → entry.task.taskInfo.download.isSome
  | _ => True

/-- A URL is not requested twice before its task is listed, every completion is heard, and
the last thread that pursues a task does not give up. -/
def Carried (w : Service κ) : ServiceEvent κ → Prop
  | .download info => w.find? info.url = none → w.initCount info.url = 0
  | .dispatch => ∀ message ∈ w.queue.head?, Heard w message
  | .thread k i event => ∀ entry ∈ w.tasks[k]?, entry.listed = true → entry.task.isPause = false →
      ∀ thread ∈ entry.task.threads[i]?, GivesUp entry.task.taskInfo.lenght thread event →
      (∃ other ∈ entry.task.threads.eraseIdx i, other.Pursuing) ∨ w.Completing k entry.task.taskInfo.url
  | _ => True

/-- A URL has one listed task, or one on its way into the list, or none. -/
def AtMostOne (w : Service κ) : Prop := ∀ url, w.initCount url + w.listedCount url ≤ 1

theorem AtMostOne.mono (one : AtMostOne w) (inits : ∀ url, w'.initCount url ≤ w.initCount url)
    (listed : ∀ url, w'.listedCount url ≤ w.listedCount url) : AtMostOne w' :=
  fun url => (Nat.add_le_add (inits url) (listed url)).trans (one url)

theorem initCount_handled {message : Message κ} {rest : List (Message κ)} (first : w.queue = message :: rest)
    (inits : w'.inits = w.inits) (queue : w'.queue = rest) (url : String) :
    w'.initCount url + (if message.isInit url then 1 else 0) = w.initCount url := by
  simp only [Service.initCount, first, inits, queue, List.countP_cons]
  omega

/-- A task is listed when its `MSG_INIT` is handled, and is no longer on its way then. -/
theorem AtMostOne.created {request info : TaskInfo κ} {rest : List (Message κ)} (one : AtMostOne w)
    (first : w.queue = .init request info :: rest) (inits : w'.inits = w.inits) (queue : w'.queue = rest)
    (tasks : w'.tasks = w.tasks ++ [{ request, task := ((DownloadTask.create info 1).downlaod w.rows).1 }]) :
    AtMostOne w' := by
  intro url
  have handled := initCount_handled first inits queue url
  have listed : w'.listedCount url = w.listedCount url + if info.url = url then 1 else 0 :=
    listedCount_created tasks rfl url
  have bound := one url
  simp only [Message.isInit, decide_eq_true_eq] at handled
  omega

theorem atMostOne_step {event : ServiceEvent κ} (one : AtMostOne w) (carried : Carried w event)
    (stepped : Stepped w event w') : AtMostOne w' := by
  have handled : ∀ {message rest} {v : Service κ}, w.queue = message :: rest → v.inits = w.inits → v.queue = rest →
      ∀ url, v.initCount url ≤ w.initCount url := by
    intro message rest v first inits queue url
    have change := initCount_handled first inits queue url
    omega
  cases stepped with
  | restarted info k entry found paused =>
    apply one.mono
    · exact fun _ => le_rfl
    · exact listedCount_set (Service.of_find? found).1 rfl rfl id
  | requested info absent =>
    intro url
    have count : Service.initCount { w with inits := w.inits ++ [info] } url =
        w.initCount url + if info.url = url then 1 else 0 := by
      simp only [Service.initCount, List.countP_append, List.countP_singleton, decide_eq_true_eq]
      omega
    have listed : Service.listedCount { w with inits := w.inits ++ [info] } url = w.listedCount url := rfl
    rw [count, listed]
    split
    next same =>
      have nothing := (find?_eq_none_iff info.url).mp absent
      have alone := carried absent
      rw [← same, nothing, alone]
    next => exact one url
  | pausedTask url k entry found =>
    apply one.mono
    · exact fun _ => le_rfl
    · exact listedCount_set (Service.of_find? found).1 rfl rfl id
  | lowMemory =>
    apply one.mono
    · exact fun _ => le_rfl
    · exact fun url => (listedCount_onLowMemory w url).le
  | prepared i request info code contentLength directory header waiting accepted =>
    have same := (of_initThread accepted).1
    apply one.mono
    · intro url
      have erased := countP_eraseIdx waiting fun info => info.url = url
      simp only [Service.initCount, List.countP_append, List.countP_singleton, Message.isInit, same]
      omega
    · exact fun _ => le_rfl
  | notPrepared event i request waiting ended =>
    apply one.mono
    · intro url
      exact Nat.add_le_add_right ((List.eraseIdx_sublist w.inits i).countP_le) _
    · exact fun _ => le_rfl
  | created request info rest first => exact one.created first rfl rfl rfl
  | completed k progress rest entry first present called full =>
    exact one.mono (handled first rfl rfl) (listedCount_set present rfl rfl id)
  | progressed k progress rest first unfinished => exact one.mono (handled first rfl rfl) fun _ => le_rfl
  | unlisted url rest k entry first found =>
    exact one.mono (handled first rfl rfl) (listedCount_set (Service.of_find? found).1 rfl rfl (by simp))
  | unlistedNothing url rest first absent => exact one.mono (handled first rfl rfl) fun _ => le_rfl
  | bindSuccess rest first => exact one.mono (handled first rfl rfl) fun _ => le_rfl
  | broadcast i url sent =>
    apply one.mono
    · intro url'
      simp [Service.initCount, Message.isInit]
    · exact fun _ => le_rfl
  | ran k i event entry thread thread' action outcome present started ran performed =>
    apply one.mono
    · intro url
      simp [Service.initCount, Message.isInit]
    · exact listedCount_set present rfl (congrArg TaskInfo.url performed.taskInfo) id
  | killed =>
    intro url
    simp [Service.initCount, Service.listedCount]
  | _ => exact one

/-- A thread that pursues goes on doing so, gives up, or posts a last progress of a segment
that a float does not tell from complete. -/
theorem pursuing_of_ran {info : ThreadInfo} {phase : Phase} {event : ThreadEvent} {thread' : DownloadThread}
    {action : Action} (lenght : Int) (ran : Ran false info phase event thread' action)
    (pursuing : DownloadThread.Pursuing ⟨info, phase⟩) :
    thread'.Pursuing ∨ GivesUp lenght ⟨info, phase⟩ event ∨
      (action = .notifyProgress ∧ thread'.threadInfo = info ∧ Binary32.round lenght ≤ Binary32.round info.finished) := by
  cases ran with
  | refused code body throws => exact Or.inr (Or.inl throws)
  | failed phase throws => exact Or.inr (Or.inl trivial)
  | closing =>
    rcases lt_or_ge (Binary32.round info.finished) (Binary32.round lenght) with less | reached
    · exact Or.inr (Or.inl ⟨rfl, less⟩)
    · exact Or.inr (Or.inr ⟨rfl, rfl, reached⟩)
  | pausing => exact absurd rfl pursuing.1
  | saving => exact absurd rfl pursuing.2.1
  | _ => exact Or.inl (by simp [DownloadThread.Pursuing])

theorem Service.Completing.mono {k : Nat} {url : String} (completing : w.Completing k url)
    (queue : ∀ message ∈ w.queue, message ∈ w'.queue)
    (broadcasts : ∀ url ∈ w.broadcasts, url ∈ w'.broadcasts) :
    w'.Completing k url := by
  rcases completing with ⟨message, member, completes⟩ | sent
  · exact Or.inl ⟨message, queue message member, completes⟩
  · exact Or.inr (broadcasts url sent)

/-- Handling a message that completes nothing leaves the completions in flight. -/
theorem Service.Completing.handled {k : Nat} {url : String} {message : Message κ} {rest : List (Message κ)}
    (completing : w.Completing k url) (first : w.queue = message :: rest) (queue : w'.queue = rest)
    (broadcasts : ∀ url ∈ w.broadcasts, url ∈ w'.broadcasts) (other : message.completes k url = false) :
    w'.Completing k url := by
  rcases completing with ⟨later, member, completes⟩ | sent
  · rw [first] at member
    rcases List.mem_cons.mp member with rfl | remains
    · simp [other] at completes
    · exact Or.inl ⟨later, queue ▸ remains, completes⟩
  · exact Or.inr (broadcasts url sent)

/-- Two listed tasks of one URL are the same. -/
theorem AtMostOne.same_place (one : AtMostOne w) {k k' : Nat} {entry entry' : Entry κ}
    (present : w.tasks[k]? = some entry) (present' : w.tasks[k']? = some entry')
    (listed : entry.listed = true)
    (listed' : entry'.listed = true) (url : entry'.task.taskInfo.url = entry.task.taskInfo.url) : k' = k := by
  by_contra different
  have removed := countP_eraseIdx present fun e => e.listed && decide (e.task.taskInfo.url = entry.task.taskInfo.url)
  have remains : entry' ∈ w.tasks.eraseIdx k := List.mem_eraseIdx_iff_getElem?.mpr ⟨k', different, present'⟩
  have positive : 0 < (w.tasks.eraseIdx k).countP
      fun e => e.listed && decide (e.task.taskInfo.url = entry.task.taskInfo.url) :=
    List.countP_pos_iff.mpr ⟨entry', remains, by simp [listed', url]⟩
  have bound := one entry.task.taskInfo.url
  simp only [Service.listedCount, listed, decide_true, Bool.and_self, if_true] at bound removed
  omega

theorem Pursued.attended (pursued : Pursued w) : Attended w := by
  intro k entry present listed unpaused
  rcases pursued k entry present listed unpaused with ⟨thread, started, pursuing⟩ | completing
  · exact Or.inl ⟨thread, started, pursuing.2.2⟩
  · exact Or.inr completing

theorem PursuedAt.imp {k : Nat} {entry : Entry κ} (pursued : PursuedAt w k entry)
    (completing : entry.listed = true → entry.task.isPause = false → w.Completing k entry.task.taskInfo.url →
      w'.Completing k entry.task.taskInfo.url) : PursuedAt w' k entry :=
  fun listed unpaused => (pursued listed unpaused).imp_right (completing listed unpaused)

/-- A task with a new thread is pursued. -/
theorem pursuedAt_started {k : Nat} {entry : Entry κ} {threads : List DownloadThread} {info : ThreadInfo}
    (started : entry.task.threads = threads ++ [⟨info, .queued⟩]) : PursuedAt w k entry := by
  intro listed unpaused
  exact Or.inl ⟨⟨info, .queued⟩, by simp [started], by simp [DownloadThread.Pursuing]⟩

theorem Pursued.congr (pursued : Pursued w) (tasks : w'.tasks = w.tasks)
    (completing : ∀ k entry, w.tasks[k]? = some entry → entry.listed = true → entry.task.isPause = false →
      w.Completing k entry.task.taskInfo.url → w'.Completing k entry.task.taskInfo.url) : Pursued w' := by
  intro k entry present
  rw [tasks] at present
  exact (pursued k entry present).imp (completing k entry present)

/-- A message that completes no listed task can be handled. -/
theorem Pursued.handled {message : Message κ} {rest : List (Message κ)} (pursued : Pursued w)
    (first : w.queue = message :: rest) (tasks : w'.tasks = w.tasks) (queue : w'.queue = rest)
    (broadcasts : w'.broadcasts = w.broadcasts)
    (other : ∀ k entry, w.tasks[k]? = some entry → entry.listed = true → entry.task.isPause = false →
      message.completes k entry.task.taskInfo.url = false) : Pursued w' := by
  refine pursued.congr tasks ?_
  intro k entry present listed unpaused completing
  refine completing.handled first queue ?_ (other k entry present listed unpaused)
  intro url sent
  rw [broadcasts]
  exact sent

theorem Pursued.set {k : Nat} {changed : Entry κ} (pursued : Pursued w)
    (tasks : w'.tasks = w.tasks.set k changed)
    (own : PursuedAt w' k changed)
    (completing : ∀ j entry, j ≠ k → w.tasks[j]? = some entry → entry.listed = true →
      w.Completing j entry.task.taskInfo.url → w'.Completing j entry.task.taskInfo.url) : Pursued w' := by
  intro j entry present
  rw [tasks] at present
  rcases mem_set_cases present with ⟨rfl, rfl⟩ | ⟨different, old⟩
  · exact own
  · exact (pursued j entry old).imp fun listed _ => completing j entry different old listed

/-- The task whose thread takes a step stays pursued. -/
theorem pursuedAt_ran {k i : Nat} {event : ThreadEvent} {entry : Entry κ} {thread thread' : DownloadThread}
    {action : Action} {outcome : DownloadTask.Outcome κ} {writes : List (Nat × List UInt8)} (tidy : w.Tidy)
    (pursued : PursuedAt w k entry) (carried : Carried w (.thread k i event))
    (present : w.tasks[k]? = some entry) (started : entry.task.threads[i]? = some thread)
    (ran : Ran entry.task.isPause thread.threadInfo thread.phase event thread' action)
    (performed : Performed floatProgress entry.task w.rows (w.disk entry.task.taskInfo.file) i thread' action outcome)
    (queue : w'.queue = w.queue ++ outcome.posted.toList.map (.downloading k))
    (broadcasts : w'.broadcasts = w.broadcasts) :
    PursuedAt w' k { entry with task := outcome.task, writes } := by
  intro listed unpaused
  rw [performed.isPause] at unpaused
  have own := tidy.task present
  have info := own.threads thread (List.mem_of_getElem? started)
  have kept : w.Completing k entry.task.taskInfo.url → w'.Completing k outcome.task.taskInfo.url := by
    intro completing
    rw [performed.taskInfo]
    apply completing.mono
    · intro message member
      rw [queue]
      exact List.mem_append_left _ member
    · intro url sent
      rw [broadcasts]
      exact sent
  have elsewhere : ∀ other ∈ entry.task.threads.eraseIdx i, other ∈ outcome.task.threads := by
    intro other remains
    obtain ⟨j, different, found⟩ := List.mem_eraseIdx_iff_getElem?.mp remains
    rw [performed.threads]
    exact List.mem_of_getElem? ((List.getElem?_set_ne (Ne.symm different)).trans found)
  rcases pursued listed unpaused with ⟨other, found, pursuing⟩ | completing
  · rcases mem_of_erased started found with same | remains
    · subst same
      rw [unpaused] at ran
      rcases pursuing_of_ran entry.task.taskInfo.lenght ran pursuing with goes_on | gives_up |
        ⟨posts, segment, reached⟩
      · have bound := (List.getElem?_eq_some_iff.mp started).1
        exact Or.inl ⟨thread', by simp [performed.threads, List.mem_set bound], goes_on⟩
      · have others := carried entry present listed unpaused other started gives_up
        rcases others with ⟨third, remains, pursuing'⟩ | completing
        · exact Or.inl ⟨third, elsewhere third remains, pursuing'⟩
        · exact Or.inr (kept completing)
      · have full := le_floatProgress own.positive reached
        right
        left
        refine ⟨.downloading k (floatProgress other.threadInfo.finished entry.task.taskInfo.lenght), ?_, ?_⟩
        · rw [queue, performed.posted, if_pos posts, segment, own.posted info.1]
          simp
        · simp [Message.completes, full]
    · exact Or.inl ⟨other, elsewhere other remains, pursuing⟩
  · exact Or.inr (kept completing)

theorem pursued_step {event : ServiceEvent κ} (tidy : w.Tidy) (one : AtMostOne w) (pursued : Pursued w)
    (carried : Carried w event) (stepped : Stepped w event w') : Pursued w' := by
  cases stepped with
  | restarted info k entry found paused =>
    obtain ⟨segment, -, -, started⟩ := tidy.restart_single (Service.of_find? found).1
    apply pursued.set rfl
    · exact pursuedAt_started started
    · exact fun _ _ _ _ _ completing => completing
  | pausedTask url k entry found =>
    apply pursued.set rfl
    · intro listed unpaused
      simp [DownloadTask.pause] at unpaused
    · exact fun _ _ _ _ _ completing => completing
  | lowMemory =>
    intro k entry present listed unpaused
    simp only [Service.onLowMemory, List.getElem?_map, Option.map_eq_some_iff] at present
    obtain ⟨old, present, rfl⟩ := present
    split at listed
    next was => simp [was, DownloadTask.pause] at unpaused
    next unlisted => exact absurd listed unlisted
  | prepared i request info code contentLength directory header waiting accepted =>
    refine pursued.congr rfl ?_
    intro k entry present listed unpaused completing
    exact completing.mono (fun _ member => List.mem_append_left _ member) fun _ sent => sent
  | created request info rest first =>
    have message := tidy.messages request info (first ▸ List.mem_cons_self)
    obtain ⟨segment, -, -, started⟩ := tidy.create_single message.2
    intro k entry present
    rcases mem_append_cases present with old | ⟨rfl, rfl⟩
    · apply (pursued k entry old).imp
      intro listed unpaused completing
      exact completing.handled first rfl (fun _ sent => sent) rfl
    · exact pursuedAt_started (started.trans (List.nil_append _).symm)
  | completed k progress rest entry first present called full =>
    apply pursued.set rfl
    · intro listed unpaused
      exact Or.inr (Or.inr (by simp))
    · intro j other different old listed completing
      refine completing.handled first rfl (fun _ sent => List.mem_append_left _ sent) ?_
      simp [Message.completes, different.symm]
  | progressed k progress rest first unfinished =>
    refine pursued.handled first rfl rfl rfl ?_
    intro j entry present listed unpaused
    -- A progress of at least 100 would have been heard.
    by_contra completes
    simp only [Message.completes, Bool.not_eq_false, decide_eq_true_eq] at completes
    obtain ⟨rfl, full⟩ := completes
    have heard : Heard w (.downloading k progress) := carried _ (by rw [first]; rfl)
    have called := heard full entry present listed unpaused
    have below := unfinished entry present called
    omega
  | unlisted url rest k entry first found =>
    have own := Service.of_find? found
    apply pursued.set rfl
    · intro listed
      simp at listed
    · intro j other different old listed completing
      refine completing.handled first rfl (fun _ sent => sent) ?_
      by_contra completes
      have same : url = other.task.taskInfo.url := by simpa [Message.completes] using completes
      exact different (one.same_place own.1 old own.2.1 listed (same.symm.trans own.2.2.symm))
  | unlistedNothing url rest first absent =>
    refine pursued.handled first rfl rfl rfl ?_
    intro j entry present listed unpaused
    by_contra completes
    have same : url = entry.task.taskInfo.url := by simpa [Message.completes] using completes
    exact Service.find?_eq_none absent (List.mem_of_getElem? present) listed same.symm
  | bindSuccess rest first => exact pursued.handled first rfl rfl rfl fun _ _ _ _ _ => rfl
  | broadcast i url sent =>
    refine pursued.congr rfl ?_
    intro k entry present listed unpaused completing
    rcases completing with ⟨message, member, completes⟩ | waiting
    · exact Or.inl ⟨message, List.mem_append_left _ member, completes⟩
    · rcases mem_of_erased sent waiting with same | remains
      · exact Or.inl ⟨.downloadFinished url, by simp, by simp [Message.completes, same]⟩
      · exact Or.inr remains
  | ran k i event entry thread thread' action outcome present started ran performed =>
    apply pursued.set rfl
    · exact pursuedAt_ran tidy (pursued k entry present) carried present started ran performed rfl rfl
    · intro j other different old listed completing
      exact completing.mono (fun _ member => List.mem_append_left _ member) fun _ sent => sent
  | killed =>
    intro k entry present
    simp at present
  | _ => exact pursued.congr rfl fun _ _ _ _ _ completing => completing

/-- From the start of the service on, over every order of its events that carries the tasks
on, every listed task that is not paused is attended. -/
theorem attended_throughout {es : List (ServiceEvent κ)}
    (steps : Steps Service.step Carried ({} : Service κ) es) :
    Throughout Service.step Attended ({} : Service κ) es := by
  have kept : ∀ (w : Service κ) event t, w.Tidy ∧ AtMostOne w ∧ Pursued w → Carried w event →
      w.step event = some t → t.Tidy ∧ AtMostOne t ∧ Pursued t := by
    intro w event t inv carried taken
    have stepped := stepped_of_step taken
    exact ⟨tidy_step inv.1 stepped, atMostOne_step inv.2.1 carried stepped,
      pursued_step inv.1 inv.2.1 inv.2.2 carried stepped⟩
  have start : ({} : Service κ).Tidy ∧ AtMostOne ({} : Service κ) ∧ Pursued ({} : Service κ) := by
    refine ⟨tidy_start, ?_, ?_⟩
    · intro url
      simp [Service.initCount, Service.listedCount]
    · intro k entry present
      simp at present
  exact throughout_of_invariant kept (fun w inv => inv.2.2.attended) start steps

instance (thread : DownloadThread) : Decidable thread.Pursuing := inferInstanceAs (Decidable (_ ∧ _ ∧ _))

instance (w : Service κ) (k : Nat) (url : String) : Decidable (w.Completing k url) :=
  inferInstanceAs (Decidable (_ ∨ _))

instance (lenght : Int) (thread : DownloadThread) : DecidablePred (GivesUp lenght thread)
  | .fail => isTrue trivial
  | .respond code _ => inferInstanceAs (Decidable (¬ (0 ≤ thread.position ∧ (code = 206 ∨ code = 200))))
  | .proceed => inferInstanceAs (Decidable (_ ∧ _))
  | .read _ | .endOfStream | .clock _ => isFalse id

instance (w : Service κ) : DecidablePred (Heard w)
  | .downloading k progress => inferInstanceAs (Decidable (100 ≤ progress → ∀ entry ∈ w.tasks[k]?,
      entry.listed = true → entry.task.isPause = false → entry.task.taskInfo.download.isSome))
  | .init .. | .downloadFinished _ | .bindSuccess => isTrue trivial

instance (w : Service Unit) : DecidablePred (Carried w)
  | .download info => inferInstanceAs (Decidable (w.find? info.url = none → w.initCount info.url = 0))
  | .dispatch => inferInstanceAs (Decidable (∀ message ∈ w.queue.head?, Heard w message))
  | .thread k i event => inferInstanceAs (Decidable (∀ entry ∈ w.tasks[k]?, entry.listed = true →
      entry.task.isPause = false → ∀ thread ∈ entry.task.threads[i]?,
      GivesUp entry.task.taskInfo.lenght thread event →
      (∃ other ∈ entry.task.threads.eraseIdx i, other.Pursuing) ∨ w.Completing k entry.task.taskInfo.url))
  | .pause _ | .lowMemory | .initThread .. | .initFails _ | .broadcast _ | .killed => isTrue trivial

/-- The transfer fails while it is paused, and the next request takes it up again. -/
def takenUpAgain : List (ServiceEvent Unit) :=
  [.download poster, .initThread 0 200 4 "" "", .dispatch, .pause poster.url, .thread 0 0 .fail,
    .download poster, .thread 0 1 (.respond 206 [1, 2, 3, 4]), .thread 0 1 (.read 4), .thread 0 1 .proceed,
    .thread 0 1 (.clock false), .thread 0 1 .proceed, .thread 0 1 .endOfStream, .thread 0 1 .proceed,
    .dispatch, .broadcast 0, .dispatch]

theorem takenUpAgain_attended : Throughout Service.step Attended {} takenUpAgain ∧
    (run Service.step {} takenUpAgain).map (fun w => w.tasks.map fun entry => (entry.listed, entry.completions)) =
      some [(false, 1)] :=
  ⟨attended_throughout (by decide +kernel), by decide +kernel⟩

/-- The transfer fails, and the next request is ignored. -/
def wedged : List (ServiceEvent Unit) :=
  [.download poster, .initThread 0 200 4 "" "", .dispatch, .thread 0 0 .fail, .download poster]

theorem wedged_not_attended : ¬ Throughout Service.step Attended {} wedged := by
  intro all
  have ends : ∀ w ∈ run Service.step {} wedged, ∃ entry ∈ w.tasks[0]?,
      (entry.listed = true ∧ entry.task.isPause = false) ∧
      (∀ thread ∈ entry.task.threads, ¬ thread.Live) ∧ ¬ w.Completing 0 entry.task.taskInfo.url := by
    decide +kernel
  have reached : (run Service.step {} wedged).isSome := by decide +kernel
  obtain ⟨w, whole⟩ := Option.isSome_iff_exists.mp reached
  obtain ⟨entry, present, active, ended, nothing⟩ := ends w whole
  rcases all wedged [] rfl w whole 0 entry present active.1 active.2 with ⟨thread, started, live⟩ | completing
  · exact ended thread started live
  · exact nothing completing

end AdTerminal.Download
