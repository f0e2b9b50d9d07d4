import AdTerminal.Download.OneSegment
import AdTerminal.Library.ListUpdate

/-! Tasks whose transfers succeed. A request that is accepted by the service becomes a task
with one thread, which counts the whole resource before it ends and posts a completion of
its own. What it writes makes up the resource, whatever was in the file before. -/

namespace AdTerminal.Download
open Transition RandomAccess ListUpdate

variable {κ : Type} {resource : String → List UInt8} {source file : List UInt8} {w w' : Service κ}

/-- What is left of the response of a reading thread. -/
def Phase.unread : Phase → List UInt8
  | .reading _ body => body
  | _ => []

/-- The server sends what is asked for, and the stream ends after its last byte. -/
def Delivered (source : List UInt8) (thread : DownloadThread) : ThreadEvent → Prop
  | .respond code body =>
    (code = 206 ∧ body = thread.threadInfo.rest source thread.position.toNat) ∨ (code = 200 ∧ body = source)
  | .endOfStream => thread.phase.unread = []
  | .fail => False
  | _ => True

/-- Every transfer succeeds, and nobody pauses one. `resource` is what the server has under
a URL. -/
def Succeeding (resource : String → List UInt8) (w : Service κ) : ServiceEvent κ → Prop
  | .download info => info.download.isSome
  | .initThread i code contentLength _ _ => ∀ request ∈ w.inits[i]?,
      code = 200 ∧ 0 < contentLength ∧ contentLength < 2 ^ 31 ∧ contentLength = (resource request.url).length
  | .thread k i event => ∀ entry ∈ w.tasks[k]?, ∀ thread ∈ entry.task.threads[i]?,
      Delivered (resource entry.task.taskInfo.url) thread event
  | .dispatch | .broadcast _ => True
  | .pause _ | .lowMemory | .initFails _ | .killed => False

/-- A thread that fetches the whole source. -/
structure Fetches (source : List UInt8) (thread : DownloadThread) : Prop where
  start : thread.threadInfo.start = 0
  end_ : thread.threadInfo.end_ = source.length
  unpaused : thread.phase ≠ .pausing ∧ thread.phase ≠ .saving
  fresh : thread.phase = .queued → thread.threadInfo.finished = 0
  counted : thread.phase = .closing ∨ thread.phase = .ended → thread.threadInfo.finished = source.length

/-- The part of the file that the thread counts holds the source. -/
structure InFile (source : List UInt8) (thread : DownloadThread) (file : List UInt8) : Prop where
  length : file.length = source.length
  sound : thread.Sound source file

theorem Fetches.stop {thread : DownloadThread} (fetches : Fetches source thread) :
    thread.threadInfo.stop source = source.length := by
  rw [ThreadInfo.stop, fetches.end_]
  omega

/-- Once everything is counted, the file is the source. -/
theorem InFile.complete {thread : DownloadThread} (inFile : InFile source thread file)
    (fetches : Fetches source thread)
    (ended : thread.phase = .ended) : file = source := by
  apply eq_of_agreeOn inFile.length
  apply inFile.sound.segment.agree.mono
  intro p inside
  have bound : p < source.length := inside
  have counted := fetches.counted (Or.inr ended)
  have start := fetches.start
  constructor
  · rw [start]
    omega
  · rw [start, counted]
    omega

theorem position_zero {thread : DownloadThread} (fetches : Fetches source thread)
    (queued : thread.phase = .queued) :
    int (thread.threadInfo.start + thread.threadInfo.finished) = 0 := by
  rw [fetches.start, fetches.fresh queued]
  rfl

theorem answers_of_delivered {thread : DownloadThread} {event : ThreadEvent} (fetches : Fetches source thread)
    (queued : ∀ code body, event = .respond code body → thread.phase = .queued)
    (delivered : Delivered source thread event) : Answers source thread.threadInfo event := by
  cases event with
  | respond code body =>
    intro accepted
    rcases delivered with ⟨-, part⟩ | ⟨-, whole⟩
    · exact part
    · have fresh := fetches.fresh (queued code body rfl)
      have position : (int (thread.threadInfo.start + thread.threadInfo.finished)).toNat = 0 := by
        rw [fetches.start, fresh]
        rfl
      rw [position, whole, ThreadInfo.rest, fetches.stop]
      simp
  | _ => trivial

/-- When the file pointer stands behind the source, the whole of it is counted. -/
theorem counted_of_rest {thread : DownloadThread} {pointer : Nat} (fetches : Fetches source thread)
    (inFile : InFile source thread file)
    (at_pointer : (pointer : Int) = thread.threadInfo.start + thread.threadInfo.finished)
    (nothing : thread.threadInfo.rest source pointer = []) : thread.threadInfo.finished = source.length := by
  have within := inFile.sound.segment.within
  have start := fetches.start
  rw [fetches.stop] at within
  rw [ThreadInfo.rest, fetches.stop] at nothing
  have passed := List.drop_eq_nil_iff.mp nothing
  simp only [List.length_take] at passed
  omega

theorem fetches_ran {thread thread' : DownloadThread} {event : ThreadEvent} {action : Action}
    (small : (source.length : Int) < 2 ^ 31) (fetches : Fetches source thread)
    (inFile : InFile source thread file)
    (delivered : Delivered source thread event)
    (ran : Ran false thread.threadInfo thread.phase event thread' action) :
    Fetches source thread' ∧ InFile source thread' (action.onFile file) ∧ Keeps source file (action.onFile file) ∧
      action ≠ .updateThread ∧ (thread'.phase = .ended → action = .notifyProgress) := by
  have queued : ∀ code body, event = .respond code body → thread.phase = .queued := by
    intro code body same
    subst same
    generalize before : thread.phase = phase at ran
    cases ran <;> rfl
  have seeks : ∀ code body, event = .respond code body →
      0 ≤ int (thread.threadInfo.start + thread.threadInfo.finished) ∧ (code = 206 ∨ code = 200) := by
    intro code body same
    have position := position_zero fetches (queued code body same)
    subst same
    exact ⟨position.ge, delivered.imp And.left And.left⟩
  have answers := answers_of_delivered fetches queued delivered
  have sound := sound_run ran inFile.sound.segment inFile.sound.ahead answers inFile.length small
  refine and_assoc.mp ⟨⟨?_, ⟨sound.1, sound.2.2⟩⟩, sound.2.1, ?_⟩
  · have start := fetches.start
    have end_ := fetches.end_
    obtain ⟨info, phase⟩ := thread
    cases ran with
    | refused code body throws => exact absurd (seeks code body rfl) throws
    | endOfStream pointer body =>
      refine ⟨start, end_, by simp, by simp, ?_⟩
      intro _
      have ahead : (pointer : Int) = info.start + info.finished ∧ body = info.rest source pointer := inFile.sound.ahead
      have nothing : body = [] := delivered
      have whole := counted_of_rest fetches inFile ahead.1 (ahead.2.symm.trans nothing)
      exact whole
    | closing => exact ⟨start, end_, by simp, by simp, fun _ => fetches.counted (Or.inl rfl)⟩
    | pausing => exact absurd rfl fetches.unpaused.1
    | saving => exact absurd rfl fetches.unpaused.2
    | failed phase throws => exact delivered.elim
    | _ => exact ⟨start, end_, by simp, by simp, by simp⟩
  · obtain ⟨info, phase⟩ := thread
    cases ran with
    | clock pointer body late => cases late <;> simp
    | refused code body throws => exact absurd (seeks code body rfl) throws
    | saving => exact absurd rfl fetches.unpaused.2
    | failed phase throws => exact delivered.elim
    | _ => simp

/-- The file after some writes. -/
def replay (old : List UInt8) (writes : List (Nat × List UInt8)) : List UInt8 :=
  writes.foldl (fun file write => writeAt 0 file write.1 write.2) old

theorem replay_action (old : List UInt8) (writes : List (Nat × List UInt8)) (action : Action) :
    replay old (writes ++ action.written) = action.onFile (replay old writes) := by
  rw [replay, List.foldl_append]
  cases action <;> rfl

/-- What `InitThread` makes of a request: its own file, where one is given, and its own callback. -/
structure Prepared (resource : String → List UInt8) (request info : TaskInfo κ) : Prop where
  url : info.url = request.url
  callback : info.download = request.download
  path : isEmpty request.filePath = false → info.filePath = request.filePath
  name : isEmpty request.fileName = false → info.fileName = request.fileName
  length : info.lenght = (resource info.url).length
  positive : 0 < info.lenght
  small : info.lenght < 2 ^ 31

def Message.pair? : Message κ → Option (TaskInfo κ × TaskInfo κ)
  | .init request info => some (request, info)
  | _ => none

namespace Service

/-- The requests that are prepared, each with its task. -/
def pairs (w : Service κ) : List (TaskInfo κ × TaskInfo κ) :=
  w.queue.filterMap Message.pair? ++ w.tasks.map fun entry => (entry.request, entry.task.taskInfo)

/-- The requests the service has started something for. -/
def accepted (w : Service κ) : List (TaskInfo κ) := w.inits ++ w.pairs.map Prod.fst

/-- The file of the task is that of no other URL. -/
def Exclusive (w : Service κ) (info : TaskInfo κ) : Prop :=
  ∀ pair ∈ w.pairs, pair.2.file = info.file → pair.2.url = info.url

end Service

/-- A task with the one thread it has. -/
structure Fetched (resource : String → List UInt8) (w : Service κ) (k : Nat) (entry : Entry κ)
    (thread : DownloadThread) : Prop where
  running : entry.task.isPause = false
  alone : entry.task.threads = [thread]
  fetches : Fetches (resource entry.task.taskInfo.url) thread
  replayed : ∀ old, old.length = (resource entry.task.taskInfo.url).length →
    InFile (resource entry.task.taskInfo.url) thread (replay old entry.writes)
  onDisk : w.Exclusive entry.task.taskInfo →
    InFile (resource entry.task.taskInfo.url) thread (w.disk entry.task.taskInfo.file)
  notified : thread.phase = .ended →
    0 < entry.completions ∨ ∃ progress, 100 ≤ progress ∧ Message.downloading k progress ∈ w.queue

/-- The invariant of a service whose transfers succeed. -/
structure Serving (resource : String → List UInt8) (w : Service κ) : Prop where
  tidy : w.Tidy
  callbacks : ∀ request ∈ w.accepted, request.download.isSome
  rows : ∀ row ∈ w.rows, row.start = 0 ∧ row.end_ = (resource row.url).length ∧ row.finished = 0
  prepared : ∀ pair ∈ w.pairs, Prepared resource pair.1 pair.2 ∧
    (w.Exclusive pair.2 → (w.disk pair.2.file).length = (resource pair.2.url).length)
  tasks : ∀ k entry, w.tasks[k]? = some entry → ∃ thread, Fetched resource w k entry thread
  merged : ∀ pair ∈ w.merged, pair.1.url = pair.2.url ∧ pair.2 ∈ w.accepted

theorem getD_of_given {text : Option String} (given : isEmpty text = false) : some (text.getD "") = text := by
  cases text with
  | none => simp [isEmpty] at given
  | some text => rfl

theorem prepared_of_run {request info : TaskInfo κ} {code contentLength : Int} {directory header : String}
    (accepted : InitThread.run request code contentLength directory header = some info)
    (small : contentLength < 2 ^ 31) (length : contentLength = (resource request.url).length) :
    Prepared resource request info := by
  simp only [InitThread.run, Option.ite_none_right_eq_some, Option.some.injEq] at accepted
  obtain ⟨⟨-, positive⟩, rfl⟩ := accepted
  refine ⟨rfl, rfl, ?_, ?_, length, positive, small⟩
  · intro given
    simp only [given, Bool.false_eq_true, if_false]
    exact getD_of_given given
  · intro given
    simp only [given, getD_of_given given, Bool.false_eq_true, if_false]

theorem Service.pairs_congr (queue : w'.queue.filterMap Message.pair? = w.queue.filterMap Message.pair?)
    (tasks : (w'.tasks.map fun entry => (entry.request, entry.task.taskInfo)) =
      w.tasks.map fun entry => (entry.request, entry.task.taskInfo)) : w'.pairs = w.pairs := by
  rw [pairs, queue, tasks, pairs]

theorem Fetched.frame {k : Nat} {entry : Entry κ} {thread : DownloadThread}
    (fetched : Fetched resource w k entry thread)
    (exclusive : w'.Exclusive entry.task.taskInfo → w.Exclusive entry.task.taskInfo)
    (disk : w'.Exclusive entry.task.taskInfo →
      InFile (resource entry.task.taskInfo.url) thread (w.disk entry.task.taskInfo.file) →
      InFile (resource entry.task.taskInfo.url) thread (w'.disk entry.task.taskInfo.file))
    (queue : ∀ progress, 100 ≤ progress → Message.downloading k progress ∈ w.queue →
      Message.downloading k progress ∈ w'.queue) : Fetched resource w' k entry thread := by
  refine { fetched with onDisk := ?_, notified := ?_ }
  · intro exclusive'
    exact disk exclusive' (fetched.onDisk (exclusive exclusive'))
  · intro ended
    apply (fetched.notified ended).imp_right
    intro ⟨progress, full, posted⟩
    exact ⟨progress, full, queue progress full posted⟩

theorem accepted_of_member {k : Nat} {entry : Entry κ} (present : w.tasks[k]? = some entry) :
    (entry.request, entry.task.taskInfo) ∈ w.pairs ∧ entry.request ∈ w.accepted := by
  have pair : (entry.request, entry.task.taskInfo) ∈ w.pairs :=
    List.mem_append_right _ (List.mem_map.mpr ⟨entry, List.mem_of_getElem? present, rfl⟩)
  exact ⟨pair, List.mem_append_right _ (List.mem_map.mpr ⟨_, pair, rfl⟩)⟩

theorem pairs_handled {message : Message κ} {rest : List (Message κ)} (first : w.queue = message :: rest)
    (other : message.pair? = none) : rest.filterMap Message.pair? = w.queue.filterMap Message.pair? := by
  rw [first, List.filterMap_cons_none other]

theorem pairs_created {request info : TaskInfo κ} {rest : List (Message κ)} {entry : Entry κ}
    (first : w.queue = .init request info :: rest) (queue : w'.queue = rest)
    (tasks : w'.tasks = w.tasks ++ [entry])
    (made : (entry.request, entry.task.taskInfo) = (request, info)) : w'.pairs.Perm w.pairs := by
  have before : w.queue.filterMap Message.pair? = (request, info) :: rest.filterMap Message.pair? := by
    rw [first]
    rfl
  rw [Service.pairs, Service.pairs, queue, tasks, before, List.map_append, ← List.append_assoc]
  simp only [List.map_cons, List.map_nil, made, List.cons_append]
  exact List.perm_append_singleton _ _

theorem pairs_prepared {request info : TaskInfo κ} (queue : w'.queue = w.queue ++ [.init request info])
    (tasks : w'.tasks = w.tasks) : w'.pairs.Perm ((request, info) :: w.pairs) := by
  have after : w'.queue.filterMap Message.pair? = w.queue.filterMap Message.pair? ++ [(request, info)] := by
    rw [queue, List.filterMap_append]
    rfl
  rw [Service.pairs, after, tasks, List.append_assoc]
  exact List.perm_middle

theorem accepted_prepared {i : Nat} {request info : TaskInfo κ} (waiting : w.inits[i]? = some request)
    (inits : w'.inits = w.inits.eraseIdx i) (queue : w'.queue = w.queue ++ [.init request info])
    (tasks : w'.tasks = w.tasks) : w'.accepted.Perm w.accepted := by
  obtain ⟨bound, same⟩ := List.getElem?_eq_some_iff.mp waiting
  have pairs := (pairs_prepared queue tasks).map Prod.fst
  have erased := List.getElem_cons_eraseIdx_perm bound
  rw [same] at erased
  rw [Service.accepted, inits]
  apply (pairs.append_left _).trans
  rw [List.map_cons]
  exact List.perm_middle.trans (erased.append_right _)

theorem pairs_posted {k : Nat} {posted : List Int}
    (queue : w'.queue = w.queue ++ posted.map (.downloading k)) :
    w'.queue.filterMap Message.pair? = w.queue.filterMap Message.pair? := by
  have nothing : (posted.map (Message.downloading (κ := κ) k)).filterMap Message.pair? = [] := by
    apply List.filterMap_eq_nil_iff.mpr
    intro message member
    obtain ⟨progress, -, rfl⟩ := List.mem_map.mp member
    rfl
  rw [queue, List.filterMap_append, nothing, List.append_nil]

/-- A transfer that succeeds is prepared. -/
theorem not_notPrepared {event : ServiceEvent κ} {i : Nat} {request : TaskInfo κ}
    (succeeding : Succeeding resource w event) (waiting : w.inits[i]? = some request)
    (ended : event = .initFails i ∨ ∃ code contentLength directory header,
      event = .initThread i code contentLength directory header ∧
        InitThread.run request code contentLength directory header = none) : False := by
  rcases ended with rfl | ⟨code, contentLength, directory, header, rfl, refused⟩
  · exact succeeding
  · have answer := succeeding request waiting
    simp [InitThread.run, answer.1, answer.2.1] at refused

/-- What a step does to the requests: one that finds no task of its URL is accepted, one that
finds a task is merged with its request, and no other step loses one. -/
inductive Accounts (w w' : Service κ) : ServiceEvent κ → Prop
  | accepted (info : TaskInfo κ) (accepted : w'.accepted.Perm (info :: w.accepted)) (merged : w'.merged = w.merged) :
      Accounts w w' (.download info)
  | merged (info kept : TaskInfo κ) (url : info.url = kept.url) (present : kept ∈ w.accepted)
      (accepted : w'.accepted.Perm w.accepted) (merged : w'.merged = w.merged ++ [(info, kept)]) :
      Accounts w w' (.download info)
  | kept (event : ServiceEvent κ) (caller : ∀ info, event ≠ .download info)
      (accepted : w'.accepted.Perm w.accepted) (merged : w'.merged = w.merged) : Accounts w w' event

theorem accepted_congr (inits : w'.inits = w.inits) (pairs : w'.pairs = w.pairs) :
    w'.accepted.Perm w.accepted := by
  rw [Service.accepted, inits, pairs, Service.accepted]

/-- A message that announces no task leaves the requests as they are. -/
theorem accounts_handled {message : Message κ} {rest : List (Message κ)} (first : w.queue = message :: rest)
    (other : message.pair? = none) (queue : w'.queue = rest) (inits : w'.inits = w.inits)
    (tasks : (w'.tasks.map fun entry => (entry.request, entry.task.taskInfo)) =
      w.tasks.map fun entry => (entry.request, entry.task.taskInfo)) (merged : w'.merged = w.merged) :
    Accounts w w' .dispatch := by
  have pairs : w'.pairs = w.pairs := Service.pairs_congr (queue ▸ pairs_handled first other) tasks
  exact .kept _ (by simp) (accepted_congr inits pairs) merged

theorem accounted {event : ServiceEvent κ} (serving : Serving resource w)
    (succeeding : Succeeding resource w event)
    (stepped : Stepped w event w') : Accounts w w' event := by
  cases stepped with
  | restarted info k entry found paused =>
    obtain ⟨thread, fetched⟩ := serving.tasks k entry (Service.of_find? found).1
    simp [fetched.running] at paused
  | ignored info k entry found unpaused =>
    have first := Service.of_find? found
    have member := accepted_of_member first.1
    have url := (serving.prepared _ member.1).1.url
    exact .merged info entry.request (first.2.2.symm.trans url) member.2 (.refl _) rfl
  | requested info absent =>
    refine .accepted info ?_ rfl
    change ((w.inits ++ [info]) ++ w.pairs.map Prod.fst).Perm (info :: (w.inits ++ w.pairs.map Prod.fst))
    rw [List.append_assoc]
    exact List.perm_middle
  | prepared i request info code contentLength directory header waiting accepted =>
    exact .kept _ (by simp) (accepted_prepared waiting rfl rfl rfl) rfl
  | created request info rest first =>
    refine .kept _ (by simp) (List.Perm.append_left w.inits (List.Perm.map Prod.fst ?_)) rfl
    exact pairs_created first rfl rfl rfl
  | completed k progress rest entry first present called full =>
    exact accounts_handled first rfl rfl rfl (map_set_eq present rfl) rfl
  | progressed k progress rest first unfinished => exact accounts_handled first rfl rfl rfl rfl rfl
  | unlisted url rest k entry first found =>
    exact accounts_handled first rfl rfl rfl (map_set_eq (Service.of_find? found).1 rfl) rfl
  | unlistedNothing url rest first absent => exact accounts_handled first rfl rfl rfl rfl rfl
  | bindSuccess rest first => exact accounts_handled first rfl rfl rfl rfl rfl
  | broadcast i url sent =>
    refine .kept _ (by simp) (accepted_congr rfl (Service.pairs_congr ?_ rfl)) rfl
    simp [Message.pair?]
  | ran k i event entry thread thread' action outcome present started ran performed =>
    refine .kept _ (by simp) (accepted_congr rfl (Service.pairs_congr (pairs_posted rfl) ?_)) rfl
    exact map_set_eq present (congrArg (Prod.mk entry.request) performed.taskInfo)
  | notPrepared event i request waiting ended => exact (not_notPrepared succeeding waiting ended).elim
  | _ => exact succeeding.elim

theorem accepted_kept {event : ServiceEvent κ} {request : TaskInfo κ} (serving : Serving resource w)
    (succeeding : Succeeding resource w event) (stepped : Stepped w event w')
    (member : request ∈ w.accepted) :
    request ∈ w'.accepted := by
  cases accounted serving succeeding stepped with
  | accepted info accepted => exact accepted.mem_iff.mpr (List.mem_cons_of_mem _ member)
  | merged info kept url present accepted => exact accepted.mem_iff.mpr member
  | kept event caller accepted => exact accepted.mem_iff.mpr member

theorem Service.Exclusive.mono {info : TaskInfo κ} (exclusive : w'.Exclusive info)
    (pairs : ∀ pair ∈ w.pairs, pair ∈ w'.pairs) : w.Exclusive info :=
  fun pair member => exclusive pair (pairs pair member)

/-- Tasks that share an exclusive file have one URL, and it is exclusive for all of them. -/
theorem Service.Exclusive.shared {info : TaskInfo κ} {pair : TaskInfo κ × TaskInfo κ}
    (exclusive : w.Exclusive info)
    (member : pair ∈ w.pairs) (same : pair.2.file = info.file) :
    pair.2.url = info.url ∧ w.Exclusive pair.2 := by
  have url := exclusive pair member same
  refine ⟨url, ?_⟩
  intro other present file
  exact (exclusive other present (file.trans same)).trans url.symm

theorem Serving.next {event : ServiceEvent κ} (serving : Serving resource w)
    (succeeding : Succeeding resource w event)
    (stepped : Stepped w event w')
    (rows : ∀ row ∈ w'.rows, row.start = 0 ∧ row.end_ = (resource row.url).length ∧ row.finished = 0)
    (prepared : ∀ pair ∈ w'.pairs, Prepared resource pair.1 pair.2 ∧
      (w'.Exclusive pair.2 → (w'.disk pair.2.file).length = (resource pair.2.url).length))
    (tasks : ∀ k entry, w'.tasks[k]? = some entry → ∃ thread, Fetched resource w' k entry thread) :
    Serving resource w' := by
  refine ⟨tidy_step serving.tidy stepped, ?_, rows, prepared, tasks, ?_⟩
  · intro request member
    cases accounted serving succeeding stepped with
    | accepted info accepted =>
      rcases List.mem_cons.mp (accepted.mem_iff.mp member) with rfl | old
      · exact succeeding
      · exact serving.callbacks request old
    | merged info kept url present accepted => exact serving.callbacks request (accepted.mem_iff.mp member)
    | kept event caller accepted => exact serving.callbacks request (accepted.mem_iff.mp member)
  · intro pair member
    have earlier : pair ∈ w.merged → pair.1.url = pair.2.url ∧ pair.2 ∈ w'.accepted := fun old =>
      ⟨(serving.merged pair old).1, accepted_kept serving succeeding stepped (serving.merged pair old).2⟩
    cases accounted serving succeeding stepped with
    | accepted info accepted merged => exact earlier (merged ▸ member)
    | merged info kept url present accepted merged =>
      rw [merged] at member
      rcases List.mem_append.mp member with old | new
      · exact earlier old
      · rw [List.mem_singleton.mp new]
        exact ⟨url, accepted_kept serving succeeding stepped present⟩
    | kept event caller accepted merged => exact earlier (merged ▸ member)

theorem Serving.prepared_of_perm (serving : Serving resource w) (pairs : w'.pairs.Perm w.pairs)
    (disk : w'.disk = w.disk) : ∀ pair ∈ w'.pairs, Prepared resource pair.1 pair.2 ∧
      (w'.Exclusive pair.2 → (w'.disk pair.2.file).length = (resource pair.2.url).length) := by
  intro pair member
  have old := serving.prepared pair (pairs.mem_iff.mp member)
  refine ⟨old.1, ?_⟩
  intro exclusive
  rw [disk]
  exact old.2 (exclusive.mono fun _ => pairs.mem_iff.mpr)

/-- Every task has a callback. -/
theorem Serving.callback (serving : Serving resource w) {k : Nat} {entry : Entry κ}
    (present : w.tasks[k]? = some entry) : entry.task.taskInfo.download.isSome := by
  have member := accepted_of_member present
  have same := (serving.prepared _ member.1).1.callback
  rw [same]
  exact serving.callbacks _ member.2

/-- A task that does not change, while the files do not and no completion of it is handled. -/
theorem Serving.untouched (serving : Serving resource w) {k : Nat} {entry : Entry κ}
    (present : w.tasks[k]? = some entry)
    (pairs : w'.pairs.Perm w.pairs) (disk : w'.disk = w.disk)
    (queue : ∀ progress, 100 ≤ progress → Message.downloading k progress ∈ w.queue →
      Message.downloading k progress ∈ w'.queue) : ∃ thread, Fetched resource w' k entry thread := by
  obtain ⟨thread, fetched⟩ := serving.tasks k entry present
  refine ⟨thread, fetched.frame ?_ ?_ queue⟩
  · exact fun exclusive => exclusive.mono fun _ => pairs.mem_iff.mpr
  · intro _ inFile
    rw [disk]
    exact inFile

theorem fetches_queued {info : ThreadInfo} (start : info.start = 0) (end_ : info.end_ = source.length)
    (finished : info.finished = 0) :
    Fetches source ⟨info, .queued⟩ ∧
      ∀ file : List UInt8, file.length = source.length → InFile source ⟨info, .queued⟩ file := by
  have fetches : Fetches source ⟨info, .queued⟩ := ⟨start, end_, by simp, fun _ => finished, by simp⟩
  refine ⟨fetches, ?_⟩
  intro file length
  refine ⟨length, sound_of_nothing start.ge finished ?_, trivial⟩
  have stop : info.stop source = source.length := fetches.stop
  rw [start, stop]
  omega

/-- Handling a message leaves the other completions in the queue. -/
theorem posted_of_handled {message : Message κ} {rest : List (Message κ)} {k : Nat}
    (first : w.queue = message :: rest)
    (other : ∀ progress, 100 ≤ progress → message ≠ .downloading k progress) :
    ∀ progress, 100 ≤ progress → Message.downloading k progress ∈ w.queue → Message.downloading k progress ∈ rest := by
  intro progress full posted
  rw [first] at posted
  exact (List.mem_cons.mp posted).resolve_left (other progress full).symm

theorem serving_prepared {i : Nat} {request info : TaskInfo κ} {code contentLength : Int}
    {directory header : String}
    (serving : Serving resource w)
    (succeeding : Succeeding resource w (.initThread i code contentLength directory header))
    (stepped : Stepped w (.initThread i code contentLength directory header) w')
    (waiting : w.inits[i]? = some request)
    (accepted : InitThread.run request code contentLength directory header = some info)
    (queue : w'.queue = w.queue ++ [.init request info]) (tasks : w'.tasks = w.tasks)
    (rows : w'.rows = w.rows)
    (disk : w'.disk = Function.update w.disk info.file (setLength 0 (w.disk info.file) info.lenght.toNat)) :
    Serving resource w' := by
  have answer := succeeding request waiting
  have prepared := prepared_of_run accepted answer.2.2.1 answer.2.2.2
  have pairs := pairs_prepared queue tasks
  have older : ∀ pair ∈ w.pairs, pair ∈ w'.pairs := fun _ member => pairs.mem_iff.mpr (List.mem_cons_of_mem _ member)
  have new : (request, info) ∈ w'.pairs := pairs.mem_iff.mpr List.mem_cons_self
  have length : info.lenght.toNat = (resource info.url).length := by
    rw [prepared.length]
    rfl
  apply serving.next succeeding stepped
  · rw [rows]
    exact serving.rows
  · intro pair member
    rcases List.mem_cons.mp (pairs.mem_iff.mp member) with rfl | old
    · refine ⟨prepared, ?_⟩
      intro _
      rw [disk, Function.update_self, length_setLength, length]
    · have before := serving.prepared pair old
      refine ⟨before.1, ?_⟩
      intro exclusive
      rw [disk]
      by_cases same : info.file = pair.2.file
      · have url := (exclusive.shared new same).1
        rw [← same, Function.update_self, length_setLength, length, url]
      · rw [Function.update_of_ne (Ne.symm same)]
        exact before.2 (exclusive.mono older)
  · intro k entry present
    rw [tasks] at present
    obtain ⟨thread, fetched⟩ := serving.tasks k entry present
    refine ⟨thread, fetched.frame (fun exclusive => exclusive.mono older) ?_ ?_⟩
    · intro exclusive inFile
      rw [disk]
      by_cases same : info.file = entry.task.taskInfo.file
      · have url := (exclusive.shared new same).1
        have kept : setLength 0 (w.disk info.file) info.lenght.toNat = w.disk info.file := by
          rw [length, url, ← inFile.length, ← same]
          exact setLength_self 0 _
        rw [← same, Function.update_self, kept, same]
        exact inFile
      · rw [Function.update_of_ne (Ne.symm same)]
        exact inFile
    · intro progress full posted
      rw [queue]
      exact List.mem_append_left _ posted

theorem serving_created {request info : TaskInfo κ} {rest : List (Message κ)} (serving : Serving resource w)
    (stepped : Stepped w .dispatch w') (first : w.queue = .init request info :: rest)
    (queue : w'.queue = rest)
    (tasks : w'.tasks = w.tasks ++ [{ request, task := ((DownloadTask.create info 1).downlaod w.rows).1 }])
    (rows : w'.rows = ((DownloadTask.create info 1).downlaod w.rows).2) (disk : w'.disk = w.disk) :
    Serving resource w' := by
  have pairs : w'.pairs.Perm w.pairs := pairs_created first queue tasks rfl
  have announced : (request, info) ∈ w.pairs :=
    List.mem_append_left _ (List.mem_filterMap.mpr ⟨.init request info, by rw [first]; exact List.mem_cons_self, rfl⟩)
  have prepared := serving.prepared _ announced
  obtain ⟨segment, url, only, started, kept⟩ :=
    downlaod_single (DownloadTask.tidy_create prepared.1.positive) serving.tidy.rows
  have whole : segment.start = 0 ∧ segment.end_ = (resource segment.url).length ∧ segment.finished = 0 := by
    rcases kept with ⟨stored, -⟩ | ⟨-, -, new⟩
    · exact serving.rows segment stored
    · rw [new]
      exact ⟨rfl, prepared.1.length, rfl⟩
  have queued := fetches_queued whole.1 (url ▸ whole.2.1) whole.2.2
  have succeeding : Succeeding resource w .dispatch := trivial
  apply serving.next succeeding stepped
  · intro row member
    rw [rows] at member
    rcases kept with ⟨-, same⟩ | ⟨-, inserted, -⟩
    · exact serving.rows row (same ▸ member)
    · rw [inserted] at member
      rcases List.mem_append.mp member with old | new
      · exact serving.rows row old
      · rw [List.mem_singleton.mp new]
        exact whole
  · exact serving.prepared_of_perm pairs disk
  · intro k entry present
    rw [tasks, started] at present
    rcases mem_append_cases present with old | ⟨rfl, rfl⟩
    · apply serving.untouched old pairs disk
      rw [queue]
      exact posted_of_handled first (by simp)
    · refine ⟨⟨segment, .queued⟩, rfl, rfl, queued.1, fun old length => queued.2 old length, ?_, by simp⟩
      intro exclusive
      apply queued.2
      rw [disk]
      exact prepared.2 (exclusive.mono fun _ => pairs.mem_iff.mpr)

section
variable {k i : Nat} {event : ThreadEvent} {entry : Entry κ} {thread thread' : DownloadThread}
  {action : Action} {outcome : DownloadTask.Outcome κ}

theorem Fetched.single (fetched : Fetched resource w k entry thread)
    (started : entry.task.threads[i]? = some thread') : i = 0 ∧ thread' = thread := by
  rw [fetched.alone, List.getElem?_singleton, Option.ite_none_right_eq_some] at started
  exact ⟨started.1, (Option.some.inj started.2).symm⟩

/-- Any file the task is writing is that of its thread after a step too, and only gains bytes. -/
theorem Fetched.moves (fetched : Fetched resource w k entry thread)
    (prepared : Prepared resource entry.request entry.task.taskInfo)
    (delivered : Delivered (resource entry.task.taskInfo.url) thread event)
    (ran : Ran entry.task.isPause thread.threadInfo thread.phase event thread' action) (file : List UInt8)
    (inFile : InFile (resource entry.task.taskInfo.url) thread file) :
    InFile (resource entry.task.taskInfo.url) thread' (action.onFile file) ∧
      Keeps (resource entry.task.taskInfo.url) file (action.onFile file) := by
  rw [fetched.running] at ran
  have all := fetches_ran (prepared.length ▸ prepared.small) fetched.fetches inFile delivered ran
  exact ⟨all.2.1, all.2.2.1⟩

/-- The task of the thread that takes the step. -/
theorem Fetched.ran (fetched : Fetched resource w k entry thread) (tidy : entry.task.Tidy)
    (prepared : Prepared resource entry.request entry.task.taskInfo)
    (delivered : Delivered (resource entry.task.taskInfo.url) thread event)
    (ran : Ran entry.task.isPause thread.threadInfo thread.phase event thread' action)
    (performed : Performed floatProgress entry.task w.rows (w.disk entry.task.taskInfo.file) 0 thread' action outcome)
    (exclusive : w'.Exclusive entry.task.taskInfo → w.Exclusive entry.task.taskInfo)
    (disk : w'.disk = Function.update w.disk entry.task.taskInfo.file outcome.file)
    (queue : w'.queue = w.queue ++ outcome.posted.toList.map (.downloading k)) :
    Fetched resource w' k { entry with
      task := outcome.task, writes := entry.writes ++ outcome.written.toList } thread' := by
  have moves := fetched.moves prepared delivered ran
  have runs : Ran false thread.threadInfo thread.phase event thread' action := fetched.running ▸ ran
  have all := fetches_ran (prepared.length ▸ prepared.small) fetched.fetches (fetched.replayed _ rfl) delivered runs
  refine ⟨performed.isPause.trans fetched.running, ?_, ?_, ?_, ?_, ?_⟩
  · simp only [performed.threads, fetched.alone, List.set_cons_zero]
  · simp only [performed.taskInfo]
    exact all.1
  · intro old length
    simp only [performed.taskInfo, performed.written, replay_action] at length ⊢
    exact (moves _ (fetched.replayed old length)).1
  · intro own
    simp only [performed.taskInfo] at own ⊢
    rw [disk, Function.update_self, performed.file]
    exact (moves _ (fetched.onDisk (exclusive own))).1
  · intro ended
    have only := fetched.alone ▸ List.mem_singleton_self thread
    have info := only_of_ran runs (tidy.threads thread only).1
    have counted := all.1.counted (Or.inr ended)
    have full := le_floatProgress_of_le prepared.positive (counted.trans prepared.length.symm).ge
    refine Or.inr ⟨_, full, ?_⟩
    rw [queue, performed.posted, if_pos (all.2.2.2.2 ended), tidy.posted info.1]
    simp

theorem serving_ran (serving : Serving resource w) (succeeding : Succeeding resource w (.thread k i event))
    (stepped : Stepped w (.thread k i event) w') (present : w.tasks[k]? = some entry)
    (started : entry.task.threads[i]? = some thread)
    (ran : Ran entry.task.isPause thread.threadInfo thread.phase event thread' action)
    (performed : Performed floatProgress entry.task w.rows (w.disk entry.task.taskInfo.file) i thread' action outcome)
    (tasks : w'.tasks = w.tasks.set k { entry with
      task := outcome.task, writes := entry.writes ++ outcome.written.toList })
    (rows : w'.rows = outcome.rows)
    (disk : w'.disk = Function.update w.disk entry.task.taskInfo.file outcome.file)
    (queue : w'.queue = w.queue ++ outcome.posted.toList.map (.downloading k)) : Serving resource w' := by
  have delivered := succeeding entry present thread started
  have pair := (accepted_of_member present).1
  have prepared := (serving.prepared _ pair).1
  obtain ⟨only, fetched⟩ := serving.tasks k entry present
  obtain ⟨rfl, rfl⟩ := fetched.single started
  have moves := fetched.moves prepared delivered ran
  have pairs : w'.pairs.Perm w.pairs := by
    have same : w'.pairs = w.pairs := Service.pairs_congr (pairs_posted queue)
      (tasks ▸ map_set_eq present (congrArg (Prod.mk entry.request) performed.taskInfo))
    rw [same]
  -- What becomes of a file that no other URL uses.
  have shared : ∀ info, w'.Exclusive info → entry.task.taskInfo.file = info.file →
      entry.task.taskInfo.url = info.url ∧ w.Exclusive entry.task.taskInfo := by
    intro info exclusive same
    have both := exclusive.shared (pairs.mem_iff.mpr pair) same
    exact ⟨both.1, both.2.mono fun _ => pairs.mem_iff.mpr⟩
  apply serving.next succeeding stepped
  · have saves : action ≠ .updateThread :=
      (fetches_ran (prepared.length ▸ prepared.small) fetched.fetches (fetched.replayed _ rfl) delivered
        (fetched.running ▸ ran)).2.2.2.1
    rw [rows, performed.rows, if_neg saves]
    exact serving.rows
  · intro pair' member
    have old := serving.prepared pair' (pairs.mem_iff.mp member)
    refine ⟨old.1, ?_⟩
    intro exclusive
    rw [disk]
    by_cases same : entry.task.taskInfo.file = pair'.2.file
    · have both := shared pair'.2 exclusive same
      rw [← same, Function.update_self, performed.file, (moves _ (fetched.onDisk both.2)).1.length, both.1]
    · rw [Function.update_of_ne (Ne.symm same)]
      exact old.2 (exclusive.mono fun _ => pairs.mem_iff.mpr)
  · intro j other found
    rw [tasks] at found
    rcases mem_set_cases found with ⟨rfl, rfl⟩ | ⟨different, found'⟩
    · exact ⟨thread', fetched.ran (serving.tidy.task present) prepared delivered ran performed
        (fun exclusive => (shared _ exclusive rfl).2) disk queue⟩
    · obtain ⟨thread'', fetched'⟩ := serving.tasks j other found'
      refine ⟨thread'', fetched'.frame (fun exclusive => exclusive.mono fun _ => pairs.mem_iff.mpr) ?_ ?_⟩
      · intro exclusive inFile
        rw [disk]
        by_cases same : entry.task.taskInfo.file = other.task.taskInfo.file
        · have both := shared _ exclusive same
          have moved := moves _ (fetched.onDisk both.2)
          rw [← same, Function.update_self, performed.file]
          rw [both.1, same] at moved
          rw [same]
          exact ⟨moved.1.length, inFile.sound.mono moved.2⟩
        · rw [Function.update_of_ne (Ne.symm same)]
          exact inFile
      · intro progress full posted
        rw [queue]
        exact List.mem_append_left _ posted

end

/-- A message that announces no task leaves the files and the requests as they are. -/
theorem Serving.handled {message : Message κ} {rest : List (Message κ)} (serving : Serving resource w)
    (stepped : Stepped w .dispatch w') (first : w.queue = message :: rest) (other : message.pair? = none)
    (queue : w'.queue = rest) (tasks : (w'.tasks.map fun entry => (entry.request, entry.task.taskInfo)) =
      w.tasks.map fun entry => (entry.request, entry.task.taskInfo))
    (disk : w'.disk = w.disk) (rows : ∀ row ∈ w'.rows, row ∈ w.rows)
    (entries : w'.pairs.Perm w.pairs → ∀ k entry, w'.tasks[k]? = some entry →
      ∃ thread, Fetched resource w' k entry thread) : Serving resource w' := by
  have pairs : w'.pairs = w.pairs := Service.pairs_congr (queue ▸ pairs_handled first other) tasks
  have succeeding : Succeeding resource w .dispatch := trivial
  apply serving.next succeeding stepped
  · exact fun row member => serving.rows row (rows row member)
  · exact serving.prepared_of_perm (.of_eq pairs) disk
  · exact entries (.of_eq pairs)

theorem serving_broadcast {i : Nat} {url : String} (serving : Serving resource w)
    (stepped : Stepped w (.broadcast i) w') (queue : w'.queue = w.queue ++ [.downloadFinished url])
    (tasks : w'.tasks = w.tasks) (rows : w'.rows = w.rows) (disk : w'.disk = w.disk) :
    Serving resource w' := by
  have messages : w'.queue.filterMap Message.pair? = w.queue.filterMap Message.pair? := by
    simp [queue, Message.pair?]
  have pairs : w'.pairs = w.pairs := Service.pairs_congr messages (by rw [tasks])
  have succeeding : Succeeding resource w (.broadcast i) := trivial
  apply serving.next succeeding stepped
  · exact rows ▸ serving.rows
  · exact serving.prepared_of_perm (.of_eq pairs) disk
  · intro k entry present
    rw [tasks] at present
    apply serving.untouched present (.of_eq pairs) disk
    intro progress full posted
    rw [queue]
    exact List.mem_append_left _ posted

theorem serving_step {event : ServiceEvent κ} (serving : Serving resource w)
    (succeeding : Succeeding resource w event)
    (stepped : Stepped w event w') : Serving resource w' := by
  have next := serving.next succeeding stepped
  cases stepped with
  | restarted info k entry found paused =>
    obtain ⟨thread, fetched⟩ := serving.tasks k entry (Service.of_find? found).1
    simp [fetched.running] at paused
  | prepared i request info code contentLength directory header waiting accepted =>
    exact serving_prepared serving succeeding (.prepared _ _ _ _ _ _ _ waiting accepted) waiting accepted rfl rfl rfl rfl
  | notPrepared event i request waiting ended => exact (not_notPrepared succeeding waiting ended).elim
  | created request info rest first =>
    exact serving_created serving (.created _ _ _ first) first rfl rfl rfl rfl
  | ran k i event entry thread thread' action outcome present started ran performed =>
    exact serving_ran serving succeeding (.ran _ _ _ _ _ _ _ _ present started ran performed) present started ran
      performed rfl rfl rfl rfl
  | completed k progress rest entry first present called full =>
    refine serving.handled (.completed _ _ _ _ first present called full) first rfl rfl (map_set_eq present rfl) rfl
      (fun row member => (List.mem_filter.mp member).1) ?_
    intro pairs j other found
    rcases mem_set_cases found with ⟨rfl, rfl⟩ | ⟨different, old⟩
    · obtain ⟨thread, fetched⟩ := serving.tasks j entry present
      refine ⟨thread, fetched.running, fetched.alone, fetched.fetches, fetched.replayed, ?_, ?_⟩
      · exact fun exclusive => fetched.onDisk (exclusive.mono fun _ => pairs.mem_iff.mpr)
      · exact fun _ => Or.inl (Nat.succ_pos _)
    · apply serving.untouched old pairs rfl
      apply posted_of_handled first
      intro progress' full' same
      cases same
      exact different rfl
  | progressed k progress rest first unfinished =>
    refine serving.handled (.progressed _ _ _ first unfinished) first rfl rfl rfl rfl (fun row member => member) ?_
    intro pairs j entry present
    apply serving.untouched present pairs rfl
    apply posted_of_handled first
    intro progress' full same
    cases same
    have below := unfinished entry present (serving.callback present)
    omega
  | unlisted url rest k entry first found =>
    have present := (Service.of_find? found).1
    refine serving.handled (.unlisted _ _ _ _ first found) first rfl rfl (map_set_eq present rfl) rfl
      (fun row member => member) ?_
    intro pairs j other found'
    rcases mem_set_cases found' with ⟨rfl, rfl⟩ | ⟨different, old⟩
    · obtain ⟨thread, fetched⟩ := serving.untouched present pairs rfl (posted_of_handled first (by simp))
      exact ⟨thread, fetched.running, fetched.alone, fetched.fetches, fetched.replayed, fetched.onDisk, fetched.notified⟩
    · exact serving.untouched old pairs rfl (posted_of_handled first (by simp))
  | unlistedNothing url rest first absent =>
    refine serving.handled (.unlistedNothing _ _ first absent) first rfl rfl rfl rfl (fun row member => member) ?_
    intro pairs j entry present
    exact serving.untouched present pairs rfl (posted_of_handled first (by simp))
  | bindSuccess rest first =>
    refine serving.handled (.bindSuccess _ first) first rfl rfl rfl rfl (fun row member => member) ?_
    intro pairs j entry present
    exact serving.untouched present pairs rfl (posted_of_handled first (by simp))
  | broadcast i url sent => exact serving_broadcast serving (.broadcast _ _ sent) rfl rfl rfl rfl
  | ignored info k entry found unpaused =>
    apply next serving.rows serving.prepared
    exact fun j other present => serving.untouched present (.refl _) rfl fun _ _ posted => posted
  | requested info absent =>
    apply next serving.rows serving.prepared
    exact fun j other present => serving.untouched present (.refl _) rfl fun _ _ posted => posted
  | _ => exact succeeding.elim

end AdTerminal.Download
