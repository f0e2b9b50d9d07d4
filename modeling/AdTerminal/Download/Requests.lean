import AdTerminal.Download.DownloadManager
import AdTerminal.Download.Served
import Mathlib.Tactic.Abel

/-! The requests of the manager. When every transfer succeeds and nothing remains to be
done, each call of `startDownload` either has its own task, whose file is written and whose
callback has been called, or was left out because a task of its URL was listed then. A task
stays listed after its end, until a message that follows a broadcast is handled. -/

namespace AdTerminal.Download
open Transition

variable {κ : Type} {resource : String → List UInt8} {m m' : Manager κ} {w : Service κ}

/-- Every call has a callback, and every transfer succeeds. -/
def Succeeds (resource : String → List UInt8) (m : Manager κ) : ManagerEvent κ → Prop
  | .startDownload _ _ _ download => download.isSome
  | .pauseDownload _ => False
  | .connected => True
  | .service event => Succeeding resource m.service event

/-- Nothing remains to be done: no pending request, no runnable, no message and no broadcast. -/
def Quiescent (m : Manager κ) : Prop :=
  m.mListTask = [] ∧ m.service.inits = [] ∧ m.service.queue = [] ∧ m.service.broadcasts = [] ∧
    ∀ entry ∈ m.service.tasks, ∀ thread ∈ entry.task.threads, ¬ thread.Live

/-- The task of a request is done: whatever was in its own file before, its writes make it
the resource, the file on disk is the resource unless it is that of another URL, too, and
its own callback has been called. -/
structure Served (resource : String → List UInt8) (w : Service κ) (entry : Entry κ) : Prop where
  prepared : Prepared resource entry.request entry.task.taskInfo
  written : ∀ old, old.length = (resource entry.request.url).length →
    replay old entry.writes = resource entry.request.url
  onDisk : w.Exclusive entry.task.taskInfo → w.disk entry.task.taskInfo.file = resource entry.request.url
  notified : 0 < entry.completions

/-- Each call has a task of its own, and every task is done. -/
structure AllServed (resource : String → List UInt8) (m : Manager κ) : Prop where
  accounted : m.requested.Perm (m.service.tasks.map fun entry => entry.request)
  served : ∀ entry ∈ m.service.tasks, Served resource m.service entry

/-- A call that is passed to the service finds no task of its URL in the list, neither one that is
still being downloaded nor a finished one. -/
def Apart (m : Manager κ) : ManagerEvent κ → Prop
  | .startDownload url _ _ _ => url ≠ "" → m.bound = true →
      ∀ entry ∈ m.service.tasks, entry.listed = true → entry.task.taskInfo.url ≠ url
  | _ => True

/-- The calls are the requests of the tasks and the merged ones. Every task is done, and a
merged call was merged with a request of its URL that has a task. -/
structure ServedOrMerged (resource : String → List UInt8) (m : Manager κ) : Prop where
  accounted : m.requested.Perm
    ((m.service.tasks.map fun entry => entry.request) ++ (m.merged ++ m.service.merged).map Prod.fst)
  served : ∀ entry ∈ m.service.tasks, Served resource m.service entry
  merged : ∀ pair ∈ m.merged ++ m.service.merged, pair.1.url = pair.2.url ∧
    ∃ entry ∈ m.service.tasks, entry.request = pair.2

/-- The invariant of the manager. A permit is only lost while a request is pending, and
pending requests are passed on before the service makes its first task. -/
structure Managing (resource : String → List UInt8) (m : Manager κ) : Prop where
  serving : Serving resource m.service
  callbacks : ∀ info ∈ m.mListTask, info.download.isSome
  unbound : m.bound = false → m.service.tasks = [] ∧ m.service.inits = [] ∧ m.service.queue = [] ∧
    m.service.broadcasts = []
  passing : m.mListTask ≠ [] → m.service.tasks = [] ∧
    (m.bound = true → m.blocked = true ∨ m.service.queue.head? = some .bindSuccess)
  permit : m.permits = 0 → m.mListTask ≠ []
  waits : m.blocked = true → m.permits = 0
  accounted : m.blocked = false → (m.requested : Multiset (TaskInfo κ)) =
    m.mListTask + m.service.accepted + m.merged.map Prod.fst + m.service.merged.map Prod.fst
  merged : ∀ pair ∈ m.merged, pair.1.url = pair.2.url ∧ (pair.2 ∈ m.mListTask ∨ pair.2 ∈ m.service.accepted)

/-- A request that finds no task at all is accepted. -/
theorem download_of_no_tasks (empty : w.tasks = []) (info : TaskInfo κ) :
    w.download info = { w with inits := w.inits ++ [info] } := by
  simp [Service.download, Service.find?, empty]

theorem drain_eq (empty : w.tasks = []) (pending : List (TaskInfo κ)) :
    pending.foldr (fun info service => service.download info) w = { w with inits := w.inits ++ pending.reverse } := by
  induction pending with
  | nil => simp
  | cons info pending ih =>
    have still : Service.tasks { w with inits := w.inits ++ pending.reverse } = [] := empty
    rw [List.foldr_cons, ih, List.reverse_cons, ← List.append_assoc]
    exact download_of_no_tasks still info

/-- Pending requests that are passed on before there is a task are all accepted. -/
theorem accepted_drained {pending : List (TaskInfo κ)} (passing : pending ≠ [] → w.tasks = []) :
    ((pending.foldr (fun info service => service.download info) w).accepted : Multiset (TaskInfo κ)) =
      w.accepted + pending ∧ (pending.foldr (fun info service => service.download info) w).merged = w.merged := by
  by_cases nothing : pending = []
  · subst nothing
    simp
  · rw [drain_eq (passing nothing)]
    refine ⟨?_, rfl⟩
    change ((w.inits ++ pending.reverse ++ w.pairs.map Prod.fst : List (TaskInfo κ)) : Multiset (TaskInfo κ)) =
      ((w.inits ++ w.pairs.map Prod.fst : List (TaskInfo κ)) : Multiset (TaskInfo κ)) + pending
    simp only [← Multiset.coe_add, Multiset.coe_reverse]
    abel

theorem serving_drained (serving : Serving resource w) (pending : List (TaskInfo κ))
    (callbacks : ∀ info ∈ pending, info.download.isSome) :
    Serving resource (pending.foldr (fun info service => service.download info) w) := by
  induction pending with
  | nil => exact serving
  | cons info pending ih =>
    have rest := ih fun info member => callbacks info (List.mem_cons_of_mem _ member)
    have succeeding : Succeeding resource (pending.foldr (fun info service => service.download info) w)
        (.download info) := callbacks info List.mem_cons_self
    exact serving_step rest succeeding (stepped_of_step rfl)

/-- Posting `MSG_BIND_SUC` changes nothing for the service. -/
theorem serving_bindSuccess (serving : Serving resource w) :
    Serving resource { w with queue := w.queue ++ [.bindSuccess] } ∧
      Service.accepted { w with queue := w.queue ++ [.bindSuccess] } = w.accepted := by
  have pairs : Service.pairs { w with queue := w.queue ++ [.bindSuccess] } = w.pairs :=
    Service.pairs_congr (by simp [Message.pair?]) rfl
  have accepted : Service.accepted { w with queue := w.queue ++ [.bindSuccess] } = w.accepted :=
    congrArg (fun pairs => w.inits ++ pairs.map Prod.fst) pairs
  refine ⟨⟨?_, ?_, serving.rows, serving.prepared_of_perm (.of_eq pairs) rfl, ?_, ?_⟩, accepted⟩
  · refine ⟨serving.tidy.rows, ?_, serving.tidy.tasks⟩
    intro request info member
    exact serving.tidy.messages request info ((List.mem_append.mp member).resolve_right (by simp))
  · rw [accepted]
    exact serving.callbacks
  · intro k entry present
    exact serving.untouched present (.of_eq pairs) rfl fun _ _ posted => List.mem_append_left _ posted
  · rw [accepted]
    exact serving.merged

/-- A call that is passed on is accepted or merged by the service. -/
theorem accounted_download (serving : Serving resource w) {info : TaskInfo κ}
    (callback : info.download.isSome) :
    ((w.download info).accepted : Multiset (TaskInfo κ)) + (w.download info).merged.map Prod.fst =
      w.accepted + w.merged.map Prod.fst + {info} := by
  have stepped : Stepped w (.download info) (w.download info) := stepped_of_step rfl
  have succeeding : Succeeding resource w (.download info) := callback
  cases accounted serving succeeding stepped with
  | accepted info accepted merged =>
    rw [Multiset.coe_eq_coe.mpr accepted, merged, ← Multiset.cons_coe, ← Multiset.singleton_add]
    abel
  | merged info kept url present accepted merged =>
    rw [Multiset.coe_eq_coe.mpr accepted, merged, List.map_append, ← Multiset.coe_add]
    exact (add_assoc _ _ _).symm
  | kept event caller accepted merged => exact absurd rfl (caller info)

theorem head_posted {queue posted : List (Message κ)} {message : Message κ}
    (head : queue.head? = some message) :
    (queue ++ posted).head? = some message := by
  rw [List.head?_append, head]
  rfl

/-- The service only takes steps of its own once it is bound. -/
theorem bound_of_followed {event : ServiceEvent κ} {service : Service κ} (managing : Managing resource m)
    (succeeding : Succeeding resource m.service event) (stepped : Stepped m.service event service)
    (caller : ∀ info, event ≠ .download info) : m.bound = true := by
  by_contra unbound
  obtain ⟨no_task, no_init, no_message, no_broadcast⟩ := managing.unbound (Bool.eq_false_iff.mpr unbound)
  cases stepped with
  | restarted info => exact caller info rfl
  | ignored info => exact caller info rfl
  | requested info => exact caller info rfl
  | prepared i request info code contentLength directory header waiting => simp [no_init] at waiting
  | notPrepared event i request waiting => simp [no_init] at waiting
  | created request info rest first => simp [no_message] at first
  | completed k progress rest entry first => simp [no_message] at first
  | progressed k progress rest first => simp [no_message] at first
  | unlisted url rest k entry first => simp [no_message] at first
  | unlistedNothing url rest first => simp [no_message] at first
  | bindSuccess rest first => simp [no_message] at first
  | broadcast i url sent => simp [no_broadcast] at sent
  | ran k i event entry thread thread' action outcome present => simp [no_task] at present
  | _ => exact succeeding

/-- While requests are pending, no step of the service makes a task. -/
theorem passing_followed {event : ServiceEvent κ} {service : Service κ}
    (succeeding : Succeeding resource m.service event) (stepped : Stepped m.service event service)
    (running : m.blocked = true → event.onMainThread = false) (caller : ∀ info, event ≠ .download info)
    (message : event = .dispatch → m.service.queue.head? ≠ some .bindSuccess)
    (no_task : m.service.tasks = []) (queued : m.blocked = true ∨ m.service.queue.head? = some .bindSuccess) :
    service.tasks = [] ∧ (m.blocked = true ∨ service.queue.head? = some .bindSuccess) := by
  have not_dispatch : event ≠ .dispatch := by
    intro same
    rcases queued with blocked | head
    · have elsewhere := running blocked
      simp [same, ServiceEvent.onMainThread] at elsewhere
    · exact message same head
  cases stepped with
  | restarted info => exact absurd rfl (caller info)
  | ignored info => exact absurd rfl (caller info)
  | requested info => exact absurd rfl (caller info)
  | prepared => exact ⟨no_task, queued.imp_right head_posted⟩
  | notPrepared => exact ⟨no_task, queued⟩
  | broadcast => exact ⟨no_task, queued.imp_right head_posted⟩
  | ran k i event entry thread thread' action outcome present => simp [no_task] at present
  | pausedTask => exact succeeding.elim
  | pausedNothing => exact succeeding.elim
  | lowMemory => exact succeeding.elim
  | killed => exact succeeding.elim
  | _ => exact absurd rfl not_dispatch

theorem managing_passedOn {info : TaskInfo κ} (managing : Managing resource m)
    (callback : info.download.isSome)
    (running : m.blocked = false) (bound : m.bound = true) :
    Managing resource { m with requested := m.requested ++ [info], service := m.service.download info } := by
  have serving := managing.serving
  have stepped : Stepped m.service (.download info) (m.service.download info) := stepped_of_step rfl
  have succeeding : Succeeding resource m.service (.download info) := callback
  refine ⟨serving_step serving succeeding stepped, managing.callbacks, ?_, ?_, managing.permit, managing.waits, ?_, ?_⟩
  · intro unbound
    exact absurd bound (Bool.eq_false_iff.mp unbound)
  · intro pending
    obtain ⟨no_task, head⟩ := managing.passing pending
    simp only [download_of_no_tasks no_task]
    exact ⟨no_task, head⟩
  · intro _
    have download := accounted_download serving callback
    have before := managing.accounted running
    rw [← Multiset.coe_add, before, Multiset.coe_singleton]
    calc (m.mListTask : Multiset (TaskInfo κ)) + m.service.accepted + m.merged.map Prod.fst +
          m.service.merged.map Prod.fst + {info}
        = m.mListTask + m.merged.map Prod.fst +
          (m.service.accepted + m.service.merged.map Prod.fst + {info}) := by abel
      _ = m.mListTask + m.merged.map Prod.fst +
          ((m.service.download info).accepted + (m.service.download info).merged.map Prod.fst) := by rw [download]
      _ = m.mListTask + (m.service.download info).accepted + m.merged.map Prod.fst +
          (m.service.download info).merged.map Prod.fst := by abel
  · intro pair member
    have old := managing.merged pair member
    exact ⟨old.1, old.2.imp_right (accepted_kept serving succeeding stepped)⟩

theorem managing_connected (managing : Managing resource m) (running : m.blocked = false) :
    Managing resource { m with connections := m.connections - 1, bound := true
                               service := { m.service with queue := m.service.queue ++ [.bindSuccess] } } := by
  have posted := serving_bindSuccess managing.serving
  refine ⟨posted.1, managing.callbacks, by simp, ?_, managing.permit, managing.waits, ?_, ?_⟩
  · intro pending
    obtain ⟨no_task, head⟩ := managing.passing pending
    refine ⟨no_task, ?_⟩
    intro _
    right
    by_cases bound : m.bound = true
    · have queued := (head bound).resolve_left (by simp [running])
      exact head_posted queued
    · have no_message := (managing.unbound (Bool.eq_false_iff.mpr bound)).2.2.1
      simp [no_message]
  · intro unblocked
    rw [posted.2]
    exact managing.accounted unblocked
  · rw [posted.2]
    exact managing.merged

/-- Passing the pending requests on loses none of them. -/
theorem managing_drained {rest : List (Message κ)} (managing : Managing resource m)
    (running : m.blocked = false)
    (first : m.service.queue = .bindSuccess :: rest) :
    Managing resource { m with permits := m.permits - 1 + 1, mListTask := []
                               service := m.mListTask.foldr (fun info service => service.download info)
                                { m.service with queue := rest } } := by
  have stepped : Stepped m.service .dispatch { m.service with queue := rest } := .bindSuccess rest first
  have succeeding : Succeeding resource m.service .dispatch := trivial
  have serving := serving_drained (serving_step managing.serving succeeding stepped) m.mListTask managing.callbacks
  have bound : m.bound = true := by
    by_contra unbound
    have no_message := (managing.unbound (Bool.eq_false_iff.mpr unbound)).2.2.1
    simp [no_message] at first
  have passing : m.mListTask ≠ [] → Service.tasks { m.service with queue := rest } = [] :=
    fun pending => (managing.passing pending).1
  obtain ⟨accepted, merged⟩ := accepted_drained passing
  have same : (Service.accepted { m.service with queue := rest }).Perm m.service.accepted := by
    cases accounted managing.serving succeeding stepped with
    | kept event caller accepted => exact accepted
  rw [Multiset.coe_eq_coe.mpr same] at accepted
  refine ⟨serving, by simp, ?_, by simp, by simp, ?_, ?_, ?_⟩
  · intro unbound
    exact absurd bound (Bool.eq_false_iff.mp unbound)
  · intro blocked
    simp [running] at blocked
  · intro _
    have before := managing.accounted running
    rw [before, accepted, merged, Multiset.coe_nil]
    abel
  · intro pair member
    have old := managing.merged pair member
    have passed : pair.2 ∈ (m.service.accepted : Multiset (TaskInfo κ)) + m.mListTask := by
      rw [Multiset.mem_add]
      exact old.2.symm
    rw [← accepted] at passed
    exact ⟨old.1, Or.inr passed⟩

/-- A call whose URL is pending counts as merged with the pending request. -/
theorem managing_leftOut {info pending : TaskInfo κ} (managing : Managing resource m) (running : m.blocked = false)
    (found : pending ∈ m.mListTask) (same : info.url = pending.url) :
    Managing resource { m with requested := m.requested ++ [info], connections := m.connections + 1
                               permits := m.permits - 1, merged := m.merged ++ [(info, pending)] } := by
  have nonempty : m.mListTask ≠ [] := List.ne_nil_of_mem found
  refine ⟨managing.serving, managing.callbacks, managing.unbound, managing.passing, fun _ => nonempty, ?_, ?_, ?_⟩
  · intro blocked
    simp [running] at blocked
  · intro _
    have before := managing.accounted running
    simp only [List.map_append, List.map_cons, List.map_nil, ← Multiset.coe_add, before]
    abel
  · intro pair member
    rcases List.mem_append.mp member with old | new
    · exact managing.merged pair old
    · rw [List.mem_singleton.mp new]
      exact ⟨same, Or.inl found⟩

theorem managing_pended {info : TaskInfo κ} (managing : Managing resource m) (callback : info.download.isSome)
    (running : m.blocked = false) (unbound : m.bound = false) :
    Managing resource { m with requested := m.requested ++ [info], connections := m.connections + 1
                               permits := m.permits - 1 + 1, mListTask := m.mListTask ++ [info] } := by
  refine ⟨managing.serving, ?_, managing.unbound, ?_, ?_, ?_, ?_, ?_⟩
  · intro info' member
    rcases List.mem_append.mp member with old | new
    · exact managing.callbacks info' old
    · rw [List.mem_singleton.mp new]
      exact callback
  · intro _
    refine ⟨(managing.unbound unbound).1, ?_⟩
    intro bound
    simp [unbound] at bound
  · intro none_left
    simp at none_left
  · intro blocked
    simp [running] at blocked
  · intro _
    have before := managing.accounted running
    simp only [← Multiset.coe_add, before]
    abel
  · intro pair member
    have old := managing.merged pair member
    exact ⟨old.1, old.2.imp_left (List.mem_append_left _)⟩

/-- A step of the service that the manager has no part in. -/
theorem managing_followed {event : ServiceEvent κ} {service : Service κ} (managing : Managing resource m)
    (succeeding : Succeeding resource m.service event) (stepped : Stepped m.service event service)
    (running : m.blocked = true → event.onMainThread = false) (caller : ∀ info, event ≠ .download info)
    (message : event = .dispatch → m.service.queue.head? ≠ some .bindSuccess) :
    Managing resource { m with service } := by
  have serving := managing.serving
  have bound := bound_of_followed managing succeeding stepped caller
  refine ⟨serving_step serving succeeding stepped, managing.callbacks, ?_, ?_, managing.permit, managing.waits, ?_, ?_⟩
  · intro unbound
    exact absurd bound (Bool.eq_false_iff.mp unbound)
  · intro pending
    obtain ⟨no_task, head⟩ := managing.passing pending
    have next := passing_followed succeeding stepped running caller message no_task (head bound)
    exact ⟨next.1, fun _ => next.2⟩
  · intro unblocked
    have before := managing.accounted unblocked
    cases accounted serving succeeding stepped with
    | accepted info => exact absurd rfl (caller info)
    | merged info => exact absurd rfl (caller info)
    | kept event caller accepted merged => rw [before, merged, Multiset.coe_eq_coe.mpr accepted]
  · intro pair member
    have old := managing.merged pair member
    exact ⟨old.1, old.2.imp_right (accepted_kept serving succeeding stepped)⟩

theorem managing_step {event : ManagerEvent κ} (managing : Managing resource m)
    (succeeds : Succeeds resource m event)
    (managed : Managed m event m') : Managing resource m' := by
  have serving := managing.serving
  cases managed with
  | empty filePath fileName download => exact managing
  | passedOn url filePath fileName download running bound => exact managing_passedOn managing succeeds running bound
  | waits url filePath fileName download running unbound permit =>
    refine ⟨serving, managing.callbacks, managing.unbound, ?_, managing.permit, fun _ => permit, by simp,
      managing.merged⟩
    intro pending
    exact ⟨(managing.passing pending).1, fun _ => Or.inl rfl⟩
  | leftOut url filePath fileName download pending running unbound permit found same =>
    exact managing_leftOut managing running found same
  | pended url filePath fileName download running unbound permit absent =>
    exact managing_pended managing succeeds running unbound
  | pauseDownload url running => exact succeeds.elim
  | connected running reported => exact managing_connected managing running
  | drained rest running first permit => exact managing_drained managing running first
  | drainWaits rest running first permit =>
    have stepped : Stepped m.service .dispatch _ := .bindSuccess rest first
    have succeeding : Succeeding resource m.service .dispatch := trivial
    refine ⟨serving_step serving succeeding stepped, managing.callbacks, ?_, ?_, managing.permit, fun _ => permit,
      by simp, ?_⟩
    · intro unbound
      have no_message := (managing.unbound unbound).2.2.1
      simp [no_message] at first
    · intro pending
      exact ⟨(managing.passing pending).1, fun _ => Or.inl rfl⟩
    · intro pair member
      have old := managing.merged pair member
      exact ⟨old.1, old.2.imp_right (accepted_kept serving succeeding stepped)⟩
  | killed => exact (succeeds : Succeeding resource m.service .killed).elim
  | followed event service stepped running survived caller message =>
    exact managing_followed managing succeeds stepped running caller message

theorem served_of_ended {k : Nat} {entry : Entry κ} (serving : Serving resource w)
    (present : w.tasks[k]? = some entry) (ended : ∀ thread ∈ entry.task.threads, ¬ thread.Live)
    (handled : w.queue = []) : Served resource w entry := by
  have prepared := (serving.prepared _ (accepted_of_member present).1).1
  obtain ⟨thread, fetched⟩ := serving.tasks k entry present
  have stopped : thread.phase = .ended := by
    have not_live := ended thread (by rw [fetched.alone]; exact List.mem_singleton_self thread)
    exact not_not.mp not_live
  have url : entry.task.taskInfo.url = entry.request.url := prepared.url
  refine ⟨prepared, ?_, ?_, ?_⟩
  · intro old length
    rw [← url] at length ⊢
    exact (fetched.replayed old length).complete fetched.fetches stopped
  · intro exclusive
    rw [← url]
    exact (fetched.onDisk exclusive).complete fetched.fetches stopped
  · rcases fetched.notified stopped with called | ⟨progress, -, posted⟩
    · exact called
    · simp [handled] at posted

theorem Managing.servedOrMerged (managing : Managing resource m) (quiescent : Quiescent m) :
    ServedOrMerged resource m := by
  obtain ⟨no_pending, no_init, no_message, -, ended⟩ := quiescent
  have running : m.blocked = false := by
    apply Bool.eq_false_iff.mpr
    intro blocked
    exact managing.permit (managing.waits blocked) no_pending
  have accepted : m.service.accepted = m.service.tasks.map fun entry => entry.request := by
    rw [Service.accepted, Service.pairs, no_init, no_message, List.nil_append, List.filterMap_nil, List.nil_append,
      List.map_map]
    rfl
  have kept : ∀ request ∈ m.service.accepted, ∃ entry ∈ m.service.tasks, entry.request = request := by
    intro request member
    rw [accepted] at member
    exact List.mem_map.mp member
  constructor
  · apply Multiset.coe_eq_coe.mp
    rw [managing.accounted running, no_pending, accepted, List.map_append, ← Multiset.coe_add, ← Multiset.coe_add,
      Multiset.coe_nil, zero_add, add_assoc]
  · intro entry member
    obtain ⟨k, present⟩ := List.getElem?_of_mem member
    exact served_of_ended managing.serving present (ended entry member) no_message
  · intro pair member
    rcases List.mem_append.mp member with pending | listed
    · obtain ⟨url, still | started⟩ := managing.merged pair pending
      · simp [no_pending] at still
      · exact ⟨url, kept _ started⟩
    · have old := managing.serving.merged pair listed
      exact ⟨old.1, kept _ old.2⟩

theorem serving_start : Serving resource ({} : Service κ) := by
  refine ⟨tidy_start, ?_, ?_, ?_, ?_, ?_⟩ <;> simp [Service.accepted, Service.pairs]

theorem managing_start : Managing resource ({} : Manager κ) := by
  refine ⟨serving_start, ?_, ?_, ?_, ?_, ?_, ?_, ?_⟩ <;> simp [Service.accepted, Service.pairs]

/-- A call that finds no permit waits, and one that takes the permit leaves the service alone. -/
theorem service_acquire {critical : Manager κ → Manager κ} (kept : ∀ m, (critical m).service = m.service) :
    (m.acquire critical).service = m.service := by
  unfold Manager.acquire
  split
  · exact kept _
  · rfl

/-- The service merges a call exactly when it finds a task of its URL in the list. -/
theorem merged_download (info : TaskInfo κ) : (w.download info).merged = [] ↔
    w.merged = [] ∧ ∀ entry ∈ w.tasks, entry.listed = true → entry.task.taskInfo.url ≠ info.url := by
  unfold Service.download
  cases found : w.find? info.url with
  | none => simpa using fun _ entry member => Service.find?_eq_none found member
  | some both =>
    obtain ⟨present, listed, url⟩ := Service.of_find? found
    refine iff_of_false ?_ fun apart => apart.2 both.2 (List.mem_of_getElem? present) listed url
    simp only []
    split <;> simp

theorem merged_step {event : ManagerEvent κ} (managing : Managing resource m) (succeeds : Succeeds resource m event)
    (taken : m.step event = some m') : m'.service.merged = [] ↔ m.service.merged = [] ∧ Apart m event := by
  by_cases call : ∃ url filePath fileName download, event = .startDownload url filePath fileName download
  · obtain ⟨url, filePath, fileName, download, rfl⟩ := call
    obtain ⟨_, called⟩ := Option.ite_none_left_eq_some.mp taken
    obtain rfl := Option.some.inj called
    by_cases nothing : url = ""
    · simp [Manager.startDownload, nothing, Apart]
    · by_cases bound : m.bound = true
      · have download := merged_download (w := m.service) (.made url filePath fileName download)
        simpa [Manager.startDownload, nothing, bound, Apart, TaskInfo.made] using download
      · have kept : (m.startDownload url filePath fileName download).service = m.service := by
          simp only [Manager.startDownload, if_neg nothing, if_neg bound]
          refine service_acquire fun m => ?_
          split <;> rfl
        simp [kept, bound, Apart]
  · have apart : Apart m event := by
      cases event with
      | startDownload url filePath fileName download => exact absurd ⟨_, _, _, _, rfl⟩ call
      | _ => trivial
    have kept : m'.service.merged = m.service.merged := by
      cases managed_of_step taken with
      | drained rest running first permit =>
        have passing : m.mListTask ≠ [] → Service.tasks { m.service with queue := rest } = [] :=
          fun pending => (managing.passing pending).1
        exact (accepted_drained passing).2
      | followed event service stepped running survived caller message =>
        cases accounted managing.serving succeeds stepped with
        | accepted info => exact absurd rfl (caller info)
        | merged info => exact absurd rfl (caller info)
        | kept event caller accepted merged => exact merged
      | pauseDownload => exact succeeds.elim
      | killed => exact (succeeds : Succeeding resource m.service .killed).elim
      | connected | drainWaits => rfl
      | _ => exact absurd ⟨_, _, _, _, rfl⟩ call
    simp [kept, apart]

/-- The permit is lost with the first call that is left out because its URL is pending. -/
structure Permitted (m : Manager κ) : Prop where
  single : m.permits ≤ 1
  lost : m.merged ≠ [] → m.permits = 0

theorem permitted_step {event : ManagerEvent κ} (permitted : Permitted m) (managed : Managed m event m')
    (succeeds : Succeeds resource m event) : Permitted m' := by
  obtain ⟨single, lost⟩ := permitted
  cases managed with
  | leftOut => exact ⟨(Nat.sub_le _ _).trans single, fun _ => Nat.sub_eq_zero_of_le single⟩
  | pended url filePath fileName download running unbound permit =>
    refine ⟨(Nat.sub_add_cancel permit).trans_le single, fun merged => ?_⟩
    exact absurd (lost merged) (Nat.ne_of_gt permit)
  | drained rest running first permit =>
    refine ⟨(Nat.sub_add_cancel permit).trans_le single, fun merged => ?_⟩
    exact absurd (lost merged) (Nat.ne_of_gt permit)
  | pauseDownload => exact succeeds.elim
  | killed => exact (succeeds : Succeeding resource m.service .killed).elim
  | _ => exact ⟨single, lost⟩

/-- In a state in which nothing remains to be done, every call has been served exactly if none found
a task of its URL in the list. -/
theorem calls_served_iff {es : List (ManagerEvent κ)}
    (steps : Steps Manager.step (Succeeds resource) ({} : Manager κ) es) (whole : run Manager.step {} es = some m)
    (quiescent : Quiescent m) : AllServed resource m ↔ Steps Manager.step Apart {} es := by
  have kept : ∀ (m : Manager κ) event m', Managing resource m ∧ Permitted m → Succeeds resource m event →
      m.step event = some m' → Managing resource m' ∧ Permitted m' := by
    intro m event m' inv succeeds taken
    have managed := managed_of_step taken
    exact ⟨managing_step inv.1 succeeds managed, permitted_step inv.2 managed succeeds⟩
  have start : Managing resource ({} : Manager κ) ∧ Permitted ({} : Manager κ) :=
    ⟨managing_start, by simp, by simp⟩
  obtain ⟨managing, permitted⟩ := run_invariant kept start steps whole
  have served := managing.servedOrMerged quiescent
  -- A call that was left out would have taken the permit, and its URL would still be pending.
  have none_left : m.merged = [] := by
    by_contra left
    exact managing.permit (permitted.lost left) quiescent.1
  have own : AllServed resource m ↔ m.service.merged = [] := by
    have accounted := served.accounted
    rw [none_left, List.nil_append] at accounted
    constructor
    · intro all
      have lengths := (all.accounted.symm.trans accounted).length_eq
      rw [List.length_append, List.length_map, List.length_map] at lengths
      exact List.eq_nil_of_length_eq_zero (by omega)
    · intro nothing
      rw [nothing, List.map_nil, List.append_nil] at accounted
      exact ⟨accounted, served.served⟩
  rw [own]
  constructor
  · intro nothing
    have leads : ∀ (m : Manager κ) event m', Managing resource m ∧ Permitted m → Succeeds resource m event →
        ¬ Apart m event → m.step event = some m' → m'.service.merged ≠ [] :=
      fun m event m' inv succeeds found taken nothing => found ((merged_step inv.1 succeeds taken).mp nothing).2
    have stays : ∀ (m : Manager κ) event m', Managing resource m ∧ Permitted m → m.service.merged ≠ [] →
        Succeeds resource m event → m.step event = some m' → m'.service.merged ≠ [] :=
      fun m event m' inv merged succeeds taken nothing => merged ((merged_step inv.1 succeeds taken).mp nothing).1
    exact Steps.of_end kept leads stays start steps whole (not_not.mpr nothing)
  · intro apart
    have alone : ∀ (m : Manager κ) event m', (Managing resource m ∧ Permitted m) ∧ m.service.merged = [] →
        Succeeds resource m event ∧ Apart m event → m.step event = some m' →
        (Managing resource m' ∧ Permitted m') ∧ m'.service.merged = [] := by
      intro m event m' inv allowed taken
      exact ⟨kept m event m' inv.1 allowed.1 taken, (merged_step inv.1.1 allowed.1 taken).mpr ⟨inv.2, allowed.2⟩⟩
    exact (run_invariant alone ⟨start, rfl⟩ (steps.and apart) whole).2

instance (source : List UInt8) (thread : DownloadThread) : DecidablePred (Delivered source thread)
  | .respond code body => inferInstanceAs (Decidable
      ((code = 206 ∧ body = thread.threadInfo.rest source thread.position.toNat) ∨ (code = 200 ∧ body = source)))
  | .endOfStream => inferInstanceAs (Decidable (thread.phase.unread = []))
  | .fail => isFalse id
  | .read _ | .clock _ | .proceed => isTrue trivial

instance (resource : String → List UInt8) (w : Service κ) : DecidablePred (Succeeding resource w)
  | .download info => inferInstanceAs (Decidable (info.download.isSome = true))
  | .initThread i code contentLength _ _ => inferInstanceAs (Decidable (∀ request ∈ w.inits[i]?,
      code = 200 ∧ 0 < contentLength ∧ contentLength < 2 ^ 31 ∧ contentLength = (resource request.url).length))
  | .thread k i event => inferInstanceAs (Decidable (∀ entry ∈ w.tasks[k]?, ∀ thread ∈ entry.task.threads[i]?,
      Delivered (resource entry.task.taskInfo.url) thread event))
  | .dispatch | .broadcast _ => isTrue trivial
  | .pause _ | .lowMemory | .initFails _ | .killed => isFalse id

instance (resource : String → List UInt8) (m : Manager κ) : DecidablePred (Succeeds resource m)
  | .startDownload _ _ _ download => inferInstanceAs (Decidable (download.isSome = true))
  | .pauseDownload _ => isFalse id
  | .connected => isTrue trivial
  | .service event => inferInstanceAs (Decidable (Succeeding resource m.service event))

instance (m : Manager κ) : DecidablePred (Apart m)
  | .startDownload url _ _ _ => inferInstanceAs (Decidable (url ≠ "" → m.bound = true →
      ∀ entry ∈ m.service.tasks, entry.listed = true → entry.task.taskInfo.url ≠ url))
  | .pauseDownload _ | .connected | .service _ => isTrue trivial

instance (m : Manager Unit) : Decidable (Quiescent m) := inferInstanceAs (Decidable (_ ∧ _ ∧ _ ∧ _ ∧ _))

def server : String → List UInt8 := fun _ => [1, 2, 3, 4]

/-- The poster is downloaded up to the call of its callback. -/
def posterFinishes : List (ManagerEvent Unit) := [
  .startDownload "/poster.png" (some "media") (some "poster.png") (some ()), .connected, .service .dispatch,
  .service (.initThread 0 200 4 "" ""), .service .dispatch,
  .service (.thread 0 0 (.respond 200 [1, 2, 3, 4])), .service (.thread 0 0 (.read 4)),
  .service (.thread 0 0 .proceed), .service (.thread 0 0 (.clock false)), .service (.thread 0 0 .proceed),
  .service (.thread 0 0 .endOfStream), .service (.thread 0 0 .proceed), .service .dispatch]

/-- The finished task is unlisted. -/
def unlists : List (ManagerEvent Unit) := [.service (.broadcast 0), .service .dispatch]

/-- Its URL is requested again under another name. -/
def requestsCopy : List (ManagerEvent Unit) :=
  [.startDownload "/poster.png" (some "media") (some "copy.png") (some ())]

def copyFinishes : List (ManagerEvent Unit) := [
  .service (.initThread 0 200 4 "" ""), .service .dispatch,
  .service (.thread 1 0 (.respond 200 [1, 2, 3, 4])), .service (.thread 1 0 (.read 4)),
  .service (.thread 1 0 .proceed), .service (.thread 1 0 (.clock false)), .service (.thread 1 0 .proceed),
  .service (.thread 1 0 .endOfStream), .service (.thread 1 0 .proceed), .service .dispatch]

theorem copy_after_unlisting : ∃ m,
    run Manager.step {} (posterFinishes ++ unlists ++ requestsCopy ++ copyFinishes ++ unlists) = some m ∧
      Quiescent m ∧ m.requested.length = 2 ∧ AllServed server m := by
  have ends : ∀ m ∈ run Manager.step {} (posterFinishes ++ unlists ++ requestsCopy ++ copyFinishes ++ unlists),
      Quiescent m ∧ m.requested.length = 2 := by decide +kernel
  have reached : (run Manager.step {} (posterFinishes ++ unlists ++ requestsCopy ++ copyFinishes ++ unlists)).isSome := by
    decide +kernel
  obtain ⟨m, whole⟩ := Option.isSome_iff_exists.mp reached
  obtain ⟨quiescent, calls⟩ := ends m whole
  refine ⟨m, whole, quiescent, calls, (calls_served_iff ?_ whole quiescent).mpr ?_⟩
  · decide +kernel
  · decide +kernel

/-- Requested after the callback of the poster, while its task is still listed, the copy is never
made, though every transfer succeeds. -/
theorem copy_before_unlisting : ¬ ∀ es : List (ManagerEvent Unit),
    Steps Manager.step (Succeeds server) {} es →
    Throughout Manager.step (fun m => Quiescent m → ∀ request ∈ m.requested, ∃ entry ∈ m.service.tasks,
      entry.request = request ∧ Served server m.service entry) {} es := by
  intro all
  have ends : ∀ m ∈ run Manager.step {} (posterFinishes ++ requestsCopy ++ unlists), Quiescent m ∧
      ∃ request ∈ m.requested, ∀ entry ∈ m.service.tasks, entry.request ≠ request := by decide +kernel
  have reached : (run Manager.step {} (posterFinishes ++ requestsCopy ++ unlists)).isSome := by decide +kernel
  obtain ⟨m, whole⟩ := Option.isSome_iff_exists.mp reached
  obtain ⟨quiescent, request, called, missing⟩ := ends m whole
  obtain ⟨entry, made, own, -⟩ :=
    all (posterFinishes ++ requestsCopy ++ unlists) (by decide +kernel) _ [] (List.append_nil _).symm m whole quiescent
      request called
  exact missing entry made own

end AdTerminal.Download
