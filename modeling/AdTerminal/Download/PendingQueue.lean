import AdTerminal.Download.DownloadManager

/-! The pending requests of the manager. Before the service is bound they wait in a list that
a semaphore guards. The way out of `startDownload` for a URL that is already pending does not
return the permit, and the next call that needs it waits for ever. -/

namespace AdTerminal.Download
open Transition

variable {κ : Type}

/-- The manager with the URLs queued before it was bound, those the handler of `MSG_BIND_SUC`
has passed on to the service, and how often that handler has run. All three are history. -/
structure Queueing (κ : Type) where
  manager : Manager κ := {}
  queued : List String := []
  passed : List String := []
  handled : Nat := 0

namespace Queueing

/-- The history after an event. -/
def next (q : Queueing κ) (event : ManagerEvent κ) (manager : Manager κ) : Queueing κ :=
  match event, q.manager.service.queue with
  | .startDownload url _ _ _, _ =>
    if url ≠ "" ∧ q.manager.bound = false then { q with manager, queued := q.queued ++ [url] }
    else { q with manager }
  | .service .dispatch, .bindSuccess :: _ =>
    if 0 < q.manager.permits then
      { q with manager
               passed := q.passed ++ q.manager.mListTask.reverse.map TaskInfo.url
               handled := q.handled + 1 }
    else { q with manager }
  | .service .killed, _ => { manager }
  | _, _ => { q with manager }

def step (q : Queueing κ) (event : ManagerEvent κ) : Option (Queueing κ) :=
  (q.manager.step event).map (q.next event)

end Queueing

/-- The permit is there, nobody waits for it, and once `MSG_BIND_SUC` has been handled every
queued URL has been passed on once and none is left. -/
structure Orderly (q : Queueing κ) : Prop where
  permit : q.manager.permits = 1
  running : q.manager.blocked = false
  passedOn : 0 < q.handled → q.manager.mListTask = [] ∧ ∀ url ∈ q.queued, q.passed.count url = 1

/-- Before the service is bound, a URL that is pending is not requested again. -/
def NotPending (q : Queueing κ) : ManagerEvent κ → Prop
  | .startDownload url _ _ _ =>
    url ≠ "" → q.manager.bound = false → ∀ pending ∈ q.manager.mListTask, pending.url ≠ url
  | _ => True

/-- The invariant of an orderly queue: until `MSG_BIND_SUC` is handled, the queued URLs are
those of the pending requests, and nothing is queued after that. -/
structure Queued (q : Queueing κ) : Prop where
  orderly : Orderly q
  pending : q.handled = 0 → q.passed = [] ∧ q.queued = q.manager.mListTask.map TaskInfo.url
  distinct : (q.manager.mListTask.map TaskInfo.url).Nodup
  bound : 0 < q.handled → q.manager.bound = true
  posted : .bindSuccess ∈ q.manager.service.queue → q.manager.bound = true

/-- Only the manager posts `MSG_BIND_SUC`. -/
theorem bindSuccess_of_stepped {w w' : Service κ} {event : ServiceEvent κ} (stepped : Stepped w event w')
    (posted : .bindSuccess ∈ w'.queue) : .bindSuccess ∈ w.queue := by
  cases stepped with
  | prepared => simpa using posted
  | created request info rest first => exact first ▸ List.mem_cons_of_mem _ posted
  | completed k progress rest entry first => exact first ▸ List.mem_cons_of_mem _ posted
  | progressed k progress rest first => exact first ▸ List.mem_cons_of_mem _ posted
  | unlisted url rest k entry first => exact first ▸ List.mem_cons_of_mem _ posted
  | unlistedNothing url rest first => exact first ▸ List.mem_cons_of_mem _ posted
  | bindSuccess rest first => exact first ▸ List.mem_cons_of_mem _ posted
  | broadcast => simpa using posted
  | ran => simpa using posted
  | killed => exact absurd posted List.not_mem_nil
  | _ => exact posted

section
variable {q : Queueing κ}

theorem not_handled (queued : Queued q) (unbound : q.manager.bound = false) : q.handled = 0 := by
  by_contra positive
  have bound := queued.bound (by omega)
  simp [unbound] at bound

/-- A request that is not pending yet. -/
theorem queued_pended (queued : Queued q) (unbound : q.manager.bound = false) {url : String}
    (absent : ∀ pending ∈ q.manager.mListTask, pending.url ≠ url) (filePath fileName : Option String)
    (download : Option κ) (requested : List (TaskInfo κ)) (connections : Nat) :
    Queued { q with
      manager := { q.manager with
        requested, connections, permits := q.manager.permits - 1 + 1
        mListTask := q.manager.mListTask ++ [.made url filePath fileName download] }
      queued := q.queued ++ [url] } := by
  have waiting := not_handled queued unbound
  refine ⟨⟨?_, queued.orderly.running, ?_⟩, ?_, ?_, ?_, queued.posted⟩
  · have permit := queued.orderly.permit
    simp only [permit]
  · intro positive
    simp only [waiting, lt_irrefl] at positive
  · intro _
    have before := queued.pending waiting
    exact ⟨before.1, by simp [before.2, TaskInfo.made]⟩
  · exact nodup_pended queued.distinct absent filePath fileName download
  · intro positive
    simp only [waiting, lt_irrefl] at positive

/-- Handling `MSG_BIND_SUC` passes every pending URL on, and later finds none. -/
theorem queued_drained (queued : Queued q) {rest : List (Message κ)}
    (first : q.manager.service.queue = .bindSuccess :: rest) (service : Service κ) :
    Queued { q with
      manager := { q.manager with permits := q.manager.permits - 1 + 1, mListTask := [], service }
      passed := q.passed ++ q.manager.mListTask.reverse.map TaskInfo.url
      handled := q.handled + 1 } := by
  have bound : q.manager.bound = true := queued.posted (first ▸ List.mem_cons_self)
  refine ⟨⟨?_, queued.orderly.running, ?_⟩, ?_, List.nodup_nil, fun _ => bound, fun _ => bound⟩
  · have permit := queued.orderly.permit
    simp only [permit]
  · intro _
    refine ⟨rfl, fun url member => ?_⟩
    rcases Nat.eq_zero_or_pos q.handled with waiting | handled
    · have before := queued.pending waiting
      rw [before.2] at member
      rw [before.1, List.nil_append, List.map_reverse, List.count_reverse]
      exact List.count_eq_one_of_mem queued.distinct member
    · have before := queued.orderly.passedOn handled
      rw [before.1, List.reverse_nil, List.map_nil, List.append_nil]
      exact before.2 url member
  · intro none
    simp at none

/-- The queue is as before when the list, the permit and the history are, and no
`MSG_BIND_SUC` was posted without binding. -/
theorem queued_congr (queued : Queued q) {manager : Manager κ} (permits : manager.permits = q.manager.permits)
    (blocked : manager.blocked = q.manager.blocked) (list : manager.mListTask = q.manager.mListTask)
    (bound : q.manager.bound = true → manager.bound = true)
    (posted : .bindSuccess ∈ manager.service.queue → manager.bound = true) : Queued { q with manager } := by
  refine ⟨⟨permits.trans queued.orderly.permit, blocked.trans queued.orderly.running, ?_⟩, ?_, ?_, ?_, posted⟩
  · rw [list]
    exact queued.orderly.passedOn
  · rw [list]
    exact queued.pending
  · rw [list]
    exact queued.distinct
  · exact fun handled => bound (queued.bound handled)

theorem queued_startDownload (queued : Queued q) {url : String} {filePath fileName : Option String}
    {download : Option κ} (condition : NotPending q (.startDownload url filePath fileName download)) :
    Queued (q.next (.startDownload url filePath fileName download)
      (q.manager.startDownload url filePath fileName download)) := by
  by_cases missing : url = ""
  · subst missing
    simpa [Queueing.next, Manager.startDownload] using queued
  · have managed := managed_of_startDownload queued.orderly.running url filePath fileName download
    generalize result : q.manager.startDownload url filePath fileName download = manager at managed ⊢
    cases managed with
    | empty => exact absurd rfl missing
    | passedOn url filePath fileName download running bound =>
      have unqueued : ¬ (url ≠ "" ∧ q.manager.bound = false) := by simp [bound]
      simp only [Queueing.next, if_neg unqueued]
      exact queued_congr queued rfl rfl rfl (fun _ => bound) fun _ => bound
    | waits url filePath fileName download running unbound permit =>
      have one := queued.orderly.permit
      omega
    | leftOut url filePath fileName download pending running unbound permit found same =>
      exact absurd same.symm (condition missing unbound pending found)
    | pended url filePath fileName download running unbound permit absent =>
      simp only [Queueing.next, if_pos (And.intro missing unbound)]
      exact queued_pended queued unbound absent filePath fileName download _ _

/-- Any event of the service other than `MSG_BIND_SUC` and the loss of the process is no
event of the queue. -/
theorem next_followed {event : ServiceEvent κ} (survived : event ≠ .killed)
    (message : event = .dispatch → q.manager.service.queue.head? ≠ some .bindSuccess) (manager : Manager κ) :
    q.next (.service event) manager = { q with manager } := by
  cases event with
  | killed => exact absurd rfl survived
  | dispatch =>
    cases first : q.manager.service.queue with
    | nil => simp only [Queueing.next, first]
    | cons message rest =>
      cases message with
      | bindSuccess => simp [first] at message
      | _ => simp only [Queueing.next, first]
  | _ => rfl

theorem queued_pauseDownload (queued : Queued q) (url : String) :
    Queued { q with manager := q.manager.pauseDownload url } := by
  by_cases bound : q.manager.bound = true
  · rw [Manager.pauseDownload, if_pos bound]
    exact queued_congr queued rfl rfl rfl id fun _ => bound
  · rw [Manager.pauseDownload, if_neg bound]
    exact queued

theorem queued_start (service : Service κ) (quiet : service.queue = []) :
    Queued ({ manager := { service } } : Queueing κ) := by
  refine ⟨⟨rfl, rfl, by simp⟩, fun _ => ⟨rfl, rfl⟩, List.nodup_nil, by simp, ?_⟩
  intro posted
  simp [quiet] at posted

theorem queued_step (queued : Queued q) {event : ManagerEvent κ} (condition : NotPending q event)
    {q' : Queueing κ} (taken : q.step event = some q') : Queued q' := by
  obtain ⟨manager, managed, rfl⟩ := Option.map_eq_some_iff.mp taken
  have one := queued.orderly.permit
  cases event with
  | startDownload url filePath fileName download =>
    simp only [Manager.step, queued.orderly.running, Bool.false_eq_true, if_false, Option.some.injEq] at managed
    subst managed
    exact queued_startDownload queued condition
  | pauseDownload url =>
    cases managed_of_step managed with
    | pauseDownload url running => exact queued_pauseDownload queued url
  | connected =>
    cases managed_of_step managed with
    | connected running reported => exact queued_congr queued rfl rfl rfl (fun _ => rfl) fun _ => rfl
  | service event =>
    cases managed_of_step managed with
    | drained rest running first permit =>
      simp only [Queueing.next, first, if_pos permit]
      exact queued_drained queued first _
    | drainWaits rest running first permit => omega
    | killed => exact queued_start _ rfl
    | followed event service stepped running survived caller message =>
      rw [next_followed survived message]
      exact queued_congr queued rfl rfl rfl id fun posted => queued.posted (bindSuccess_of_stepped stepped posted)

/-- A request for a pending URL takes the permit away. -/
theorem permits_of_pending (queued : Queued q) {url : String} (present : url ≠ "")
    (unbound : q.manager.bound = false) {pending : TaskInfo κ} (found : pending ∈ q.manager.mListTask)
    (same : pending.url = url) (filePath fileName : Option String) (download : Option κ) :
    (q.manager.startDownload url filePath fileName download).permits = 0 := by
  have one := queued.orderly.permit
  have managed := managed_of_startDownload queued.orderly.running url filePath fileName download
  generalize q.manager.startDownload url filePath fileName download = manager at managed
  cases managed with
  | empty => exact absurd rfl present
  | passedOn url filePath fileName download running bound => simp [bound] at unbound
  | waits url filePath fileName download running unbound none => exact none
  | leftOut => simp only [one]
  | pended url filePath fileName download running unbound permit absent => exact absurd same (absent pending found)

theorem notPending_of_orderly (queued : Queued q) {event : ManagerEvent κ}
    (next : ∀ q', q.step event = some q' → Orderly q') : NotPending q event := by
  cases event with
  | startDownload url filePath fileName download =>
    intro present unbound pending found same
    have lost := permits_of_pending queued present unbound found same filePath fileName download
    have orderly := next (q.next (.startDownload url filePath fileName download)
      (q.manager.startDownload url filePath fileName download))
      (by simp [Queueing.step, Manager.step, queued.orderly.running])
    have permit := orderly.permit
    simp only [Queueing.next, if_pos (And.intro present unbound)] at permit
    omega
  | _ => trivial

end

/-- In every run of the manager, with calls, connections and messages in any order, the queue
is orderly in every state exactly when no URL is requested while it is pending. -/
theorem orderly_iff {es : List (ManagerEvent κ)} :
    Throughout Queueing.step Orderly ({} : Queueing κ) es ↔ Steps Queueing.step NotPending {} es := by
  have agree : ∀ (q : Queueing κ) event, Queued q →
      ((∀ t, q.step event = some t → Orderly t) ↔ NotPending q event) := fun q event queued =>
    ⟨notPending_of_orderly queued, fun condition t taken => (queued_step queued condition taken).orderly⟩
  have preserved : ∀ (q : Queueing κ) event t, Queued q → NotPending q event → Orderly t →
      q.step event = some t → Queued t := fun q event t queued condition _ taken => queued_step queued condition taken
  have start : Queued ({} : Queueing κ) := queued_start {} rfl
  exact throughout_iff_steps agree preserved start start.orderly

/-- A file is requested again before the service is bound. -/
def pendingTwice : List (ManagerEvent Unit) :=
  [.startDownload "/poster.png" none none (some ()), .startDownload "/poster.png" none none (some ())]

theorem pendingTwice_no_permit : ¬ Throughout Queueing.step Orderly {} pendingTwice := by
  intro all
  have reached : (run Queueing.step {} pendingTwice).map (fun q => q.manager.permits) = some 0 := by
    decide +kernel
  obtain ⟨q, whole, none⟩ := Option.map_eq_some_iff.mp reached
  have permit := (all pendingTwice [] rfl q whole).permit
  omega

end AdTerminal.Download
