import AdTerminal.Download.DownloadService

/-! The download manager. Requests made before the service is bound wait in a list, which is
passed on when `MSG_BIND_SUC` is handled. A semaphore guards the list; the main thread is
the only one that takes and returns its permit, so it waits for ever when there is none. -/

namespace AdTerminal.Download
open Transition

variable {κ : Type}

/-- The manager with its service. `connections` are the connections the system still has to
report. `requested` and `merged` are history: all requests, and those that were left out
because of a pending one. -/
structure Manager (κ : Type) where
  service : Service κ := {}
  /-- Whether `mService` is set. -/
  bound : Bool := false
  mListTask : List (TaskInfo κ) := []
  permits : Nat := 1
  connections : Nat := 0
  /-- The main thread waits for a permit. -/
  blocked : Bool := false
  requested : List (TaskInfo κ) := []
  merged : List (TaskInfo κ × TaskInfo κ) := []

inductive ManagerEvent (κ : Type) where
  | startDownload (url : String) (filePath fileName : Option String) (download : Option κ)
  | pauseDownload (url : String)
  /-- `onServiceConnected`. -/
  | connected
  /-- Any other event, of the service and the system around it. -/
  | service (event : ServiceEvent κ)

/-- A request as `startDownload` makes it. -/
def TaskInfo.made (url : String) (filePath fileName : Option String) (download : Option κ) : TaskInfo κ :=
  { url, filePath, fileName, lenght := 0, download }

/-- Where the event takes place. -/
def ServiceEvent.onMainThread : ServiceEvent κ → Bool
  | .initThread .. | .initFails _ | .thread .. | .killed => false
  | _ => true

namespace Manager

/-- `mSemaphList.acquire`, and what follows it. -/
def acquire (m : Manager κ) (critical : Manager κ → Manager κ) : Manager κ :=
  if 0 < m.permits then critical { m with permits := m.permits - 1 } else { m with blocked := true }

def release (m : Manager κ) : Manager κ := { m with permits := m.permits + 1 }

/-- An empty URL stands for a missing one, too. -/
def startDownload (m : Manager κ) (url : String) (filePath fileName : Option String) (download : Option κ) :
    Manager κ :=
  if url = "" then m
  else
    let info := TaskInfo.made url filePath fileName download
    let m := { m with requested := m.requested ++ [info] }
    if m.bound then { m with service := m.service.download info }
    else
      { m with connections := m.connections + 1 }.acquire fun m =>
        -- `TaskInfo.equals` compares the URLs only, and this way out does not release.
        match m.mListTask.find? fun pending : TaskInfo κ => pending.url = info.url with
        | some pending => { m with merged := m.merged ++ [(info, pending)] }
        | none => { m with mListTask := m.mListTask ++ [info] }.release

def pauseDownload (m : Manager κ) (url : String) : Manager κ :=
  if m.bound then { m with service := m.service.pause url } else m

def onServiceConnected (m : Manager κ) : Manager κ :=
  { m with bound := true, service := { m.service with queue := m.service.queue ++ [.bindSuccess] } }

/-- The handler of `MSG_BIND_SUC`. The last pending request is passed on first. -/
def handleBindSuccess (m : Manager κ) : Manager κ :=
  m.acquire fun m =>
    { m with
      service := m.mListTask.foldr (fun info service => service.download info) m.service
      mListTask := [] }.release

/-- The manager after an event of its service. -/
def follow (m : Manager κ) (event : ServiceEvent κ) (service : Service κ) : Manager κ :=
  match event, m.service.queue with
  | .dispatch, .bindSuccess :: _ => { m with service }.handleBindSuccess
  | .killed, _ => { service }
  | _, _ => { m with service }

def step (m : Manager κ) : ManagerEvent κ → Option (Manager κ)
  | .startDownload url filePath fileName download =>
    if m.blocked then none else some (m.startDownload url filePath fileName download)
  | .pauseDownload url => if m.blocked then none else some (m.pauseDownload url)
  | .connected =>
    if ¬ m.blocked ∧ 0 < m.connections then
      some { m with connections := m.connections - 1 }.onServiceConnected
    else none
  | .service event =>
    match event with
    -- Only the manager calls these two.
    | .download _ | .pause _ => none
    | event =>
      if m.blocked ∧ event.onMainThread then none
      else (m.service.step event).map (m.follow event)

end Manager

/-- What one step of the manager can be, guards included. -/
inductive Managed (m : Manager κ) : ManagerEvent κ → Manager κ → Prop
  | empty (filePath fileName : Option String) (download : Option κ) :
      Managed m (.startDownload "" filePath fileName download) m
  | passedOn (url : String) (filePath fileName : Option String) (download : Option κ) (running : m.blocked = false)
      (bound : m.bound = true) :
      Managed m (.startDownload url filePath fileName download)
        { m with requested := m.requested ++ [.made url filePath fileName download]
                 service := m.service.download (.made url filePath fileName download) }
  | waits (url : String) (filePath fileName : Option String) (download : Option κ) (running : m.blocked = false)
      (unbound : m.bound = false) (permit : m.permits = 0) :
      Managed m (.startDownload url filePath fileName download)
        { m with requested := m.requested ++ [.made url filePath fileName download]
                 connections := m.connections + 1, blocked := true }
  | leftOut (url : String) (filePath fileName : Option String) (download : Option κ) (pending : TaskInfo κ)
      (running : m.blocked = false) (unbound : m.bound = false) (permit : 0 < m.permits)
      (found : pending ∈ m.mListTask) (same : url = pending.url) :
      Managed m (.startDownload url filePath fileName download)
        { m with requested := m.requested ++ [.made url filePath fileName download]
                 connections := m.connections + 1, permits := m.permits - 1
                 merged := m.merged ++ [(.made url filePath fileName download, pending)] }
  | pended (url : String) (filePath fileName : Option String) (download : Option κ) (running : m.blocked = false)
      (unbound : m.bound = false) (permit : 0 < m.permits) (absent : ∀ pending ∈ m.mListTask, pending.url ≠ url) :
      Managed m (.startDownload url filePath fileName download)
        { m with requested := m.requested ++ [.made url filePath fileName download]
                 connections := m.connections + 1, permits := m.permits - 1 + 1
                 mListTask := m.mListTask ++ [.made url filePath fileName download] }
  | pauseDownload (url : String) (running : m.blocked = false) : Managed m (.pauseDownload url) (m.pauseDownload url)
  | connected (running : m.blocked = false) (reported : 0 < m.connections) :
      Managed m .connected
        { m with connections := m.connections - 1, bound := true
                 service := { m.service with queue := m.service.queue ++ [.bindSuccess] } }
  | drained (rest : List (Message κ)) (running : m.blocked = false) (first : m.service.queue = .bindSuccess :: rest)
      (permit : 0 < m.permits) :
      Managed m (.service .dispatch)
        { m with permits := m.permits - 1 + 1, mListTask := []
                 service := m.mListTask.foldr (fun info service => service.download info)
                  { m.service with queue := rest } }
  | drainWaits (rest : List (Message κ)) (running : m.blocked = false)
      (first : m.service.queue = .bindSuccess :: rest) (permit : m.permits = 0) :
      Managed m (.service .dispatch) { m with service := { m.service with queue := rest }, blocked := true }
  | killed : Managed m (.service .killed) { service := { rows := m.service.rows, disk := m.service.disk } }
  | followed (event : ServiceEvent κ) (service : Service κ) (stepped : Stepped m.service event service)
      (running : m.blocked = true → event.onMainThread = false) (survived : event ≠ .killed)
      (caller : ∀ info, event ≠ .download info)
      (message : event = .dispatch → m.service.queue.head? ≠ some .bindSuccess) :
      Managed m (.service event) { m with service }

/-- A pending request keeps the URLs apart when none of its URL was pending. -/
theorem nodup_pended {pending : List (TaskInfo κ)} (distinct : (pending.map TaskInfo.url).Nodup) {url : String}
    (absent : ∀ earlier ∈ pending, earlier.url ≠ url) (filePath fileName : Option String) (download : Option κ) :
    ((pending ++ [TaskInfo.made url filePath fileName download]).map TaskInfo.url).Nodup := by
  rw [List.map_append]
  apply List.nodup_append.mpr
  refine ⟨distinct, List.nodup_singleton _, ?_⟩
  intro old member new only same
  obtain ⟨earlier, present, rfl⟩ := List.mem_map.mp member
  rw [List.map_singleton, List.mem_singleton] at only
  exact absent earlier present (same.trans only)

theorem managed_of_startDownload {m : Manager κ} (running : m.blocked = false) (url : String)
    (filePath fileName : Option String) (download : Option κ) :
    Managed m (.startDownload url filePath fileName download) (m.startDownload url filePath fileName download) := by
  unfold Manager.startDownload
  split
  next nothing =>
    subst nothing
    exact .empty filePath fileName download
  next =>
    change Managed m _ (if m.bound = true then _ else _)
    by_cases bound : m.bound = true
    · rw [if_pos bound]
      exact .passedOn url filePath fileName download running bound
    · rw [if_neg bound]
      change Managed m _ (if 0 < m.permits then _ else _)
      have unbound := Bool.eq_false_iff.mpr bound
      by_cases permit : 0 < m.permits
      · rw [if_pos permit]
        simp only []
        split
        next pending found =>
          have same := List.find?_some found
          exact .leftOut url filePath fileName download pending running unbound permit (List.mem_of_find?_eq_some found)
            (of_decide_eq_true same).symm
        next found =>
          have absent := List.find?_eq_none.mp found
          refine .pended url filePath fileName download running unbound permit ?_
          exact fun pending member same => absent pending member (decide_eq_true same)
      · rw [if_neg permit]
        exact .waits url filePath fileName download running unbound (by omega)

theorem managed_of_handleBindSuccess {m : Manager κ} {rest : List (Message κ)} {service : Service κ}
    (running : m.blocked = false) (first : m.service.queue = .bindSuccess :: rest)
    (taken : m.service.step .dispatch = some service) :
    Managed m (.service .dispatch) (m.follow .dispatch service) := by
  simp only [Service.step, first, Service.handleMessage, Option.some.injEq] at taken
  subst taken
  have followed : m.follow .dispatch { m.service with queue := rest } =
      ({ m with service := { m.service with queue := rest } } : Manager κ).handleBindSuccess := by
    simp only [Manager.follow, first]
  rw [followed]
  change Managed m _ (if 0 < m.permits then _ else _)
  by_cases permit : 0 < m.permits
  · rw [if_pos permit]
    exact .drained rest running first permit
  · rw [if_neg permit]
    exact .drainWaits rest running first (by omega)

theorem managed_of_step {m m' : Manager κ} {event : ManagerEvent κ} (taken : m.step event = some m') :
    Managed m event m' := by
  cases event with
  | startDownload url filePath fileName download =>
    simp only [Manager.step, Option.ite_none_left_eq_some, Bool.not_eq_true, Option.some.injEq] at taken
    obtain ⟨running, rfl⟩ := taken
    exact managed_of_startDownload running url filePath fileName download
  | pauseDownload url =>
    simp only [Manager.step, Option.ite_none_left_eq_some, Bool.not_eq_true, Option.some.injEq] at taken
    obtain ⟨running, rfl⟩ := taken
    exact .pauseDownload url running
  | connected =>
    simp only [Manager.step, Option.ite_none_right_eq_some, Bool.not_eq_true, Option.some.injEq] at taken
    obtain ⟨⟨running, reported⟩, rfl⟩ := taken
    exact .connected running reported
  | service event =>
    have both : ¬ (m.blocked = true ∧ event.onMainThread = true) ∧ (∀ info, event ≠ .download info) ∧
        (m.service.step event).map (m.follow event) = some m' := by
      cases event with
      | download info => simp [Manager.step] at taken
      | pause url => simp [Manager.step] at taken
      | _ =>
        simp only [Manager.step, Option.ite_none_left_eq_some] at taken
        exact ⟨taken.1, by simp, taken.2⟩
    obtain ⟨running, caller, followed⟩ := both
    obtain ⟨service, served, rfl⟩ := Option.map_eq_some_iff.mp followed
    have stepped := stepped_of_step served
    have main : m.blocked = true → event.onMainThread = false :=
      fun blocked => Bool.eq_false_iff.mpr fun onMain => running ⟨blocked, onMain⟩
    cases event with
    | killed =>
      cases served
      exact .killed
    | dispatch =>
      have unblocked : m.blocked = false := Bool.eq_false_iff.mpr fun blocked => running ⟨blocked, rfl⟩
      cases first : m.service.queue with
      | nil => simp [Service.step, first] at served
      | cons message rest =>
        by_cases bindSuccess : message = .bindSuccess
        · subst bindSuccess
          exact managed_of_handleBindSuccess unblocked first served
        · have followed := Managed.followed .dispatch service stepped main (by simp) caller
            (by simpa [first] using bindSuccess)
          cases message with
          | bindSuccess => exact absurd rfl bindSuccess
          | _ => simpa only [Manager.follow, first] using followed
    | _ => exact .followed _ service stepped main (by simp) caller (by simp)

end AdTerminal.Download
