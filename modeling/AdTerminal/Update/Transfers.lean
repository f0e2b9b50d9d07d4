import AdTerminal.Download.Requests
import AdTerminal.Download.Started
import AdTerminal.Update.UpdateSystem

/-! Whether a file is transferred once. Every poll asks for all files of a strategy that is
not in force yet, and the download service starts what is not in its list of tasks: also
what an `InitThread` is still preparing, and what is finished and no longer listed. -/

namespace AdTerminal.Update
open AdTerminal.Strategy AdTerminal.Download Transition

variable {terminal : Terminal} {s s' : System} {m : Manager OnDownload}

/-- No URL has a second transfer. -/
def TransferredOnce (s : System) : Prop := ∀ url, s.manager.service.transfers url ≤ 1

/-- The requests an event passes on to `DownloadService.download`: those of a poll once the
service is bound, and the pending ones when `MSG_BIND_SUC` is handled. -/
def System.passedOn (terminal : Terminal) (s : System) : Event → List (TaskInfo OnDownload)
  | .fetched xmlText =>
    if s.MainFree ∧ s.manager.bound = true then
      (s.requested terminal xmlText).filter fun info => info.url ≠ ""
    else []
  | .service .dispatch =>
    if s.MainFree ∧ 0 < s.manager.permits ∧ s.manager.service.queue.head? = some .bindSuccess then
      s.manager.mListTask
    else []
  | _ => []

/-- A URL that is passed on after its transfer was started has a task in the list. -/
def FindsTask (terminal : Terminal) (s : System) (event : Event) : Prop :=
  ∀ info ∈ s.passedOn terminal event,
    0 < s.manager.service.transfers info.url → (s.manager.service.find? info.url).isSome

/-- The server returns the same text at every poll, and every transfer succeeds. -/
def Repeats (xmlText : String) (resource : String → List UInt8) (s : System) : Event → Prop
  | .fetched text => text = xmlText
  | .service event => Succeeding resource s.manager.service event
  | _ => True

/-- No two ids of a strategy name the same file. -/
def DistinctFiles (served : AdMediaInfo) : Prop :=
  ∀ kind other id file, served.file? kind id = some file →
    ∀ id' file', served.file? other id' = some file' → file = file' → kind = other ∧ id = id'

theorem call_running {info : TaskInfo OnDownload} (running : m.blocked = false) :
    call m info = m.startDownload info.url info.filePath info.fileName info.download := by
  simp [call, running]

/-- The calls of a handler while the service is bound. -/
theorem transfers_calls (infos : List (TaskInfo OnDownload)) (running : m.blocked = false) (bound : m.bound = true) :
    (infos.foldl call m).mListTask = m.mListTask ∧
      ∀ url, (infos.foldl call m).service.transfers url =
        (((infos.filter fun info => info.url ≠ "").filter m.service.starts).map TaskInfo.url).count url +
          m.service.transfers url := by
  induction infos generalizing m with
  | nil => simp
  | cons info infos ih =>
    rw [List.foldl_cons, call_running running]
    by_cases missing : info.url = ""
    · simpa [Manager.startDownload, missing] using ih running bound
    · have passed : m.startDownload info.url info.filePath info.fileName info.download = { m with
          requested := m.requested ++ [.made info.url info.filePath info.fileName info.download]
          service := m.service.download (.made info.url info.filePath info.fileName info.download) } := by
        simp [Manager.startDownload, missing, bound]
      generalize made : TaskInfo.made info.url info.filePath info.fileName info.download = again at passed
      have same : m.service.starts again = m.service.starts info ∧ again.url = info.url := by
        rw [← made]
        exact ⟨rfl, rfl⟩
      have next := ih (m := { m with requested := m.requested ++ [again], service := m.service.download again })
        running bound
      rw [passed]
      refine ⟨next.1, fun url => (next.2 url).trans ?_⟩
      -- A request at most starts an `InitThread`, so the later ones find the same tasks.
      have listed : (m.service.download again).starts = m.service.starts :=
        Service.starts_congr (m.service.listing_download again)
      simp only [listed, m.service.transfers_download again url, same.1, same.2]
      by_cases starts : m.service.starts info = true
      · simp only [List.filter_cons, missing, starts, ne_eq, not_false_eq_true, decide_true, if_true, List.map_cons,
          List.count_cons, beq_iff_eq, true_and]
        omega
      · simp [missing, starts]

/-- The URLs of the pending requests are distinct. -/
def Pending (m : Manager OnDownload) : Prop := (m.mListTask.map TaskInfo.url).Nodup

/-- A call before the service is bound. -/
theorem call_unbound (info : TaskInfo OnDownload) (unbound : m.bound = false) (pending : Pending m) :
    (call m info).bound = false ∧ Pending (call m info) ∧ (call m info).service = m.service := by
  unfold call
  split
  next => exact ⟨unbound, pending, rfl⟩
  next running =>
    have managed := managed_of_startDownload (Bool.eq_false_iff.mpr running) info.url info.filePath info.fileName
      info.download
    generalize m.startDownload info.url info.filePath info.fileName info.download = m' at managed
    generalize info.url = url at managed
    cases managed with
    | passedOn url filePath fileName download running bound => simp [bound] at unbound
    | pended _ _ _ _ running unbound permit absent => exact ⟨unbound, nodup_pended pending absent _ _ _, rfl⟩
    | empty | waits | leftOut => exact ⟨unbound, pending, rfl⟩

theorem calls_unbound (infos : List (TaskInfo OnDownload)) (unbound : m.bound = false) (pending : Pending m) :
    Pending (infos.foldl call m) ∧ (infos.foldl call m).service = m.service := by
  induction infos generalizing m with
  | nil => exact ⟨pending, rfl⟩
  | cons info infos ih =>
    have first := call_unbound info unbound pending
    have rest := ih first.1 first.2.1
    exact ⟨rest.1, rest.2.trans first.2.2⟩

/-- `MSG_BIND_SUC` is handled, and the pending requests are passed on. -/
def Drains (m : Manager OnDownload) (event : ServiceEvent OnDownload) : Prop :=
  event = .dispatch ∧ 0 < m.permits ∧ m.service.queue.head? = some .bindSuccess

theorem transfers_le_of_subperm {w w' : Service OnDownload} (fewer : w'.accepted.Subperm w.accepted) (url : String) :
    w'.transfers url ≤ w.transfers url := by
  obtain ⟨left, perm, sublist⟩ := fewer
  calc w'.transfers url
    _ = (left.map TaskInfo.url).count url := ((perm.map TaskInfo.url).count_eq url).symm
    _ ≤ w.transfers url := (sublist.map TaskInfo.url).count_le url

/-- What an event of the service does to the transfers and the pending requests. -/
theorem transfers_managed {event : ServiceEvent OnDownload} {m' : Manager OnDownload}
    (managed : Managed m (.service event) m') :
    (Pending m → Pending m') ∧
      ((Drains m event ∧ ∀ url, m'.service.transfers url =
          ((m.mListTask.filter m.service.starts).map TaskInfo.url).count url + m.service.transfers url) ∨
        (¬ Drains m event ∧ ∀ url, m'.service.transfers url ≤ m.service.transfers url)) := by
  have unannounced : ∀ rest, m.service.queue = .bindSuccess :: rest →
      ({ m.service with queue := rest } : Service OnDownload).accepted.Perm m.service.accepted := by
    intro rest first
    exact accepted_congr rfl (Service.pairs_congr (pairs_handled first rfl) rfl)
  cases managed with
  | drained rest running first permit =>
    refine ⟨fun _ => List.nodup_nil, Or.inl ⟨⟨rfl, permit, by rw [first]; rfl⟩, fun url => ?_⟩⟩
    have passed := (accepted_foldr { m.service with queue := rest } m.mListTask).1
    have counted := ((passed.trans ((unannounced rest first).append_left _)).map TaskInfo.url).count_eq url
    rw [List.map_append, List.count_append] at counted
    exact counted
  | drainWaits rest running first permit =>
    refine ⟨id, Or.inr ⟨fun drains => ?_, transfers_le_of_subperm (unannounced rest first).subperm⟩⟩
    exact absurd permit drains.2.1.ne'
  | killed =>
    refine ⟨fun _ => List.nodup_nil, Or.inr ⟨fun drains => ?_, fun url => Nat.zero_le _⟩⟩
    simp [Drains] at drains
  | followed event service stepped running survived caller message =>
    refine ⟨id, Or.inr ⟨fun drains => message drains.1 drains.2.2, ?_⟩⟩
    exact transfers_le_of_subperm (accepted_of_stepped stepped caller)

theorem passedOn_of_drains {event : ServiceEvent OnDownload} (free : s.MainFree) (drains : Drains s.manager event) :
    s.passedOn terminal (.service event) = s.manager.mListTask := by
  obtain ⟨rfl, both⟩ := drains
  exact if_pos ⟨free, both⟩

theorem passedOn_of_not_drains {event : ServiceEvent OnDownload} (other : ¬ Drains s.manager event) :
    s.passedOn terminal (.service event) = [] := by
  cases event with
  | dispatch => exact if_neg fun all => other ⟨rfl, all.2⟩
  | _ => rfl

/-- A message that calls a receiver back is not `MSG_BIND_SUC`. -/
theorem not_drains_of_finishing {callback : OnDownload} {event : ServiceEvent OnDownload}
    (called : s.finishing = some callback) : ¬ Drains s.manager event := by
  intro drains
  obtain ⟨rest, first⟩ := List.head?_eq_some_iff.mp drains.2.2
  simp [System.finishing, first] at called

/-- What a step does to the transfers: it starts those that are passed on and not listed. -/
theorem transfers_moved {event : Event} (pending : Pending s.manager) (moved : Moved terminal s event s') :
    Pending s'.manager ∧
      ((∀ url, s'.manager.service.transfers url =
          (((s.passedOn terminal event).filter s.manager.service.starts).map TaskInfo.url).count url +
            s.manager.service.transfers url) ∨
        (s.passedOn terminal event = [] ∧
          ∀ url, s'.manager.service.transfers url ≤ s.manager.service.transfers url)) := by
  cases moved with
  | polled | saved => exact ⟨pending, Or.inr ⟨rfl, fun url => le_rfl⟩⟩
  | fetched xmlText free =>
    by_cases bound : s.manager.bound = true
    · have calls := transfers_calls (s.requested terminal xmlText) free.2 bound
      have passed : s.passedOn terminal (.fetched xmlText) =
          (s.requested terminal xmlText).filter fun info => info.url ≠ "" := if_pos ⟨free, bound⟩
      rw [passed]
      refine ⟨?_, Or.inl calls.2⟩
      change ((List.foldl call s.manager _).mListTask.map TaskInfo.url).Nodup
      rw [calls.1]
      exact pending
    · have calls := calls_unbound (s.requested terminal xmlText) (Bool.eq_false_iff.mpr bound) pending
      refine ⟨calls.1, Or.inr ⟨if_neg fun both => bound both.2, fun url => ?_⟩⟩
      change (List.foldl call s.manager _).service.transfers url ≤ _
      rw [calls.2]
  | connected manager free taken =>
    cases managed_of_step taken with
    | connected running reported =>
      refine ⟨pending, Or.inr ⟨rfl, transfers_le_of_subperm (List.Perm.subperm ?_)⟩⟩
      refine accepted_congr rfl (Service.pairs_congr ?_ rfl)
      simp [Message.pair?]
  | served event manager alive main survived taken =>
    have served := transfers_managed (managed_of_step taken)
    refine ⟨served.1 pending, ?_⟩
    rcases served.2 with ⟨drains, equal⟩ | ⟨other, fewer⟩
    · have free := main (by rw [drains.1]; rfl)
      rw [passedOn_of_drains free drains]
      exact Or.inl equal
    · exact Or.inr ⟨passedOn_of_not_drains other, fewer⟩
  | finished callback manager free called taken =>
    have served := transfers_managed (managed_of_step taken)
    -- When the callback throws, the manager is as it was.
    have other : ¬ Drains s.manager .dispatch := not_drains_of_finishing called
    have fewer := (served.2.resolve_left fun drained => other drained.1).2
    rcases manager_finished terminal s callback manager with same | same
    · rw [same]
      exact ⟨pending, Or.inr ⟨passedOn_of_not_drains other, fun url => le_rfl⟩⟩
    · rw [same]
      exact ⟨served.1 pending, Or.inr ⟨passedOn_of_not_drains other, fewer⟩⟩
  | killed manager taken =>
    have served := transfers_managed (managed_of_step taken)
    have other : ¬ Drains s.manager .killed := by simp [Drains]
    have fewer := (served.2.resolve_left fun drained => other drained.1).2
    exact ⟨served.1 pending, Or.inr ⟨passedOn_of_not_drains other, fewer⟩⟩

section
variable {xmlText : String} {served : AdMediaInfo}

/-- Distinct files have distinct URLs. -/
theorem url_inj (distinct : DistinctFiles served) {kind other : MediaKind} {id id' : Text}
    (listed : id ∈ served.ids kind) (listed' : id' ∈ served.ids other)
    (same : (startDownload terminal served kind id).url = (startDownload terminal served other id').url) :
    kind = other ∧ id = id' := by
  obtain ⟨file, named⟩ := AdMediaInfo.mem_ids.mp listed
  obtain ⟨file', named'⟩ := AdMediaInfo.mem_ids.mp listed'
  have names : Text.shown (startDownload terminal served kind id).fileName =
      Text.shown (startDownload terminal served other id').fileName :=
    (String.append_right_inj terminal.fileServer).mp same
  rw [fileName_startDownload terminal named, fileName_startDownload terminal named'] at names
  exact distinct kind other id file named id' file' named' names

theorem urls_transferring (oldMedia : AdMediaInfo) (kind : MediaKind) (i : Nat) :
    (((process terminal oldMedia served kind).transferring.map (request i kind)).map TaskInfo.url) =
      (getSetDifference (served.ids kind) (oldMedia.ids kind)).map
        fun id => (startDownload terminal served kind id).url := by
  simp only [process, List.map_map]
  rfl

theorem urls_requests_nodup (distinct : DistinctFiles served) {receiver : MediaUpdateReceiver} {oldMedia : AdMediaInfo}
    (batch : receiver.batch = process terminal oldMedia served) (i : Nat) :
    ((requests i receiver).map TaskInfo.url).Nodup := by
  have single : ∀ kind : MediaKind, ((getSetDifference (served.ids kind) (oldMedia.ids kind)).map
      fun id => (startDownload terminal served kind id).url).Nodup := by
    intro kind
    have ids : (getSetDifference (served.ids kind) (oldMedia.ids kind)).Nodup :=
      (AList.keys_nodup (served.container kind)).filter _
    apply ids.map_on
    intro id member id' member' same
    exact (url_inj distinct (mem_getSetDifference.mp member).1 (mem_getSetDifference.mp member').1 same).2
  rw [requests, List.map_append, batch, urls_transferring, urls_transferring]
  apply List.nodup_append.mpr
  refine ⟨single .video, single .image, ?_⟩
  intro url member url' member' same
  obtain ⟨id, inside, rfl⟩ := List.mem_map.mp member
  obtain ⟨id', inside', rfl⟩ := List.mem_map.mp member'
  have kinds := (url_inj distinct (mem_getSetDifference.mp inside).1 (mem_getSetDifference.mp inside').1 same).1
  cases kinds

/-- A strategy whose files are distinct asks for each of them once. -/
theorem urls_requested_nodup (parsed : parseXmlFromText terminal.parseText xmlText = .ok (some served))
    (distinct : DistinctFiles served) : ((s.requested terminal xmlText).map TaskInfo.url).Nodup := by
  cases active : s.world.adMediaInfo with
  | none =>
    have crashed : (mediaStrategyUpdateHandler terminal s.world xmlText).receivers = s.world.receivers := by
      simp only [mediaStrategyUpdateHandler, parsed, active]
    simp [System.requested, crashed]
  | some oldMedia =>
    simp only [System.requested, handler_of_parsed parsed active, List.getElem?_concat_length]
    exact urls_requests_nodup distinct rfl _

theorem urls_passedOn_nodup {resource : String → List UInt8} {event : Event}
    (parsed : parseXmlFromText terminal.parseText xmlText = .ok (some served)) (distinct : DistinctFiles served)
    (pending : Pending s.manager) (repeated : Repeats xmlText resource s event) :
    ((s.passedOn terminal event).map TaskInfo.url).Nodup := by
  cases event with
  | fetched text =>
    have same : text = xmlText := repeated
    subst same
    simp only [System.passedOn]
    split
    · exact (urls_requested_nodup parsed distinct).sublist (List.filter_sublist.map TaskInfo.url)
    · exact List.nodup_nil
  | service event =>
    by_cases drains : Drains s.manager event
    · obtain ⟨rfl, -⟩ := drains
      simp only [System.passedOn]
      split
      · exact pending
      · exact List.nodup_nil
    · rw [passedOn_of_not_drains drains]
      exact List.nodup_nil
  | _ => exact List.nodup_nil

end

/-- An event that passes something on takes place. -/
theorem enabled_of_passedOn {event : Event} {info : TaskInfo OnDownload} (member : info ∈ s.passedOn terminal event) :
    ∃ s', step terminal s event = some s' := by
  cases event with
  | fetched text =>
    simp only [System.passedOn] at member
    split at member
    next both => exact ⟨_, if_pos both.1⟩
    next => exact absurd member List.not_mem_nil
  | service event =>
    by_cases drains : Drains s.manager event
    · obtain ⟨rfl, -⟩ := drains
      simp only [System.passedOn] at member
      split at member
      next all =>
        obtain ⟨rest, first⟩ := List.head?_eq_some_iff.mp all.2.2
        have alive := all.1.1.1
        have running := all.1.2
        simp [step, all.1, alive, Manager.step, running, Service.step, first]
      next => exact absurd member List.not_mem_nil
    · rw [passedOn_of_not_drains drains] at member
      exact absurd member List.not_mem_nil
  | _ => exact absurd member List.not_mem_nil

/-- Whether every URL still has one transfer after some distinct ones are passed on. -/
theorem count_le_one_iff {w : Service OnDownload} {infos : List (TaskInfo OnDownload)}
    (distinct : (infos.map TaskInfo.url).Nodup) (once : ∀ url, w.transfers url ≤ 1) :
    (∀ url, ((infos.filter w.starts).map TaskInfo.url).count url + w.transfers url ≤ 1) ↔
      ∀ info ∈ infos, 0 < w.transfers info.url → (w.find? info.url).isSome := by
  constructor
  · intro after info member started
    by_contra absent
    have starts : w.starts info = true := by simpa [Service.starts] using absent
    have new : info.url ∈ (infos.filter w.starts).map TaskInfo.url :=
      List.mem_map_of_mem (List.mem_filter.mpr ⟨member, starts⟩)
    have counted := List.count_pos_iff.mpr new
    have total := after info.url
    omega
  · intro listed url
    rcases Nat.eq_zero_or_pos (w.transfers url) with none | started
    · rw [none]
      exact List.nodup_iff_count_le_one.mp (distinct.sublist (List.filter_sublist.map TaskInfo.url)) url
    · have nothing : url ∉ (infos.filter w.starts).map TaskInfo.url := by
        intro member
        obtain ⟨info, inside, rfl⟩ := List.mem_map.mp member
        obtain ⟨present, starts⟩ := List.mem_filter.mp inside
        have found := listed info present started
        simp [Service.starts, Option.isSome_iff_ne_none] at starts found
        exact found starts
      rw [List.count_eq_zero.mpr nothing, Nat.zero_add]
      exact once url

section
variable {xmlText : String} {served : AdMediaInfo} {resource : String → List UInt8}

/-- A step leaves every URL with one transfer exactly when what it passes on finds its task. -/
theorem findsTask_iff {event : Event} (parsed : parseXmlFromText terminal.parseText xmlText = .ok (some served))
    (distinct : DistinctFiles served) (pending : Pending s.manager) (once : TransferredOnce s)
    (repeated : Repeats xmlText resource s event) :
    (∀ s', step terminal s event = some s' → TransferredOnce s') ↔ FindsTask terminal s event := by
  have urls := urls_passedOn_nodup parsed distinct pending repeated
  constructor
  · intro after info member
    obtain ⟨s', taken⟩ := enabled_of_passedOn member
    rcases (transfers_moved pending (moved_of_step taken)).2 with equal | ⟨nothing, -⟩
    · apply (count_le_one_iff urls once).mp _ info member
      intro url
      rw [← equal url]
      exact after s' taken url
    · rw [nothing] at member
      exact absurd member List.not_mem_nil
  · intro finds s' taken url
    rcases (transfers_moved pending (moved_of_step taken)).2 with equal | ⟨-, fewer⟩
    · rw [equal url]
      exact (count_le_one_iff urls once).mpr finds url
    · exact (fewer url).trans (once url)

/-- In every run in which the server repeats one strategy of distinct files and every transfer
succeeds, each file is transferred at most once in every state exactly when nothing is passed
on to the service again while its `InitThread` runs or after its task is unlisted. -/
theorem transferredOnce_iff {first : Option String} {rows : List ThreadInfo} {disk : String × String → List UInt8}
    {es : List Event} (parsed : parseXmlFromText terminal.parseText xmlText = .ok (some served))
    (distinct : DistinctFiles served)
    (repeating : Steps (step terminal) (Repeats xmlText resource) (.start terminal first rows disk) es) :
    Throughout (step terminal) TransferredOnce (.start terminal first rows disk) es ↔
      Steps (step terminal) (FindsTask terminal) (.start terminal first rows disk) es := by
  have agree : ∀ s event, Pending s.manager ∧ TransferredOnce s → Repeats xmlText resource s event →
      ((∀ s', step terminal s event = some s' → TransferredOnce s') ↔ FindsTask terminal s event) :=
    fun s event inv repeated => findsTask_iff parsed distinct inv.1 inv.2 repeated
  have preserved : ∀ s event s', Pending s.manager ∧ TransferredOnce s → Repeats xmlText resource s event →
      FindsTask terminal s event → TransferredOnce s' → step terminal s event = some s' →
      Pending s'.manager ∧ TransferredOnce s' := fun s event s' inv _ _ next taken =>
    ⟨(transfers_moved inv.1 (moved_of_step taken)).1, next⟩
  have once : TransferredOnce (.start terminal first rows disk) := fun url => Nat.zero_le 1
  have start : Pending (System.start terminal first rows disk).manager ∧
      TransferredOnce (.start terminal first rows disk) := ⟨List.nodup_nil, once⟩
  exact throughout_congr agree preserved start once repeating

end

instance (terminal : Terminal) (s : System) (event : Event) : Decidable (FindsTask terminal s event) :=
  inferInstanceAs (Decidable (∀ info ∈ _, _))

instance (xmlText : String) (resource : String → List UInt8) (s : System) :
    DecidablePred (Repeats xmlText resource s)
  | .fetched text => inferInstanceAs (Decidable (text = xmlText))
  | .service event => inferInstanceAs (Decidable (Succeeding resource s.manager.service event))
  | .polled _ | .saved | .connected => isTrue trivial

instance (served : AdMediaInfo) : Decidable (DistinctFiles served) :=
  inferInstanceAs (Decidable (∀ _ _ : MediaKind, _))

/-- A server with one strategy of two videos, each of one byte. -/
def twoVideos : Terminal := terminalFor [("both", strategyElement [("1", "a.mp4"), ("2", "b.mp4")] [])]

def oneByte : String → List UInt8 := fun _ => [7]

/-- The second poll comes while both tasks are listed, and the third when both are finished. -/
def inStep : List Event :=
  polls "both" ++ [.connected, .service .dispatch, initThread 1, initThread 0, .service .dispatch, .service .dispatch] ++
    polls "both" ++ completes 0 ++ completes 1 ++ polls "both"

theorem inStep_transferredOnce :
    Throughout (step twoVideos) TransferredOnce (.start twoVideos none [] fun _ => []) inStep := by
  have strategy : ∃ served, parseXmlFromText twoVideos.parseText "both" = .ok (some served) ∧ DistinctFiles served :=
    ⟨_, rfl, by decide +kernel⟩
  obtain ⟨served, parsed, distinct⟩ := strategy
  have repeating : Steps (step twoVideos) (Repeats "both" oneByte) (.start twoVideos none [] fun _ => []) inStep := by
    decide +kernel
  exact (transferredOnce_iff parsed distinct repeating).mpr (by decide +kernel)

/-- The second poll comes when one video is complete, and the other is not begun. -/
def halfway : List Event :=
  polls "both" ++ [.connected, .service .dispatch, initThread 1, .service .dispatch] ++ completes 0 ++ polls "both"

/-- The complete video is transferred again. -/
theorem halfway_transferred_again : ∃ served,
    parseXmlFromText twoVideos.parseText "both" = .ok (some served) ∧ DistinctFiles served ∧
      Steps (step twoVideos) (Repeats "both" oneByte) (.start twoVideos none [] fun _ => []) halfway ∧
      ¬ Throughout (step twoVideos) TransferredOnce (.start twoVideos none [] fun _ => []) halfway := by
  refine ⟨_, rfl, by decide +kernel, by decide +kernel, fun all => ?_⟩
  have ends : (run (step twoVideos) (.start twoVideos none [] fun _ => []) halfway).any (fun s =>
      s.manager.service.tasks.any (fun entry => entry.completions = 1 && !entry.listed) &&
        1 < s.manager.service.transfers "http://aokai.lymatrix.com/media/a.mp4") = true := by
    decide +kernel
  obtain ⟨s, whole, again⟩ := (Option.any_eq_true _ _).mp ends
  have twice := of_decide_eq_true (Bool.and_eq_true_iff.mp again).2
  have once := all halfway [] (List.append_nil _).symm s whole "http://aokai.lymatrix.com/media/a.mp4"
  omega

end AdTerminal.Update
