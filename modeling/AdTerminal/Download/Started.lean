import AdTerminal.Download.Served
import AdTerminal.Download.DownloadManager

/-! The transfers a service has started, and the files they write. A request starts one of
its own unless a task of its URL is listed; whether one is listed does not depend on the
requests made since. What is written is the file of a task that is prepared. -/

namespace AdTerminal.Download
open Transition ListUpdate

variable {κ : Type} {w w' : Service κ}

namespace Service

/-- The transfers of a URL: the waiting `InitThread`s, the prepared tasks and all tasks made,
the finished ones among them. -/
def transfers (w : Service κ) (url : String) : Nat := (w.accepted.map TaskInfo.url).count url

/-- A request that starts a transfer of its own. -/
def starts (w : Service κ) (info : TaskInfo κ) : Bool := (w.find? info.url).isNone

/-- Whether a task is listed, and its URL. -/
def listing (w : Service κ) : List (Bool × String) := w.tasks.map fun entry => (entry.listed, entry.task.taskInfo.url)

theorem starts_iff (w : Service κ) (info : TaskInfo κ) :
    w.starts info = true ↔ ∀ both ∈ w.listing, both.1 = true → both.2 ≠ info.url := by
  rw [listing, List.forall_mem_map, starts, Option.isNone_iff_eq_none]
  constructor
  · intro absent entry member listed
    exact find?_eq_none absent member listed
  · intro others
    cases found : w.find? info.url with
    | none => rfl
    | some both =>
      obtain ⟨present, listed, same⟩ := of_find? found
      exact absurd same (others both.2 (List.mem_of_getElem? present) listed)

theorem starts_congr (same : w'.listing = w.listing) : w'.starts = w.starts := by
  funext info
  rw [Bool.eq_iff_iff, starts_iff, starts_iff, same]

theorem listing_download (w : Service κ) (info : TaskInfo κ) : (w.download info).listing = w.listing := by
  unfold download
  split
  next k entry found =>
    split
    · exact map_set_eq (of_find? found).1 rfl
    · rfl
  next => rfl

theorem accepted_download (w : Service κ) (info : TaskInfo κ) :
    (w.download info).accepted.Perm ([info].filter w.starts ++ w.accepted) := by
  rw [List.filter_singleton, starts]
  unfold download
  split
  next k entry found =>
    rw [found]
    split
    · exact accepted_congr rfl (pairs_congr rfl (map_set_eq (of_find? found).1 rfl))
    · exact .refl _
  next absent =>
    rw [absent]
    change ((w.inits ++ [info]) ++ w.pairs.map Prod.fst).Perm (info :: (w.inits ++ w.pairs.map Prod.fst))
    rw [List.append_assoc]
    exact List.perm_middle

end Service

theorem Service.transfers_download (w : Service κ) (info : TaskInfo κ) (url : String) :
    (w.download info).transfers url = (if w.starts info = true ∧ info.url = url then 1 else 0) + w.transfers url := by
  have counted := ((w.accepted_download info).map TaskInfo.url).count_eq url
  rw [transfers, counted, List.map_append, List.count_append, transfers, List.filter_singleton]
  by_cases starts : w.starts info = true
  · simp [starts, List.count_singleton, beq_iff_eq]
  · simp [starts]

/-- Requests passed on one after the other, the last one first. -/
theorem accepted_foldr (w : Service κ) (infos : List (TaskInfo κ)) :
    (infos.foldr (fun info service => service.download info) w).accepted.Perm (infos.filter w.starts ++ w.accepted) ∧
      (infos.foldr (fun info service => service.download info) w).listing = w.listing := by
  induction infos with
  | nil => exact ⟨.refl _, rfl⟩
  | cons info infos ih =>
    refine ⟨?_, (Service.listing_download _ info).trans ih.2⟩
    have split : (info :: infos).filter w.starts = [info].filter w.starts ++ infos.filter w.starts :=
      List.filter_append [info] infos
    have next := Service.accepted_download (infos.foldr (fun info service => service.download info) w) info
    rw [Service.starts_congr ih.2] at next
    rw [split, List.append_assoc]
    exact next.trans (ih.1.append_left _)

/-- An `InitThread` may make that task of the request. -/
def Prepares (request info : TaskInfo κ) : Prop :=
  ∃ code contentLength directory header, InitThread.run request code contentLength directory header = some info

/-- Only a request starts an `InitThread`. -/
theorem inits_of_stepped {event : ServiceEvent κ} (stepped : Stepped w event w') :
    w'.inits.Sublist w.inits ∨ ∃ info, event = .download info ∧ w'.inits = w.inits ++ [info] := by
  cases stepped with
  | requested info absent => exact Or.inr ⟨info, rfl, rfl⟩
  | prepared i => exact Or.inl (List.eraseIdx_sublist w.inits i)
  | notPrepared event i => exact Or.inl (List.eraseIdx_sublist w.inits i)
  | killed => exact Or.inl (List.nil_sublist _)
  | _ => exact Or.inl (.refl _)

/-- Only an `InitThread` that is accepted prepares a task. -/
theorem pairs_of_stepped {event : ServiceEvent κ} (stepped : Stepped w event w') :
    w'.pairs.Subperm w.pairs ∨ ∃ (i : Nat) (request info : TaskInfo κ), w.inits[i]? = some request ∧
      Prepares request info ∧ w'.inits = w.inits.eraseIdx i ∧ w'.pairs.Perm ((request, info) :: w.pairs) := by
  have same : w'.queue.filterMap Message.pair? = w.queue.filterMap Message.pair? →
      (w'.tasks.map fun entry => (entry.request, entry.task.taskInfo)) =
        (w.tasks.map fun entry => (entry.request, entry.task.taskInfo)) → w'.pairs.Subperm w.pairs := by
    intro queue tasks
    rw [Service.pairs_congr queue tasks]
  cases stepped with
  | restarted info k entry found => exact Or.inl (same rfl (map_set_eq (Service.of_find? found).1 rfl))
  | pausedTask url k entry found => exact Or.inl (same rfl (map_set_eq (Service.of_find? found).1 rfl))
  | ignored | requested | pausedNothing | notPrepared => exact Or.inl (.refl _)
  | lowMemory =>
    refine Or.inl (same rfl ?_)
    rw [Service.onLowMemory, List.map_map]
    apply List.map_congr_left
    intro entry _
    simp only [Function.comp]
    split <;> rfl
  | prepared i request info code contentLength directory header waiting accepted =>
    refine Or.inr ⟨i, request, info, waiting, ⟨_, _, _, _, accepted⟩, rfl, ?_⟩
    exact pairs_prepared rfl rfl
  | created request info rest first =>
    refine Or.inl (List.Perm.subperm ?_)
    exact pairs_created first rfl rfl rfl
  | completed k progress rest entry first present =>
    exact Or.inl (same (pairs_handled first rfl) (map_set_eq present rfl))
  | progressed k progress rest first => exact Or.inl (same (pairs_handled first rfl) rfl)
  | unlisted url rest k entry first found =>
    exact Or.inl (same (pairs_handled first rfl) (map_set_eq (Service.of_find? found).1 rfl))
  | unlistedNothing url rest first => exact Or.inl (same (pairs_handled first rfl) rfl)
  | bindSuccess rest first => exact Or.inl (same (pairs_handled first rfl) rfl)
  | broadcast i url sent =>
    refine Or.inl (same ?_ rfl)
    simp [Message.pair?]
  | ran k i event entry thread thread' action outcome present started ran performed =>
    refine Or.inl (same ?_ ?_)
    · exact pairs_posted rfl
    · exact map_set_eq present (congrArg (Prod.mk entry.request) performed.taskInfo)
  | killed => exact Or.inl List.nil_subperm

/-- A file that changes is that of a prepared task. -/
theorem disk_of_stepped {event : ServiceEvent κ} (stepped : Stepped w event w') {file : String × String}
    (changed : w'.disk file ≠ w.disk file) : ∃ pair, (pair ∈ w.pairs ∨ pair ∈ w'.pairs) ∧ pair.2.file = file := by
  cases stepped with
  | prepared i request info =>
    by_cases own : info.file = file
    · refine ⟨(request, info), Or.inr (List.mem_append_left _ ?_), own⟩
      exact List.mem_filterMap.mpr ⟨.init request info, List.mem_append_right _ List.mem_cons_self, rfl⟩
    · exact absurd (Function.update_of_ne (Ne.symm own) ..) changed
  | ran k i event entry thread thread' action outcome present =>
    by_cases own : entry.task.taskInfo.file = file
    · exact ⟨_, Or.inl (accepted_of_member present).1, own⟩
    · exact absurd (Function.update_of_ne (Ne.symm own) ..) changed
  | _ => exact absurd rfl changed

/-- A step that is no request starts no transfer, and may give up one that is not prepared. -/
theorem accepted_of_stepped {event : ServiceEvent κ} (stepped : Stepped w event w')
    (caller : ∀ info, event ≠ .download info) : w'.accepted.Subperm w.accepted := by
  have inits : w'.inits.Sublist w.inits :=
    (inits_of_stepped stepped).resolve_right fun ⟨info, requested, _⟩ => caller info requested
  rcases pairs_of_stepped stepped with fewer | ⟨i, request, info, waiting, -, erased, pairs⟩
  · obtain ⟨left, perm, sublist⟩ := fewer
    refine ⟨w'.inits ++ left.map Prod.fst, (perm.map _).append_left _, inits.append (sublist.map _)⟩
  · obtain ⟨bound, same⟩ := List.getElem?_eq_some_iff.mp waiting
    have restored := List.getElem_cons_eraseIdx_perm bound
    rw [same] at restored
    have accepted : w'.accepted.Perm w.accepted := by
      rw [Service.accepted, erased]
      apply ((pairs.map Prod.fst).append_left _).trans
      exact List.perm_middle.trans (restored.append_right _)
    exact accepted.subperm

section
variable {P : TaskInfo κ → Prop} {D : String × String → Prop} {m m' : Manager κ}

/-- All requests that wait are of one kind, and all files that are written of another. -/
structure Service.Writes (P : TaskInfo κ → Prop) (D : String × String → Prop) (w : Service κ) : Prop where
  waiting : ∀ info ∈ w.inits, P info
  prepared : ∀ pair ∈ w.pairs, D pair.2.file
  onDisk : ∀ file, w.disk file ≠ [] → D file

structure Manager.Writes (P : TaskInfo κ → Prop) (D : String × String → Prop) (m : Manager κ) : Prop where
  pending : ∀ info ∈ m.mListTask, P info
  service : m.service.Writes P D

theorem Service.Writes.stepped (prepares : ∀ request info, P request → Prepares request info → D info.file)
    (writes : w.Writes P D) {event : ServiceEvent κ} (stepped : Stepped w event w')
    (made : ∀ info, event = .download info → P info) : w'.Writes P D := by
  have prepared : ∀ pair ∈ w'.pairs, D pair.2.file := by
    intro pair member
    rcases pairs_of_stepped stepped with fewer | ⟨i, request, info, waiting, accepted, -, pairs⟩
    · exact writes.prepared pair (fewer.subset member)
    · rcases List.mem_cons.mp (pairs.mem_iff.mp member) with rfl | old
      · exact prepares request info (writes.waiting request (List.mem_of_getElem? waiting)) accepted
      · exact writes.prepared pair old
  refine ⟨?_, prepared, ?_⟩
  · intro info member
    rcases inits_of_stepped stepped with fewer | ⟨new, requested, inits⟩
    · exact writes.waiting info (fewer.subset member)
    · rw [inits] at member
      rcases List.mem_append.mp member with old | only
      · exact writes.waiting info old
      · rw [List.mem_singleton.mp only]
        exact made new requested
  · intro file present
    by_cases changed : w'.disk file = w.disk file
    · rw [changed] at present
      exact writes.onDisk file present
    · obtain ⟨pair, member, rfl⟩ := disk_of_stepped stepped changed
      exact member.elim (writes.prepared pair) (prepared pair)

/-- Messages that announce no task come and go. -/
theorem Service.Writes.queue (writes : w.Writes P D) {queue : List (Message κ)}
    (same : queue.filterMap Message.pair? = w.queue.filterMap Message.pair?) : { w with queue }.Writes P D := by
  have pairs : ({ w with queue } : Service κ).pairs = w.pairs := pairs_congr same rfl
  refine ⟨writes.waiting, ?_, writes.onDisk⟩
  rw [pairs]
  exact writes.prepared

theorem Manager.Writes.managed (prepares : ∀ request info, P request → Prepares request info → D info.file)
    (writes : m.Writes P D) {event : ManagerEvent κ} (managed : Managed m event m')
    (made : ∀ url filePath fileName download, event = .startDownload url filePath fileName download →
      P (.made url filePath fileName download)) : m'.Writes P D := by
  have asked : ∀ {w : Service κ} {info : TaskInfo κ}, w.Writes P D → P info → (w.download info).Writes P D := by
    intro w info before allowed
    have stepped : Stepped w (.download info) (w.download info) := stepped_of_step rfl
    apply before.stepped prepares stepped
    rintro other ⟨⟩
    exact allowed
  cases managed with
  | empty | waits | leftOut => exact ⟨writes.pending, writes.service⟩
  | passedOn url filePath fileName download =>
    exact ⟨writes.pending, asked writes.service (made url filePath fileName download rfl)⟩
  | pended url filePath fileName download =>
    refine ⟨?_, writes.service⟩
    intro info member
    rcases List.mem_append.mp member with old | only
    · exact writes.pending info old
    · rw [List.mem_singleton.mp only]
      exact made url filePath fileName download rfl
  | pauseDownload url =>
    unfold Manager.pauseDownload
    split
    · have stepped : Stepped m.service (.pause url) (m.service.pause url) := stepped_of_step rfl
      refine ⟨writes.pending, writes.service.stepped prepares stepped ?_⟩
      rintro info ⟨⟩
    · exact writes
  | connected =>
    refine ⟨writes.pending, writes.service.queue ?_⟩
    simp [Message.pair?]
  | drained rest running first =>
    refine ⟨by simp, ?_⟩
    have before := writes.service.queue (pairs_handled first rfl)
    have pending := writes.pending
    generalize m.mListTask = infos at pending
    induction infos with
    | nil => exact before
    | cons info infos ih =>
      have rest := ih fun other member => pending other (List.mem_cons_of_mem _ member)
      exact asked rest (pending info List.mem_cons_self)
  | drainWaits rest running first => exact ⟨writes.pending, writes.service.queue (pairs_handled first rfl)⟩
  | killed => exact ⟨by simp, ⟨by simp, by simp [Service.pairs], writes.service.onDisk⟩⟩
  | followed event service stepped running survived caller =>
    refine ⟨writes.pending, writes.service.stepped prepares stepped ?_⟩
    exact fun info requested => absurd requested (caller info)

end

end AdTerminal.Download
