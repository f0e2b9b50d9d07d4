import AdTerminal.Strategy.UpdateRun

/-! One update on its own. The switch-over of a kind of media hangs on the completion of
its last download, so an update that only withdraws files of a kind never takes effect. -/

namespace AdTerminal.Strategy
open Transition ListUpdate

variable {terminal : Terminal} {w w' : World} {oldMedia newMedia : AdMediaInfo}

/-- The same ids with the same file names and attributes. -/
def SameEntries (first second : AdMediaInfo) (kind : MediaKind) : Prop :=
  ∀ id, (first.container kind).lookup id = (second.container kind).lookup id

/-- The strategy in force has exactly the files of `newMedia`. -/
def Converged (w : World) (newMedia : AdMediaInfo) : Prop :=
  ∃ info, w.adMediaInfo = some info ∧ ∀ kind, SameEntries info newMedia kind

/-- The events of one update, in any order: its handler stores the text, its downloads
arrive and are reported, and polls may come in between. -/
def Event.Continues : Event → Prop
  | .polled _ | .saved | .transferred .. | .reported .. => True
  | .fetched _ | .killed => False

/-- The update of receiver `i` from `oldMedia` to `newMedia`, while no other is open:
each kind of media holds the new container from its last completion on. -/
def Updating (oldMedia newMedia : AdMediaInfo) (i : Nat) (w : World) : Prop :=
  w.crashed = false ∧ w.Counted ∧
  (∀ (j : Nat) (r : MediaUpdateReceiver), w.receivers[j]? = some r → j ≠ i → ∀ kind, (r.batch kind).Settled) ∧
  ∃ receiver info, w.receivers[i]? = some receiver ∧ receiver.newMediaInfo = newMedia ∧
    w.adMediaInfo = some info ∧ ∀ kind,
      (receiver.batch kind).downloadSet = getSetDifference (newMedia.ids kind) (oldMedia.ids kind) ∧
      (receiver.batch kind).deleteSet = getSetDifference (oldMedia.ids kind) (newMedia.ids kind) ∧
      info.container kind =
        if (receiver.batch kind).Finished then newMedia.container kind else oldMedia.container kind

theorem updating_start {xmlText : String} (idle : w.crashed = false ∧ w.Settled) (counted : w.Counted)
    (active : w.adMediaInfo = some oldMedia)
    (parsed : parseXmlFromText terminal.parseText xmlText = .ok (some newMedia))
    (taken : step terminal w (.fetched xmlText) = some w') :
    Updating oldMedia newMedia w.receivers.length w' := by
  have counted' := counted_step counted taken
  obtain ⟨-, rfl⟩ := step_fetched taken
  rw [handler_of_parsed parsed active] at counted' ⊢
  refine ⟨idle.1, counted', ?_, _, oldMedia, List.getElem?_concat_length, rfl, active, ?_⟩
  · intro j r found different kind
    rcases mem_append_cases found with before | ⟨same, -⟩
    · exact idle.2.2 r (List.mem_of_getElem? before) kind
    · exact absurd same different
  · intro kind
    refine ⟨rfl, rfl, (if_neg ?_).symm⟩
    rintro ⟨positive, reached⟩
    change (process terminal oldMedia newMedia kind).totalTaskNum ≤ 0 at reached
    exact absurd (Nat.lt_of_lt_of_le positive reached) (Nat.lt_irrefl 0)

theorem not_settled_of_transferring {batch : Batch} {n : Nat} {download : Download}
    (under : batch.transferring[n]? = some download) : ¬ batch.Settled := by
  intro settled
  simp [settled.1] at under

theorem not_settled_of_arrived {batch : Batch} {n : Nat} {download : Download}
    (waiting : batch.arrived[n]? = some download) : ¬ batch.Settled := by
  intro settled
  simp [settled.2] at waiting

/-- Replacing receiver `i` leaves the others as they were. -/
theorem others_set {receivers : List MediaUpdateReceiver} {i : Nat} {receiver : MediaUpdateReceiver}
    (others : ∀ (j : Nat) (r : MediaUpdateReceiver), receivers[j]? = some r → j ≠ i →
      ∀ kind, (r.batch kind).Settled) (j : Nat) (r : MediaUpdateReceiver)
    (found : (receivers.set i receiver)[j]? = some r) (different : j ≠ i) (kind : MediaKind) :
    (r.batch kind).Settled := by
  rcases mem_set_cases found with ⟨same, -⟩ | ⟨-, before⟩
  · exact absurd same different
  · exact others j r before different kind

theorem updating_transferred {i j n : Nat} {kind : MediaKind} (updating : Updating oldMedia newMedia i w)
    (taken : step terminal w (.transferred j kind n) = some w') : Updating oldMedia newMedia i w' := by
  obtain ⟨alive, counted, others, receiver, info, present, target, active, sets⟩ := updating
  have counted' := counted_step counted taken
  obtain ⟨r, download, -, found, under, rfl⟩ := step_transferred taken
  have same : j = i := by
    by_contra different
    exact not_settled_of_transferring under (others j r found different kind)
  subst same
  obtain rfl := Option.some.inj (present.symm.trans found)
  have present' := List.getElem?_set_self
    (a := receiver.setBatch kind ((receiver.batch kind).transferred n download))
    (List.getElem?_eq_some_iff.mp present).1
  refine ⟨alive, counted', others_set others, _, info, present', target, active, ?_⟩
  intro k
  by_cases touched : k = kind
  · subst touched
    simp only [MediaUpdateReceiver.setBatch, Function.update_self]
    exact sets k
  · simpa only [MediaUpdateReceiver.setBatch, Function.update_of_ne touched] using sets k

/-- Reporting a download counts it, and the last one of a kind switches that kind over.
The ids deleted then are those of the container that is still the old one. -/
theorem updating_reported {i j n : Nat} {kind : MediaKind} (updating : Updating oldMedia newMedia i w)
    (taken : step terminal w (.reported j kind n) = some w') : Updating oldMedia newMedia i w' := by
  obtain ⟨alive, counted, others, receiver, info, present, target, active, sets⟩ := updating
  have counted' := counted_step counted taken
  obtain ⟨r, download, -, found, waiting, rfl⟩ := step_reported taken
  have same : j = i := by
    by_contra different
    exact not_settled_of_arrived waiting (others j r found different kind)
  subst same
  obtain rfl := Option.some.inj (present.symm.trans found)
  have present' := List.getElem?_set_self (a := receiver.setBatch kind ((receiver.batch kind).reported n))
    (List.getElem?_eq_some_iff.mp present).1
  obtain ⟨positive, below⟩ := (counted j receiver present kind).pending waiting
  by_cases last : (receiver.batch kind).totalTaskNum ≤ (receiver.batch kind).finishedNum + 1
  · rw [onDownloadFinished_last active last] at counted' ⊢
    have held : info.container kind = oldMedia.container kind := by
      rw [(sets kind).2.2, if_neg]
      rintro ⟨-, reached⟩
      omega
    refine ⟨?_, counted', others_set others, _, _, present', target, rfl, ?_⟩
    · rw [← Bool.not_eq_true, deleteFiles_throws]
      rintro ⟨id, member, absent⟩
      rw [(sets kind).2.1, mem_getSetDifference] at member
      exact absent (by simpa only [AdMediaInfo.ids, held] using member.1)
    · intro k
      by_cases touched : k = kind
      · subst touched
        simp only [MediaUpdateReceiver.setBatch, Function.update_self, AdMediaInfo.container_setContainer_self,
          target]
        exact ⟨(sets k).1, (sets k).2.1, (if_pos ⟨positive, last⟩).symm⟩
      · simpa only [MediaUpdateReceiver.setBatch, Function.update_of_ne touched,
          AdMediaInfo.container_setContainer_other info touched] using sets k
  · rw [onDownloadFinished_early last] at counted' ⊢
    refine ⟨alive, counted', others_set others, _, info, present', target, active, ?_⟩
    intro k
    by_cases touched : k = kind
    · subst touched
      simp only [MediaUpdateReceiver.setBatch, Function.update_self]
      refine ⟨(sets k).1, (sets k).2.1, (sets k).2.2.trans ?_⟩
      rw [if_neg, if_neg]
      · exact fun finished => last finished.2
      · exact fun finished => last (finished.2.trans (Nat.le_succ _))
    · simpa only [MediaUpdateReceiver.setBatch, Function.update_of_ne touched] using sets k

theorem updating_step {i : Nat} {e : Event} (updating : Updating oldMedia newMedia i w)
    (continues : e.Continues) (taken : step terminal w e = some w') : Updating oldMedia newMedia i w' := by
  cases e with
  | polled scheduleId =>
    obtain ⟨-, rfl⟩ := step_polled taken
    obtain ⟨alive, counted, others, receiver, info, present, target, active, sets⟩ := updating
    rw [webRequest_of_active active]
    exact ⟨alive, counted, others, receiver, _, present, target, rfl, by simpa using sets⟩
  | saved =>
    obtain ⟨text, -, -, rfl⟩ := step_saved taken
    exact updating
  | transferred j kind n => exact updating_transferred updating taken
  | reported j kind n => exact updating_reported updating taken
  | fetched xmlText => exact continues.elim
  | killed => exact continues.elim

/-- Each kind of media has something to download, or nothing to change. -/
def TakesEffect (oldMedia newMedia : AdMediaInfo) : Prop :=
  ∀ kind, (∃ id ∈ newMedia.ids kind, id ∉ oldMedia.ids kind) ∨ SameEntries oldMedia newMedia kind

/-- At the end of an update each kind holds the new container if it had a download, and
otherwise still the old one. -/
theorem updating_settled {i : Nat} (updating : Updating oldMedia newMedia i w) (settled : w.Settled)
    (kind : MediaKind) : ∃ info, w.adMediaInfo = some info ∧ info.container kind =
      if ∃ id ∈ newMedia.ids kind, id ∉ oldMedia.ids kind then newMedia.container kind
      else oldMedia.container kind := by
  obtain ⟨-, counted, -, receiver, info, present, -, active, sets⟩ := updating
  refine ⟨info, active, (sets kind).2.2.trans (if_congr ?_ rfl rfl)⟩
  have total := (counted i receiver present kind).1
  have reached := (counted i receiver present kind).finished_of_settled
    (settled.2 receiver (List.mem_of_getElem? present) kind)
  rw [(sets kind).1] at total
  simp only [Batch.Finished, reached, le_refl, and_true, total, List.length_pos_iff_exists_mem,
    mem_getSetDifference]

/-- When every download an update started has been reported, in whatever order, the
strategy in force is the new one exactly if each kind had something to download or
nothing to change. -/
theorem update_converges_iff {handled done : World} {xmlText : String} {es : List Event}
    (idle : w.crashed = false ∧ w.Settled) (counted : w.Counted) (active : w.adMediaInfo = some oldMedia)
    (parsed : parseXmlFromText terminal.parseText xmlText = .ok (some newMedia))
    (taken : step terminal w (.fetched xmlText) = some handled) (continues : ∀ e ∈ es, e.Continues)
    (whole : run (step terminal) handled es = some done) (settled : done.Settled) :
    Converged done newMedia ↔ TakesEffect oldMedia newMedia := by
  have steps : Steps (step terminal) (fun _ e => e.Continues) handled es := Steps.of_forall continues
  have updating : Updating oldMedia newMedia w.receivers.length done :=
    run_invariant (fun s e t inv ok next => updating_step inv ok next)
      (updating_start idle counted active parsed taken) steps whole
  constructor
  · rintro ⟨info, held, same⟩ kind
    obtain ⟨info', held', container⟩ := updating_settled updating settled kind
    obtain rfl := Option.some.inj (held.symm.trans held')
    by_cases work : ∃ id ∈ newMedia.ids kind, id ∉ oldMedia.ids kind
    · exact Or.inl work
    · rw [if_neg work] at container
      exact Or.inr fun id => container ▸ same kind id
  · intro effect
    obtain ⟨info, held, -⟩ := updating_settled updating settled .video
    refine ⟨info, held, fun kind id => ?_⟩
    obtain ⟨info', held', container⟩ := updating_settled updating settled kind
    obtain rfl := Option.some.inj (held.symm.trans held')
    rw [container]
    split
    · rfl
    next idle => exact (effect kind).resolve_left idle id

/-- A server with two strategies, of which one lists a video more. -/
def twoStrategies : Terminal := terminalFor [
  ("two", strategyElement [("1", "a.mp4"), ("2", "b.mp4")] [("3", "c.png")]),
  ("one", strategyElement [("1", "a.mp4")] [("3", "c.png")])]

def additionStart : World := restart twoStrategies (some "one") (twoStrategies.places ["a.mp4", "c.png"])

theorem addition_converges : ∃ done newMedia,
    run (step twoStrategies) additionStart
      [.fetched "two", .saved, .transferred 0 .video 0, .reported 0 .video 0] = some done ∧
    parseXmlFromText twoStrategies.parseText "two" = .ok (some newMedia) ∧ Converged done newMedia := by
  have idle : additionStart.crashed = false ∧ additionStart.Settled := by decide
  have taken : step twoStrategies additionStart (.fetched "two") =
    some (mediaStrategyUpdateHandler twoStrategies additionStart "two") := rfl
  have continues : ∀ e ∈ [Event.saved, .transferred 0 .video 0, .reported 0 .video 0], e.Continues := by
    simp [Event.Continues]
  refine ⟨_, _, rfl, rfl, ?_⟩
  refine (update_converges_iff idle (counted_restart _ _) rfl rfl taken continues rfl (by decide)).mpr ?_
  intro kind
  cases kind with
  | video => exact Or.inl ⟨some "2", by decide, by decide⟩
  | image => exact Or.inr fun _ => rfl

/-- The withdrawn video stays in force: nothing is downloaded, so nothing is ever reported. -/
theorem withdrawal_never_converges : ∃ done newMedia,
    run (step twoStrategies) (restart twoStrategies (some "two") (twoStrategies.places ["a.mp4", "b.mp4", "c.png"]))
      [.fetched "one", .saved] = some done ∧
    parseXmlFromText twoStrategies.parseText "one" = .ok (some newMedia) ∧
    done.crashed = false ∧ done.Settled ∧ ¬ Converged done newMedia := by
  refine ⟨_, _, rfl, rfl, rfl, by decide, ?_⟩
  rintro ⟨info, held, same⟩
  obtain rfl := Option.some.inj held
  exact absurd (same .video (some "2")) (by decide)

end AdTerminal.Strategy
