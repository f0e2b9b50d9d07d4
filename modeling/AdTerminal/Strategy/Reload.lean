import AdTerminal.Strategy.BadResponse
import AdTerminal.Strategy.Convergence

/-! The strategy in force against the stored one. An update carries over the two containers
only; the play intervals, the version and the template stay those of the last start, while
the whole text is stored. -/

namespace AdTerminal.Strategy
open Transition

/-- The same attributes and the same set of files. -/
structure OneVideoInterval.Same (first second : OneVideoInterval) : Prop where
  id : first.id = second.id
  begin : first.begin = second.begin
  end_ : first.end_ = second.end_
  prime_time : first.prime_time = second.prime_time
  fileContainer : ∀ id, id ∈ first.fileContainer.1 ↔ id ∈ second.fileContainer.1

structure OneImageInterval.Same (first second : OneImageInterval) : Prop where
  id : first.id = second.id
  begin : first.begin = second.begin
  end_ : first.end_ = second.end_
  prime_time : first.prime_time = second.prime_time
  fileContainer : ∀ id, id ∈ first.fileContainer.1 ↔ id ∈ second.fileContainer.1

/-- The same play intervals, version and template. -/
structure SamePlan (first second : AdMediaInfo) : Prop where
  videoIntervalContainer : ∀ id, Option.Rel OneVideoInterval.Same (first.videoIntervalContainer.lookup id)
    (second.videoIntervalContainer.lookup id)
  imageIntervalContainer : ∀ id, Option.Rel OneImageInterval.Same (first.imageIntervalContainer.lookup id)
    (second.imageIntervalContainer.lookup id)
  ver : first.ver = second.ver
  templet : first.templet = second.templet

/-- What an update does not carry over. -/
def AdMediaInfo.plan (info : AdMediaInfo) :
    HashMap Text OneVideoInterval × HashMap Text OneImageInterval × Text × Text :=
  (info.videoIntervalContainer, info.imageIntervalContainer, info.ver, info.templet)

/-- A restart now would find the strategy in force again. -/
def Agrees (terminal : Terminal) (w : World) : Prop :=
  ∃ live reloaded, w.adMediaInfo = some live ∧ (restart terminal w.xmlText w.files).adMediaInfo = some reloaded ∧
    (∀ kind, SameEntries live reloaded kind) ∧ SamePlan live reloaded

/-- What follows on each other in the life of the terminal. -/
inductive Episode where
  /-- An update, with the events after its handler up to its completion. -/
  | updated (xmlText : String) (rest : List Event)
  | restarted

instance : DecidablePred Event.Continues
  | .polled _ | .saved | .transferred .. | .reported .. => isTrue trivial
  | .fetched _ | .killed => isFalse id

/-- The terminal after an episode. An update has to run to completion. -/
def episode (terminal : Terminal) (w : World) : Episode → Option World
  | .updated xmlText rest =>
    if ∀ e ∈ rest, e.Continues then
      (run (step terminal) w (.fetched xmlText :: rest)).filter fun done => done.crashed = false ∧ done.Settled
    else none
  | .restarted => some (restart terminal w.xmlText w.files)

/-- A completed update takes effect on both kinds of files and does not change the play
intervals, the version and the template. -/
def CarriedOver (terminal : Terminal) (w : World) : Episode → Prop
  | .updated xmlText rest => (episode terminal w (.updated xmlText rest)).isSome →
      ∀ oldMedia newMedia, w.adMediaInfo = some oldMedia →
        parseXmlFromText terminal.parseText xmlText = .ok (some newMedia) →
        TakesEffect oldMedia newMedia ∧ SamePlan oldMedia newMedia
  | .restarted => True

section
variable {terminal : Terminal} {w w' done : World} {oldMedia newMedia : AdMediaInfo} {xmlText : String}

theorem OneVideoInterval.Same.rfl (interval : OneVideoInterval) : interval.Same interval :=
  ⟨.refl _, .refl _, .refl _, .refl _, fun _ => Iff.rfl⟩

theorem OneImageInterval.Same.rfl (interval : OneImageInterval) : interval.Same interval :=
  ⟨.refl _, .refl _, .refl _, .refl _, fun _ => Iff.rfl⟩

theorem SamePlan.rfl (media : AdMediaInfo) : SamePlan media media := by
  refine ⟨fun id => ?_, fun id => ?_, .refl _, .refl _⟩
  · cases media.videoIntervalContainer.lookup id with
    | none => exact .none
    | some interval => exact .some (.rfl interval)
  · cases media.imageIntervalContainer.lookup id with
    | none => exact .none
    | some interval => exact .some (.rfl interval)

@[simp] theorem plan_setContainer (info : AdMediaInfo) (kind : MediaKind) (entries : HashMap Text kind.Info) :
    (info.setContainer kind entries).plan = info.plan := by
  cases kind <;> rfl

theorem samePlan_congr {first second other : AdMediaInfo} (kept : first.plan = second.plan) :
    SamePlan first other ↔ SamePlan second other := by
  simp only [AdMediaInfo.plan, Prod.mk.injEq] at kept
  obtain ⟨video, image, ver, templet⟩ := kept
  constructor
  · intro same
    exact ⟨video ▸ same.1, image ▸ same.2, ver ▸ same.3, templet ▸ same.4⟩
  · intro same
    exact ⟨video ▸ same.1, image ▸ same.2, ver ▸ same.3, templet ▸ same.4⟩

/-- The text of the update is stored or about to be, and the strategy in force keeps its plan. -/
structure Planned (oldMedia : AdMediaInfo) (xmlText : String) (w : World) : Prop where
  stored : w.saving = some xmlText ∨ w.saving = none ∧ w.xmlText = some xmlText
  plan : ∃ info, w.adMediaInfo = some info ∧ info.plan = oldMedia.plan

theorem planned_step {event : Event} (planned : Planned oldMedia xmlText w) (continues : event.Continues)
    (taken : step terminal w event = some w') : Planned oldMedia xmlText w' := by
  obtain ⟨stored, info, active, plan⟩ := planned
  cases event with
  | polled scheduleId =>
    obtain ⟨-, rfl⟩ := step_polled taken
    rw [webRequest_of_active active]
    exact ⟨stored, _, rfl, plan⟩
  | saved =>
    obtain ⟨text, -, saving, rfl⟩ := step_saved taken
    refine ⟨Or.inr ⟨rfl, ?_⟩, info, active, plan⟩
    rcases stored with still | ⟨none, -⟩
    · exact saving.symm.trans still
    · simp [none] at saving
  | transferred i kind n =>
    obtain ⟨receiver, download, -, -, -, rfl⟩ := step_transferred taken
    exact ⟨stored, info, active, plan⟩
  | reported i kind n =>
    obtain ⟨receiver, download, -, -, -, rfl⟩ := step_reported taken
    by_cases last : (receiver.batch kind).totalTaskNum ≤ (receiver.batch kind).finishedNum + 1
    · rw [onDownloadFinished_last active last]
      exact ⟨stored, _, rfl, (plan_setContainer ..).trans plan⟩
    · rw [onDownloadFinished_early last]
      exact ⟨stored, info, active, plan⟩
  | fetched text => exact continues.elim
  | killed => exact continues.elim

/-- Between two episodes nothing is under way. -/
structure Idle (terminal : Terminal) (w : World) : Prop where
  alive : w.crashed = false
  settled : w.Settled
  counted : w.Counted
  known : Known terminal w

theorem idle_restart {stored : Option String}
    (complete : ∀ text, stored = some text → CompleteText terminal.parseText text) (files : Finset FilePath.Place) :
    Idle terminal (restart terminal stored files) := by
  refine ⟨?_, ⟨saving_restart .., by simp [receivers_restart]⟩, counted_restart stored files, known_restart complete files⟩
  cases stored with
  | none => rfl
  | some text =>
    obtain ⟨info, parsed⟩ := parsed_iff_complete.mpr (complete text rfl)
    rw [restart_some parsed]

theorem episode_updated {rest : List Event} (taken : episode terminal w (.updated xmlText rest) = some done) :
    ∃ handled, (∀ e ∈ rest, e.Continues) ∧ step terminal w (.fetched xmlText) = some handled ∧
      run (step terminal) handled rest = some done ∧ done.crashed = false ∧ done.Settled := by
  simp only [episode, Option.ite_none_right_eq_some, Option.filter_eq_some_iff, decide_eq_true_eq] at taken
  obtain ⟨continues, whole, alive, settled⟩ := taken
  obtain ⟨handled, fetched, rest⟩ := run_cons whole
  exact ⟨handled, continues, fetched, rest, alive, settled⟩

/-- A process that has crashed goes through no event of an update. -/
theorem step_crashed (crashed : w.crashed = true) {event : Event} (continues : event.Continues) :
    step terminal w event = none := by
  have busy : ¬ w.MainFree := fun free => Bool.false_ne_true (free.1.symm.trans crashed)
  cases event with
  | polled scheduleId => exact if_neg busy
  | saved => exact if_pos crashed
  | transferred i kind n => exact if_pos crashed
  | reported i kind n => exact if_neg busy
  | fetched text => exact continues.elim
  | killed => exact continues.elim

/-- The handler of a completed update has parsed its text. -/
theorem complete_of_updated {handled : World} {rest : List Event}
    (fetched : step terminal w (.fetched xmlText) = some handled) (continues : ∀ e ∈ rest, e.Continues)
    (whole : run (step terminal) handled rest = some done) (alive : done.crashed = false) :
    CompleteText terminal.parseText xmlText := by
  by_contra incomplete
  obtain ⟨-, rfl⟩ := step_fetched fetched
  rw [handler_of_incomplete incomplete] at whole
  have steps : Steps (step terminal) (fun _ e => e.Continues) { w with crashed := true } rest :=
    Steps.of_forall continues
  have stuck : ∀ (s : World) e t, s.crashed = true → e.Continues → step terminal s e = some t → t.crashed = true := by
    intro s e t crashed ok taken
    simp [step_crashed crashed ok] at taken
  have crashed : done.crashed = true := run_invariant stuck rfl steps whole
  exact Bool.false_ne_true (alive.symm.trans crashed)

/-- A completed update leaves a strategy that a restart finds again exactly when it takes
effect on the files and does not change the plan. -/
theorem agrees_updated_iff {rest : List Event} (idle : Idle terminal w) (active : w.adMediaInfo = some oldMedia)
    (parsed : parseXmlFromText terminal.parseText xmlText = .ok (some newMedia))
    (taken : episode terminal w (.updated xmlText rest) = some done) :
    Agrees terminal done ↔ TakesEffect oldMedia newMedia ∧ SamePlan oldMedia newMedia := by
  obtain ⟨handled, continues, fetched, whole, alive, settled⟩ := episode_updated taken
  have converges := update_converges_iff ⟨idle.alive, idle.settled⟩ idle.counted active parsed fetched continues whole
    settled
  have start : Planned oldMedia xmlText handled := by
    obtain ⟨-, rfl⟩ := step_fetched fetched
    rw [handler_of_parsed parsed active]
    exact ⟨Or.inl rfl, oldMedia, active, rfl⟩
  have steps : Steps (step terminal) (fun _ e => e.Continues) handled rest := Steps.of_forall continues
  obtain ⟨stored, live, held, plan⟩ : Planned oldMedia xmlText done :=
    run_invariant (fun _ _ _ inv ok next => planned_step inv ok next) start steps whole
  have text : done.xmlText = some xmlText := by
    rcases stored with saving | ⟨-, text⟩
    · simp [settled.1] at saving
    · exact text
  have reload : (restart terminal done.xmlText done.files).adMediaInfo = some newMedia := by
    rw [text, restart_some parsed]
  rw [← converges]
  constructor
  · rintro ⟨info, reloaded, same, found, entries, agrees⟩
    obtain rfl := Option.some.inj (held.symm.trans same)
    obtain rfl := Option.some.inj (reload.symm.trans found)
    exact ⟨⟨live, held, entries⟩, (samePlan_congr plan).mp agrees⟩
  · rintro ⟨⟨info, same, entries⟩, agrees⟩
    obtain rfl := Option.some.inj (held.symm.trans same)
    exact ⟨live, newMedia, held, reload, entries, (samePlan_congr plan).mpr agrees⟩

/-- A restarted terminal has the strategy the next restart will find. -/
theorem agrees_restart {stored : Option String}
    (complete : ∀ text, stored = some text → CompleteText terminal.parseText text) (files : Finset FilePath.Place) :
    Agrees terminal (restart terminal stored files) := by
  have idle := idle_restart complete files
  obtain ⟨info, active⟩ := Option.isSome_iff_exists.mp (idle.known.active idle.alive)
  refine ⟨info, info, active, ?_, fun _ _ => .refl _, .rfl info⟩
  rw [xmlText_restart, restart_files stored files]
  exact active

theorem idle_episode {e : Episode} (idle : Idle terminal w) (taken : episode terminal w e = some w') :
    Idle terminal w' := by
  cases e with
  | updated xmlText rest =>
    obtain ⟨handled, continues, fetched, whole, alive, settled⟩ := episode_updated taken
    have steps : Steps (step terminal) (fun _ _ => True) handled rest := Steps.any
    refine ⟨alive, settled, ?_, ?_⟩
    · exact run_invariant (fun _ _ _ inv _ next => counted_step inv next) (counted_step idle.counted fetched) steps whole
    · exact run_invariant (fun _ _ _ inv _ next => known_step inv next) (known_step idle.known fetched) steps whole
  | restarted =>
    obtain rfl := Option.some.inj taken
    exact idle_restart idle.known.stored w.files

theorem agrees_episode_iff {e : Episode} (idle : Idle terminal w) :
    (∀ t, episode terminal w e = some t → Agrees terminal t) ↔ CarriedOver terminal w e := by
  cases e with
  | updated xmlText rest =>
    constructor
    · intro agrees completed oldMedia newMedia active parsed
      obtain ⟨t, taken⟩ := Option.isSome_iff_exists.mp completed
      exact (agrees_updated_iff idle active parsed taken).mp (agrees t taken)
    · intro carried t taken
      obtain ⟨handled, continues, fetched, whole, alive, -⟩ := episode_updated taken
      obtain ⟨oldMedia, active⟩ := Option.isSome_iff_exists.mp (idle.known.active idle.alive)
      obtain ⟨newMedia, parsed⟩ := parsed_iff_complete.mpr (complete_of_updated fetched continues whole alive)
      have completed : (episode terminal w (.updated xmlText rest)).isSome := by rw [taken]; rfl
      exact (agrees_updated_iff idle active parsed taken).mpr (carried completed oldMedia newMedia active parsed)
  | restarted =>
    refine iff_of_true ?_ trivial
    intro t taken
    obtain rfl := Option.some.inj taken
    exact agrees_restart idle.known.stored w.files

end

/-- Over every sequence of completed updates and restarts, from a terminal without a stored
text on: the strategy in force agrees with the stored one after each of them exactly when
each update takes effect on the files and changes neither play intervals nor version nor
template. -/
theorem agrees_iff_carriedOver (terminal : Terminal) (files : Finset FilePath.Place) (episodes : List Episode) :
    Throughout (episode terminal) (Agrees terminal) (restart terminal none files) episodes ↔
      Steps (episode terminal) (CarriedOver terminal) (restart terminal none files) episodes := by
  have start : Idle terminal (restart terminal none files) := idle_restart (by simp) files
  have agree : ∀ w e, Idle terminal w →
      ((∀ t, episode terminal w e = some t → Agrees terminal t) ↔ CarriedOver terminal w e) :=
    fun w e idle => agrees_episode_iff idle
  have preserved : ∀ w e t, Idle terminal w → CarriedOver terminal w e → Agrees terminal t →
      episode terminal w e = some t → Idle terminal t := fun w e t idle _ _ taken => idle_episode idle taken
  exact throughout_iff_steps agree preserved start (agrees_restart (by simp) files)

/-- A server whose strategy has one video, to be played in the morning. -/
def morningTerminal : Terminal := terminalFor [("morning", .node "strategy" [] [
  .node "files" [] [.node "media" [] [fileElement ("1", "a.mp4")], .node "pic" [] []],
  .node "media_play" [] [.node "interval" [("ID", "i"), ("begin", "06:00:00"), ("end", "12:00:00")]
    [.node "file" [("file", "1")] []]],
  .node "pic_play" [] []])]

def morningUpdate : Episode := .updated "morning" [.saved, .transferred 0 .video 0, .reported 0 .video 0]

/-- The morning interval is in force only after a restart. -/
theorem morning_disagrees : ¬ Throughout (episode morningTerminal) (Agrees morningTerminal)
    (restart morningTerminal none ∅) [morningUpdate] := by
  intro all
  have completes : (episode morningTerminal (restart morningTerminal none ∅) morningUpdate).isSome := by
    decide +kernel
  obtain ⟨done, taken⟩ := Option.isSome_iff_exists.mp completes
  have agrees := all [morningUpdate] [] rfl done (by simp [run, taken])
  have idle : Idle morningTerminal (restart morningTerminal none ∅) := idle_restart (by simp) ∅
  have plan := ((agrees_updated_iff idle rfl rfl taken).mp agrees).2
  have intervals := plan.videoIntervalContainer (some "i")
  cases intervals

end AdTerminal.Strategy
