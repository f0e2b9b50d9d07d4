import AdTerminal.Strategy.PlayLists

/-! Playing a stored strategy. A text is accepted whatever its play intervals say, but the
lists for the players throw when an interval cannot be examined, and then at every start. -/

namespace AdTerminal.Strategy
open Transition

/-- The same strategy, its maps and sets in any order of iteration. -/
def Reordered (info other : AdMediaInfo) : Prop := (∀ kind, SameEntries info other kind) ∧ SamePlan info other

/-- Each of the four lists can be built. -/
structure Plays (mgr : MediaStrategyMgr) (time : TimeOfDay) : Prop where
  videoWithCheck : ∃ files, mgr.getVideoListWithIntervalCheck (getCurrentTime time) = .ok files
  imageWithCheck : ∃ files, mgr.getImageListWithIntervalCheck (getCurrentTime time) = .ok files
  video : ∃ files, mgr.getVideoList = .ok files
  image : ∃ files, mgr.getImageList = .ok files

/-- The manager of a new process has a strategy, and its lists can be built at any time. -/
def PlaysAfterRestart (terminal : Terminal) (localMediaFile : MediaKind → List String) (w : World) : Prop :=
  ∃ info, (restart terminal w.xmlText w.files).adMediaInfo = some info ∧ ∀ other, Reordered info other →
    ∀ time, Plays { adMediaInfo := some other, mMediaPath := terminal.mediaPath, localMediaFile } time

/-- Every interval can be examined at any time of day. -/
def AlwaysPlayable (info : AdMediaInfo) : Prop :=
  ∀ kind id interval, (info.intervalContainer kind).lookup id = some interval →
    ∀ time, Playable info kind interval (getCurrentTime time)

theorem mem_intervalsOf {α : Type} {container : HashMap Text α} {interval : α} :
    interval ∈ intervalsOf container ↔ ∃ id, container.lookup id = some interval := by
  constructor
  · intro member
    obtain ⟨entry, present, rfl⟩ := List.mem_map.mp member
    exact ⟨entry.1, AList.mem_lookup_iff.mpr present⟩
  · rintro ⟨id, found⟩
    exact List.mem_map.mpr ⟨⟨id, interval⟩, AList.mem_lookup_iff.mp found, rfl⟩

section
variable {info other : AdMediaInfo}

theorem ids_of_sameEntries {kind : MediaKind} (same : SameEntries info other kind) (id : Text) :
    id ∈ info.ids kind ↔ id ∈ other.ids kind := by
  simp only [AdMediaInfo.mem_ids, AdMediaInfo.file?, same id]

/-- Whether an interval can be examined does not depend on any order. -/
theorem playable_congr {kind : MediaKind} {interval interval' : kind.Interval} {time : JavaString}
    (same : SameEntries info other kind) (begins : kind.begin interval = kind.begin interval')
    (ends : kind.end_ interval = kind.end_ interval')
    (files : ∀ id, id ∈ (kind.fileContainer interval).1 ↔ id ∈ (kind.fileContainer interval').1)
    (playable : Playable info kind interval time) : Playable other kind interval' time := by
  obtain ⟨start, started, later⟩ := playable
  refine ⟨start, begins ▸ started, fun reached => ?_⟩
  obtain ⟨stop, stopped, listed⟩ := later reached
  refine ⟨stop, ends ▸ stopped, fun before id member => ?_⟩
  exact (ids_of_sameEntries same id).mp (listed before id ((files id).mpr member))

theorem rel_of_some {α β : Type} {related : α → β → Prop} {first : Option α} {second : Option β} {b : β}
    (both : Option.Rel related first second) (found : second = some b) : ∃ a, first = some a ∧ related a b := by
  cases both with
  | none => cases found
  | some holds =>
    obtain rfl := Option.some.inj found
    exact ⟨_, rfl, holds⟩

theorem alwaysPlayable_reordered (reordered : Reordered info other) (playable : AlwaysPlayable info) :
    AlwaysPlayable other := by
  intro kind id interval found time
  cases kind with
  | video =>
    obtain ⟨interval', found', same⟩ := rel_of_some (reordered.2.videoIntervalContainer id) found
    exact playable_congr (reordered.1 .video) same.begin same.end_ same.fileContainer
      (playable .video id interval' found' time)
  | image =>
    obtain ⟨interval', found', same⟩ := rel_of_some (reordered.2.imageIntervalContainer id) found
    exact playable_congr (reordered.1 .image) same.begin same.end_ same.fileContainer
      (playable .image id interval' found' time)

theorem plays_of_alwaysPlayable {mgr : MediaStrategyMgr} (active : mgr.adMediaInfo = some info)
    (playable : AlwaysPlayable info) (time : TimeOfDay) : Plays mgr time := by
  refine ⟨?_, ?_, mgr.getList_ok .video, mgr.getList_ok .image⟩
  · rw [MediaStrategyMgr.getVideoListWithIntervalCheck, active, dereference_bind]
    split_ifs
    · exact mgr.getList_ok .video
    · apply MediaStrategyMgr.videoLoop_total
      intro one member
      obtain ⟨id, found⟩ := mem_intervalsOf.mp member
      exact playable .video id one found time
  · rw [MediaStrategyMgr.getImageListWithIntervalCheck, active, dereference_bind]
    split_ifs
    · exact mgr.getList_ok .image
    · apply MediaStrategyMgr.imageLoop_total
      intro one member
      obtain ⟨id, found⟩ := mem_intervalsOf.mp member
      exact playable .image id one found time

/-- Moving an entry to the front changes the order only. -/
theorem lookup_insert_found {α : Type} {container : HashMap Text α} {id : Text} {entry : α}
    (found : container.lookup id = some entry) (other : Text) :
    (container.insert id entry).lookup other = container.lookup other := by
  by_cases same : other = id
  · subst same
    rw [AList.lookup_insert, found]
  · exact AList.lookup_insert_ne same

theorem reordered_video {id : Text} {interval : OneVideoInterval}
    (found : info.videoIntervalContainer.lookup id = some interval) :
    Reordered info { info with videoIntervalContainer := info.videoIntervalContainer.insert id interval } := by
  have plan := SamePlan.rfl info
  refine ⟨fun kind => by cases kind <;> exact fun _ => rfl, ⟨fun other => ?_, plan.2, plan.3, plan.4⟩⟩
  rw [lookup_insert_found found]
  exact plan.1 other

theorem reordered_image {id : Text} {interval : OneImageInterval}
    (found : info.imageIntervalContainer.lookup id = some interval) :
    Reordered info { info with imageIntervalContainer := info.imageIntervalContainer.insert id interval } := by
  have plan := SamePlan.rfl info
  refine ⟨fun kind => by cases kind <;> exact fun _ => rfl, ⟨plan.1, fun other => ?_, plan.3, plan.4⟩⟩
  rw [lookup_insert_found found]
  exact plan.2 other

theorem intervalsOf_insert {α : Type} (container : HashMap Text α) (id : Text) (entry : α) :
    ∃ rest, intervalsOf (container.insert id entry) = entry :: rest := by
  exact ⟨_, rfl⟩

/-- An interval that cannot be examined makes its list throw when it is the first one. -/
theorem alwaysPlayable_of_plays {mMediaPath : String} {localMediaFile : MediaKind → List String}
    (plays : ∀ other, Reordered info other → ∀ time,
      Plays { adMediaInfo := some other, mMediaPath, localMediaFile } time) : AlwaysPlayable info := by
  intro kind id interval found time
  cases kind with
  | video =>
    have reordered := reordered_video found
    obtain ⟨files, built⟩ := (plays _ reordered time).videoWithCheck
    obtain ⟨rest, first⟩ := intervalsOf_insert info.videoIntervalContainer id interval
    rw [MediaStrategyMgr.getVideoListWithIntervalCheck, dereference_bind, if_neg (by simp [AList.entries_insert]),
      first] at built
    exact playable_congr (fun id => (reordered.1 .video id).symm) rfl rfl (fun _ => Iff.rfl)
      (MediaStrategyMgr.playable_of_videoLoop built)
  | image =>
    have reordered := reordered_image found
    obtain ⟨files, built⟩ := (plays _ reordered time).imageWithCheck
    obtain ⟨rest, first⟩ := intervalsOf_insert info.imageIntervalContainer id interval
    rw [MediaStrategyMgr.getImageListWithIntervalCheck, dereference_bind, if_neg (by simp [AList.entries_insert]),
      first] at built
    exact playable_congr (fun id => (reordered.1 .image id).symm) rfl rfl (fun _ => Iff.rfl)
      (MediaStrategyMgr.playable_of_imageLoop built)

end

/-- A text whose handler returned normally was parsed, and is the one about to be stored. -/
theorem parsed_of_accepted {terminal : Terminal} {w : World} {xmlText : String}
    (accepted : (mediaStrategyUpdateHandler terminal w xmlText).crashed = false) :
    (mediaStrategyUpdateHandler terminal w xmlText).saving = some xmlText ∧
      ∃ newMedia, parseXmlFromText terminal.parseText xmlText = .ok (some newMedia) := by
  unfold mediaStrategyUpdateHandler at accepted ⊢
  split
  next newMedia oldMedia parsed active => exact ⟨rfl, newMedia, parsed⟩
  next unparsed => simp at accepted

/-- A text that was accepted and stored can be played after a restart, at every time of day
and in every order of the maps, exactly when each of its intervals can be examined at every
time of day. -/
theorem playsAfterRestart_iff {terminal : Terminal} (localMediaFile : MediaKind → List String)
    {w handled stored : World} {xmlText : String} (fetched : step terminal w (.fetched xmlText) = some handled)
    (accepted : handled.crashed = false) (saved : step terminal handled .saved = some stored) :
    PlaysAfterRestart terminal localMediaFile stored ↔
      ∀ info, parseXmlFromText terminal.parseText xmlText = .ok (some info) → AlwaysPlayable info := by
  obtain ⟨-, rfl⟩ := step_fetched fetched
  obtain ⟨saving, newMedia, parsed⟩ := parsed_of_accepted accepted
  obtain ⟨text, -, same, rfl⟩ := step_saved saved
  obtain rfl := Option.some.inj (saving.symm.trans same)
  unfold PlaysAfterRestart
  rw [restart_some parsed]
  constructor
  · rintro ⟨info, active, plays⟩ info' parsed'
    obtain rfl := Option.some.inj active
    obtain rfl := Option.some.inj (Except.ok.inj (parsed.symm.trans parsed'))
    exact alwaysPlayable_of_plays plays
  · intro playable
    refine ⟨newMedia, rfl, fun other reordered time => ?_⟩
    exact plays_of_alwaysPlayable rfl (alwaysPlayable_reordered reordered (playable newMedia parsed)) time

/-- A strategy with one video, and an interval at noon for the video of the given id. -/
def noonElement (id : String) : Element :=
  .node "strategy" [] [
    .node "files" [] [.node "media" [] [fileElement ("1", "a.mp4")], .node "pic" [] []],
    .node "media_play" [] [.node "interval" [("ID", "i"), ("begin", "12:00:00"), ("end", "12:59:59")]
      [.node "file" [("file", id)] []]],
    .node "pic_play" [] []]

/-- The interval of the second strategy is for a video that no entry defines. -/
def noonTerminal : Terminal := terminalFor [("known", noonElement "1"), ("unknown", noonElement "2")]

theorem known_plays : ∃ handled stored,
    step noonTerminal (restart noonTerminal none ∅) (.fetched "known") = some handled ∧ handled.crashed = false ∧
      step noonTerminal handled .saved = some stored ∧ PlaysAfterRestart noonTerminal (fun _ => []) stored := by
  have fetched : step noonTerminal (restart noonTerminal none ∅) (.fetched "known") =
    some (mediaStrategyUpdateHandler noonTerminal (restart noonTerminal none ∅) "known") := rfl
  have saved : step noonTerminal (mediaStrategyUpdateHandler noonTerminal (restart noonTerminal none ∅) "known")
    .saved = some (dispatchMessage noonTerminal (restart noonTerminal none ∅) "known") := rfl
  refine ⟨_, _, fetched, rfl, saved, (playsAfterRestart_iff _ fetched rfl saved).mpr ?_⟩
  intro info parsed kind id interval found time
  obtain rfl := Option.some.inj (Except.ok.inj parsed)
  have member := mem_intervalsOf.mpr ⟨id, found⟩
  cases kind with
  | video =>
    obtain rfl := List.mem_singleton.mp member
    refine ⟨"12:00:00", rfl, fun _ => ⟨"12:59:59", rfl, fun _ id member => ?_⟩⟩
    obtain rfl := List.mem_singleton.mp member
    exact List.mem_singleton.mpr rfl
  | image => cases member

/-- At noon the video list throws, whenever the terminal is started then. -/
theorem unknown_throws : ∃ handled stored,
    step noonTerminal (restart noonTerminal none ∅) (.fetched "unknown") = some handled ∧ handled.crashed = false ∧
      step noonTerminal handled .saved = some stored ∧ ¬ PlaysAfterRestart noonTerminal (fun _ => []) stored := by
  refine ⟨_, _, rfl, rfl, rfl, ?_⟩
  rintro ⟨info, active, plays⟩
  obtain rfl := Option.some.inj active
  obtain ⟨files, built⟩ := (plays _ ⟨fun _ _ => rfl, .rfl _⟩ ⟨12, 30, 0⟩).videoWithCheck
  cases built

end AdTerminal.Strategy
