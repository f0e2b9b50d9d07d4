import AdTerminal.Strategy.Overlap
import AdTerminal.Strategy.Playback

/-! The players. `NewVideoMgr` asks for the play interval of the present time when it is
created; `NewImageMgr` never does, an update loads all files of its kind, and nothing looks
at the time when it passes. -/

namespace AdTerminal.Strategy
open Transition JavaString

instance (kind : MediaKind) (interval : kind.Interval) (time : JavaString) : Decidable (Covers kind interval time) :=
  decidable_of_iff ((kind.begin interval).any (fun start => ofString start ≤ time) = true ∧
    (kind.end_ interval).any (fun stop => time ≤ ofString stop) = true) (by
      simp only [Option.any_eq_true, decide_eq_true_eq, Covers]
      constructor
      · rintro ⟨⟨start, begins, reached⟩, stop, ends, before⟩
        exact ⟨start, stop, begins, ends, reached, before⟩
      · rintro ⟨start, stop, begins, ends, reached, before⟩
        exact ⟨⟨start, begins, reached⟩, stop, ends, before⟩)

/-- An interval of the strategy around that time, with files to play. -/
def InForce (info : AdMediaInfo) (kind : MediaKind) (time : TimeOfDay) (interval : kind.Interval) : Prop :=
  interval ∈ intervalsOf (info.intervalContainer kind) ∧ (kind.fileContainer interval).1 ≠ [] ∧
    Covers kind interval (getCurrentTime time)

/-- The two players: `list` is `mVideoList` and `mImageList`, once the managers are created.
`source` is history: the ids whose files were loaded last, none when it was local files. -/
structure Players where
  world : World
  now : TimeOfDay
  list : MediaKind → Option (List String) := fun _ => none
  source : MediaKind → List Text := fun _ => []

inductive PlayerEvent where
  /-- Time passes, to any time of day. -/
  | tick (time : TimeOfDay)
  /-- `MainActivity.onCreate` creates the managers, unless they exist. -/
  | created
  | strategy (event : Event)

/-- What the constructor of `NewVideoMgr` loads: the files of the first interval in force. -/
def videoSource (info : AdMediaInfo) (time : TimeOfDay) : List Text :=
  if info.videoIntervalContainer.entries.length ≤ 0 then info.ids .video
  else
    match (intervalsOf info.videoIntervalContainer).find? fun one =>
      one.fileContainer.1 ≠ [] ∧ Covers .video one (getCurrentTime time) with
    | some one => one.fileContainer.1
    | none => []

/-- The place the players have in the terminal: where its media are. -/
structure Screen where
  terminal : Terminal
  localMediaFile : MediaKind → List String

def Screen.mgr (screen : Screen) (w : World) : MediaStrategyMgr :=
  { adMediaInfo := w.adMediaInfo, mMediaPath := screen.terminal.mediaPath, localMediaFile := screen.localMediaFile }

namespace Players

/-- The constructors of `NewVideoMgr` and `NewImageMgr`, one after the other. -/
def create (screen : Screen) (p : Players) : Players :=
  match p.world.adMediaInfo, (screen.mgr p.world).getVideoListWithIntervalCheck (getCurrentTime p.now),
    (screen.mgr p.world).getImageList with
  | some info, .ok videoList, .ok imageList =>
    { p with
      list := fun kind => some (match kind with | .video => videoList | .image => imageList)
      source := fun kind => match kind with | .video => videoSource info p.now | .image => info.ids .image }
  | _, _, _ => { p with world := { p.world with crashed := true } }

/-- `updateWhenStrategyChanged`, of the player of that kind if there is one. -/
def updateWhenStrategyChanged (screen : Screen) (p : Players) (kind : MediaKind) : Players :=
  match p.list kind, p.world.adMediaInfo, (screen.mgr p.world).getList kind with
  | some _, some info, .ok files =>
    { p with list := Function.update p.list kind (some files)
             source := Function.update p.source kind (info.ids kind) }
  | _, _, _ => p

/-- The players after an event of the strategy. The last completion of a kind calls
`updateWhenStrategyChanged` right after the switch-over, before any file is deleted. -/
def follow (screen : Screen) (p : Players) (event : Event) (w : World) : Players :=
  match event with
  | .reported i kind _ =>
    match p.world.receivers[i]? with
    | some receiver =>
      if (receiver.batch kind).totalTaskNum ≤ (receiver.batch kind).finishedNum + 1 then
        { p with world := w }.updateWhenStrategyChanged screen kind
      else { p with world := w }
    | none => { p with world := w }
  | .killed => { world := w, now := p.now }
  | _ => { p with world := w }

def step (screen : Screen) (p : Players) : PlayerEvent → Option Players
  | .tick time => some { p with now := time }
  | .created =>
    if p.world.MainFree then some (if (p.list .video).isSome then p else p.create screen) else none
  | .strategy event => (Strategy.step screen.terminal p.world event).map (p.follow screen event)

end Players

/-- While the present time lies in an interval with files, the player has the files of one. -/
def ObeysIntervals (screen : Screen) (p : Players) : Prop :=
  ∀ kind files info, p.list kind = some files → p.world.adMediaInfo = some info →
    (∃ interval, InForce info kind p.now interval) →
    ∃ interval, InForce info kind p.now interval ∧
      files.Perm ((screen.mgr p.world).paths info kind (kind.fileContainer interval).1)

/-- At that time no interval with files asks for other files than these. -/
def Fits (info : AdMediaInfo) (kind : MediaKind) (time : TimeOfDay) (ids : List Text) : Prop :=
  (∃ interval, InForce info kind time interval) →
    ∃ interval, InForce info kind time interval ∧ (kind.fileContainer interval).1.Perm ids

/-- Time passes only to where the files loaded last fit, and all files are only loaded, at
the creation of the image player and by an update, when they fit. -/
def LoadsInTime (p : Players) : PlayerEvent → Prop
  | .tick time => ∀ kind info, (p.list kind).isSome → p.world.adMediaInfo = some info →
      Fits info kind time (p.source kind)
  | .created => ∀ info, p.list .video = none → p.world.adMediaInfo = some info →
      Fits info .image p.now (info.ids .image)
  | .strategy (.reported i kind n) => ∀ info receiver, (p.list kind).isSome → p.world.adMediaInfo = some info →
      ReportsLast p.world i kind n receiver → Fits info kind p.now (receiver.newMediaInfo.ids kind)
  | .strategy _ => True

/-- What a player has loaded is what its source says, and fits. -/
def Loaded (screen : Screen) (p : Players) : Prop :=
  ∀ kind files info, p.list kind = some files → p.world.adMediaInfo = some info →
    (p.source kind ≠ [] → files = (screen.mgr p.world).paths info kind (p.source kind)) ∧
      Fits info kind p.now (p.source kind)

section
variable {screen : Screen} {p p' : Players} {info : AdMediaInfo} {kind : MediaKind} {time : TimeOfDay}

theorem obeys_of_loaded (loaded : Loaded screen p) : ObeysIntervals screen p := by
  intro kind files info loadedFiles active present
  obtain ⟨filesEq, fits⟩ := loaded kind files info loadedFiles active
  obtain ⟨interval, inForce, same⟩ := fits present
  refine ⟨interval, inForce, ?_⟩
  have some : p.source kind ≠ [] := fun none => inForce.2.1 (List.perm_nil.mp (none ▸ same))
  rw [filesEq some]
  exact same.symm.filterMap _

theorem fits_congr {other : AdMediaInfo} (same : other.intervalContainer kind = info.intervalContainer kind)
    {ids : List Text} : Fits other kind time ids ↔ Fits info kind time ids := by
  simp only [Fits, InForce, same]

@[simp] theorem intervalContainer_setContainer (info : AdMediaInfo) (changed : MediaKind)
    (entries : HashMap Text changed.Info) :
    (info.setContainer changed entries).intervalContainer kind = info.intervalContainer kind := by
  cases changed <;> cases kind <;> rfl

@[simp] theorem intervalContainer_resolution (info : AdMediaInfo) (resolution : Text) :
    ({ info with resolution } : AdMediaInfo).intervalContainer kind = info.intervalContainer kind := by
  cases kind <;> rfl

theorem paths_congr {mgr mgr' : MediaStrategyMgr} {other : AdMediaInfo}
    (path : mgr.mMediaPath = mgr'.mMediaPath) (same : other.container kind = info.container kind) (ids : List Text) :
    mgr.paths other kind ids = mgr'.paths info kind ids := by
  simp only [MediaStrategyMgr.paths, AdMediaInfo.file?_congr same, path]

/-- When all ids are listed, none is passed over. -/
theorem paths_length {mgr : MediaStrategyMgr} {ids : List Text} (listed : ∀ id ∈ ids, id ∈ info.ids kind) :
    (mgr.paths info kind ids).length = ids.length := by
  induction ids with
  | nil => rfl
  | cons id rest ih =>
    obtain ⟨file, named⟩ := AdMediaInfo.mem_ids.mp (listed id List.mem_cons_self)
    have tail := ih fun other member => listed other (List.mem_cons_of_mem _ member)
    simp only [MediaStrategyMgr.paths, List.filterMap_cons, named, Option.map_some, List.length_cons] at tail ⊢
    rw [tail]

/-- A list of all files is that of the ids, unless there are none. -/
theorem getList_source {mgr : MediaStrategyMgr} (active : mgr.adMediaInfo = some info) {files : List String}
    (built : mgr.getList kind = .ok files) (some : info.ids kind ≠ []) :
    files = mgr.paths info kind (info.ids kind) := by
  have listed : ∀ id ∈ info.ids kind, id ∈ info.ids kind := fun id member => member
  have positive : 0 < (mgr.paths info kind (info.ids kind)).length := by
    rw [paths_length listed]
    exact List.length_pos_iff.mpr some
  simp only [MediaStrategyMgr.getList, active] at built
  rw [bind_of_ok (MediaStrategyMgr.filePaths_eq listed), if_pos positive] at built
  exact (Except.ok.inj built).symm

/-- The loop of the video list takes the first interval that has files and covers the time. -/
theorem videoLoop_source {mgr : MediaStrategyMgr} {curTime : JavaString} {intervals : List OneVideoInterval}
    {files : List String} (built : mgr.videoLoop info curTime intervals = .ok files) :
    files = match intervals.find? fun one => one.fileContainer.1 ≠ [] ∧ Covers .video one curTime with
      | some one => mgr.paths info .video one.fileContainer.1
      | none => mgr.localMediaFile .video := by
  induction intervals with
  | nil => exact (Except.ok.inj built).symm
  | cons one rest ih =>
    obtain ⟨inside, compared, read⟩ := (playable_iff mgr).mp (MediaStrategyMgr.playable_of_videoLoop built)
    cases inside with
    | false =>
      have outside : ¬ Covers .video one curTime := by
        intro covers
        cases compared.symm.trans (covers_iff.mpr covers)
      rw [MediaStrategyMgr.videoLoop_outside rest compared] at built
      rw [List.find?_cons_of_neg (by simp [outside])]
      exact ih built
    | true =>
      have covers : Covers .video one curTime := covers_iff.mp compared
      obtain ⟨videoList, read⟩ := read rfl
      obtain ⟨listed, rfl⟩ := MediaStrategyMgr.filePaths_iff.mp read
      rw [MediaStrategyMgr.videoLoop_inside rest compared read, paths_length listed] at built
      by_cases none : one.fileContainer.1 = []
      · rw [List.find?_cons_of_neg (by simp [none])]
        rw [if_neg (by simp [none, MediaKind.fileContainer])] at built
        exact ih built
      · have positive : 0 < (MediaKind.video.fileContainer one).1.length := List.length_pos_iff.mpr none
        rw [List.find?_cons_of_pos (by simp [none, covers])]
        rw [if_pos positive] at built
        exact (Except.ok.inj built).symm

/-- The constructor of the video player loads what its source says, and that fits. -/
theorem videoSource_fits {mgr : MediaStrategyMgr} (active : mgr.adMediaInfo = some info) {files : List String}
    (built : mgr.getVideoListWithIntervalCheck (getCurrentTime time) = .ok files) :
    (videoSource info time ≠ [] → files = mgr.paths info .video (videoSource info time)) ∧
      Fits info .video time (videoSource info time) := by
  rw [MediaStrategyMgr.getVideoListWithIntervalCheck, active, dereference_bind] at built
  unfold videoSource
  by_cases none : info.videoIntervalContainer.entries.length ≤ 0
  · rw [if_pos none] at built ⊢
    refine ⟨getList_source active built, ?_⟩
    rintro ⟨interval, member, -⟩
    have empty : intervalsOf info.videoIntervalContainer = [] :=
      List.map_eq_nil_iff.mpr (List.eq_nil_of_length_eq_zero (Nat.le_zero.mp none))
    change interval ∈ intervalsOf info.videoIntervalContainer at member
    simp [empty] at member
  · rw [if_neg none] at built ⊢
    have loaded := videoLoop_source built
    split
    next one found =>
      rw [found] at loaded
      refine ⟨fun _ => loaded, fun _ => ⟨one, ?_, .refl _⟩⟩
      have holds := List.find?_some found
      rw [decide_eq_true_iff] at holds
      exact ⟨List.mem_of_find?_eq_some found, holds.1, holds.2⟩
    next found =>
      refine ⟨fun some => absurd rfl some, ?_⟩
      rintro ⟨interval, member, files, covers⟩
      have outside := List.find?_eq_none.mp found interval member
      exact absurd (decide_eq_true_iff.mpr ⟨files, covers⟩) outside

theorem loaded_created (loaded : Loaded screen p) (start : p.list .video = none)
    (condition : LoadsInTime p .created) : Loaded screen (p.create screen) := by
  unfold Players.create
  split
  next info videoList imageList active video image =>
    intro kind files info' same active'
    obtain rfl := Option.some.inj (active.symm.trans active')
    obtain rfl := Option.some.inj same
    cases kind with
    | video => exact videoSource_fits active video
    | image => exact ⟨getList_source active image, condition info start active⟩
  next => exact loaded

/-- An update that leaves the containers and intervals alone. -/
theorem loaded_congr (loaded : Loaded screen p) {w : World}
    (same : ∀ info', w.adMediaInfo = some info' → ∃ info, p.world.adMediaInfo = some info ∧
      ∀ kind, info'.container kind = info.container kind ∧ info'.intervalContainer kind = info.intervalContainer kind) :
    Loaded screen { p with world := w } := by
  intro kind files info' listed active
  obtain ⟨info, before, equal⟩ := same info' active
  have old := loaded kind files info listed before
  rw [fits_congr (equal kind).2]
  refine ⟨fun some => (old.1 some).trans ?_, old.2⟩
  exact (paths_congr (.refl _) (equal kind).1 _).symm

/-- A switch-over loads all files of its kind, and the other kind keeps its container. -/
theorem loaded_switched (loaded : Loaded screen p) {changed : MediaKind} {entries : HashMap Text changed.Info}
    {w : World} (before : p.world.adMediaInfo = some info)
    (active : w.adMediaInfo = some (info.setContainer changed entries))
    (fits : (p.list changed).isSome → Fits info changed p.now ((info.setContainer changed entries).ids changed)) :
    Loaded screen ({ p with world := w }.updateWhenStrategyChanged screen changed) := by
  have others : ∀ kind files, kind ≠ changed → p.list kind = some files →
      (p.source kind ≠ [] → files = (screen.mgr w).paths (info.setContainer changed entries) kind (p.source kind)) ∧
        Fits (info.setContainer changed entries) kind p.now (p.source kind) := by
    intro kind files different listed
    have old := loaded kind files info listed before
    rw [fits_congr (intervalContainer_setContainer ..)]
    refine ⟨fun some => (old.1 some).trans ?_, old.2⟩
    exact (paths_congr (.refl _) (AdMediaInfo.container_setContainer_other info different entries) _).symm
  obtain ⟨files, built⟩ := (screen.mgr w).getList_ok changed
  cases present : p.list changed with
  | none =>
    have same : { p with world := w }.updateWhenStrategyChanged screen changed = { p with world := w } := by
      simp only [Players.updateWhenStrategyChanged, present]
    rw [same]
    intro kind files info' listed active'
    obtain rfl := Option.some.inj (active.symm.trans active')
    refine others kind files (fun equal => ?_) listed
    subst equal
    cases present.symm.trans listed
  | some old =>
    have same : { p with world := w }.updateWhenStrategyChanged screen changed =
        { p with world := w, list := Function.update p.list changed (some files)
                 source := Function.update p.source changed ((info.setContainer changed entries).ids changed) } := by
      simp only [Players.updateWhenStrategyChanged, present, active, built]
    rw [same]
    intro kind files' info' listed active'
    obtain rfl := Option.some.inj (active.symm.trans active')
    by_cases equal : kind = changed
    · subst equal
      simp only [Function.update_self, Option.some.injEq] at listed ⊢
      subst listed
      refine ⟨getList_source active built, ?_⟩
      rw [fits_congr (intervalContainer_setContainer ..)]
      exact fits (by rw [present]; rfl)
    · simp only [Function.update_of_ne equal] at listed ⊢
      exact others kind files' equal listed

theorem loaded_reported {i n : Nat} {w : World} (loaded : Loaded screen p) (known : Known screen.terminal p.world)
    (condition : LoadsInTime p (.strategy (.reported i kind n)))
    (taken : step screen.terminal p.world (.reported i kind n) = some w) :
    Loaded screen (p.follow screen (.reported i kind n) w) := by
  obtain ⟨receiver, download, free, present, waiting, rfl⟩ := step_reported taken
  obtain ⟨info, active⟩ := Option.isSome_iff_exists.mp (known.active free.1)
  simp only [Players.follow, present]
  by_cases last : (receiver.batch kind).totalTaskNum ≤ (receiver.batch kind).finishedNum + 1
  · rw [if_pos last, onDownloadFinished_last active last]
    refine loaded_switched loaded active rfl fun exists_ => ?_
    have fits := condition info receiver exists_ active ⟨free, present, ⟨download, waiting⟩, last⟩
    simpa only [AdMediaInfo.ids, AdMediaInfo.container_setContainer_self] using fits
  · rw [if_neg last, onDownloadFinished_early last]
    exact loaded_congr loaded fun info' same => ⟨info', same, fun _ => ⟨rfl, rfl⟩⟩

theorem loaded_strategy {event : Event} {w : World} (loaded : Loaded screen p) (known : Known screen.terminal p.world)
    (condition : LoadsInTime p (.strategy event)) (taken : step screen.terminal p.world event = some w) :
    Loaded screen (p.follow screen event w) := by
  cases event with
  | polled scheduleId =>
    obtain ⟨free, rfl⟩ := step_polled taken
    obtain ⟨info, active⟩ := Option.isSome_iff_exists.mp (known.active free.1)
    rw [webRequest_of_active active]
    refine loaded_congr loaded fun info' same => ?_
    obtain rfl := Option.some.inj same
    exact ⟨info, active, fun kind => ⟨AdMediaInfo.container_resolution .., intervalContainer_resolution ..⟩⟩
  | fetched xmlText =>
    obtain ⟨-, rfl⟩ := step_fetched taken
    refine loaded_congr loaded fun info' same => ⟨info', ?_, fun _ => ⟨rfl, rfl⟩⟩
    unfold mediaStrategyUpdateHandler at same
    split at same <;> exact same
  | saved =>
    obtain ⟨text, -, -, rfl⟩ := step_saved taken
    exact loaded_congr loaded fun info' same => ⟨info', same, fun _ => ⟨rfl, rfl⟩⟩
  | transferred i k n =>
    obtain ⟨receiver, download, -, -, -, rfl⟩ := step_transferred taken
    exact loaded_congr loaded fun info' same => ⟨info', same, fun _ => ⟨rfl, rfl⟩⟩
  | reported i k n => exact loaded_reported loaded known condition taken
  | killed =>
    intro kind files info listed
    cases listed

theorem world_follow (screen : Screen) (p : Players) (event : Event) (w : World) :
    (p.follow screen event w).world = w := by
  unfold Players.follow Players.updateWhenStrategyChanged
  split
  next =>
    split
    next =>
      split_ifs
      · split <;> rfl
      · rfl
    next => rfl
  next => rfl
  next => rfl

theorem loaded_step {event : PlayerEvent} (loaded : Loaded screen p ∧ Known screen.terminal p.world)
    (condition : LoadsInTime p event) (taken : p.step screen event = some p') :
    Loaded screen p' ∧ Known screen.terminal p'.world := by
  obtain ⟨loaded, known⟩ := loaded
  cases event with
  | tick time =>
    obtain rfl := Option.some.inj taken
    refine ⟨fun kind files info listed active => ?_, known⟩
    have old := loaded kind files info listed active
    exact ⟨old.1, condition kind info (by rw [listed]; rfl) active⟩
  | created =>
    simp only [Players.step, Option.ite_none_right_eq_some, Option.some.injEq] at taken
    obtain ⟨free, rfl⟩ := taken
    split
    next => exact ⟨loaded, known⟩
    next absent =>
      refine ⟨loaded_created loaded (by simpa using absent) condition, ?_⟩
      unfold Players.create
      split
      next => exact known
      next => exact ⟨known.stored, known.saving, by simp⟩
  | strategy event =>
    obtain ⟨w, happened, rfl⟩ := Option.map_eq_some_iff.mp taken
    refine ⟨loaded_strategy loaded known condition happened, ?_⟩
    rw [world_follow]
    exact known_step known happened

end

/-- In every run of a terminal that starts without a stored text, whatever updates it goes
through and however the time passes: as long as files are only loaded, and time only passes
to, where they fit the intervals, the players obey the intervals. -/
theorem obeys_intervals {screen : Screen} {files : Finset FilePath.Place} {now : TimeOfDay} {es : List PlayerEvent}
    (inTime : Steps (Players.step screen) LoadsInTime { world := restart screen.terminal none files, now } es) :
    Throughout (Players.step screen) (ObeysIntervals screen) { world := restart screen.terminal none files, now } es := by
  have start : Loaded screen { world := restart screen.terminal none files, now } ∧
      Known screen.terminal (restart screen.terminal none files) := by
    refine ⟨fun kind files info listed => ?_, known_restart (by simp) files⟩
    cases listed
  exact throughout_of_invariant (fun _ _ _ inv ok taken => loaded_step inv ok taken)
    (fun _ inv => obeys_of_loaded inv.1) start inTime

def morningScreen : Screen := { terminal := morningTerminal, localMediaFile := fun _ => [] }

/-- The strategy is stored and found again by a restart. -/
def morningStart : List PlayerEvent :=
  [.strategy (.fetched "morning"), .strategy .saved, .strategy .killed]

/-- Created at seven, the video player still has the files of the interval at eight. -/
theorem morning_obeyed : Throughout (Players.step morningScreen) (ObeysIntervals morningScreen)
    { world := restart morningTerminal none ∅, now := ⟨5, 0, 0⟩ }
    (morningStart ++ [.tick ⟨7, 0, 0⟩, .created, .tick ⟨8, 0, 0⟩]) := by
  apply obeys_intervals
  apply Steps.cons trivial rfl
  apply Steps.cons trivial rfl
  apply Steps.cons trivial rfl
  refine .cons ?_ rfl (.cons ?_ rfl (.cons ?_ rfl trivial))
  · intro kind info absent
    cases absent
  · intro info _ active
    obtain rfl := Option.some.inj active
    rintro ⟨interval, member, -⟩
    cases member
  · intro kind info _ active
    obtain rfl := Option.some.inj active
    cases kind with
    | video =>
      rintro ⟨interval, member, files, -⟩
      obtain rfl := List.mem_singleton.mp member
      exact ⟨_, ⟨member, files, by decide +kernel⟩, .refl _⟩
    | image =>
      rintro ⟨interval, member, -⟩
      cases member

/-- Created at five, before the interval, the video player still has local files at seven. -/
theorem morning_missed : ¬ Throughout (Players.step morningScreen) (ObeysIntervals morningScreen)
    { world := restart morningTerminal none ∅, now := ⟨5, 0, 0⟩ } (morningStart ++ [.created, .tick ⟨7, 0, 0⟩]) := by
  intro all
  have reached : run (Players.step morningScreen) { world := restart morningTerminal none ∅, now := ⟨5, 0, 0⟩ }
      (morningStart ++ [.created, .tick ⟨7, 0, 0⟩]) = some _ := rfl
  obtain ⟨interval, inForce, same⟩ := all _ [] (List.append_nil _).symm _ reached .video [] _ rfl rfl
    ⟨_, List.mem_singleton.mpr rfl, by decide +kernel, by decide +kernel⟩
  obtain rfl := List.mem_singleton.mp inForce.1
  have length := same.length_eq
  exact absurd length (by decide +kernel)

end AdTerminal.Strategy
