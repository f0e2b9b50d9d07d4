import AdTerminal.Library.JavaString
import AdTerminal.Strategy.Reload

/-! The play lists. The list builders of `MediaStrategyMgr` look for a play interval around
the present time, of which a strategy may leave out either end, and join its file ids with
the container, which need not have them. -/

namespace AdTerminal.Strategy
open Transition JavaString

structure TimeOfDay where
  hour : Fin 24
  minute : Fin 60
  second : Fin 60
  deriving DecidableEq, Repr

/-- The format `%02d`, for a number of at most two digits. -/
def twoDigits (n : Nat) : JavaString := [0x30 + n / 10, 0x30 + n % 10]

/-- `Utils.getCurrentTime`. -/
def getCurrentTime (time : TimeOfDay) : JavaString :=
  twoDigits time.hour ++ ofString ":" ++ twoDigits time.minute ++ ofString ":" ++ twoDigits time.second

/-- `Utils.isTimeInInterval`. Comparing with null throws, and the end is only looked at when
the time is not before the start. -/
def isTimeInInterval (time : JavaString) (timeStart timeEnd : Text) : Except Thrown Bool := do
  let start ← dereference timeStart
  if 0 ≤ compareTo time (ofString start) then do
    let stop ← dereference timeEnd
    pure (decide (compareTo time (ofString stop) ≤ 0))
  else pure false

namespace MediaKind

abbrev Interval : MediaKind → Type
  | video => OneVideoInterval
  | image => OneImageInterval

def begin : (kind : MediaKind) → kind.Interval → Text
  | video => OneVideoInterval.begin
  | image => OneImageInterval.begin

def end_ : (kind : MediaKind) → kind.Interval → Text
  | video => OneVideoInterval.end_
  | image => OneImageInterval.end_

def fileContainer : (kind : MediaKind) → kind.Interval → HashSet Text
  | video => OneVideoInterval.fileContainer
  | image => OneImageInterval.fileContainer

end MediaKind

/-- The intervals of a kind, by their id. -/
def AdMediaInfo.intervalContainer (info : AdMediaInfo) : (kind : MediaKind) → HashMap Text kind.Interval
  | .video => info.videoIntervalContainer
  | .image => info.imageIntervalContainer

/-- The intervals of a container in the order of its key set. -/
def intervalsOf {α : Type} (container : HashMap Text α) : List α := container.entries.map fun entry => entry.2

/-- What the builders use: `localMediaFile` is what `LocalMediaFile` finds. -/
structure MediaStrategyMgr where
  adMediaInfo : Option AdMediaInfo
  mMediaPath : String
  localMediaFile : MediaKind → List String

namespace MediaStrategyMgr

/-- The paths of the listed files. An id the container does not hold yields null, and
reading its `filename` throws. -/
def filePaths (mgr : MediaStrategyMgr) (info : AdMediaInfo) (kind : MediaKind) (ids : List Text) :
    Except Thrown (List String) :=
  ids.mapM fun id => do
    let entry ← dereference ((info.container kind).lookup id)
    pure (mgr.mMediaPath ++ (kind.filename entry).shown)

/-- `getVideoList` and `getImageList`. -/
def getList (mgr : MediaStrategyMgr) (kind : MediaKind) : Except Thrown (List String) :=
  match mgr.adMediaInfo with
  | none => pure (mgr.localMediaFile kind)
  | some info => do
    let files ← mgr.filePaths info kind (info.ids kind)
    if 0 < files.length then pure files else pure (mgr.localMediaFile kind)

def getVideoList (mgr : MediaStrategyMgr) : Except Thrown (List String) := mgr.getList .video
def getImageList (mgr : MediaStrategyMgr) : Except Thrown (List String) := mgr.getList .image

/-- The loop of `getVideoListWithIntervalCheck`: an interval without files is passed over. -/
def videoLoop (mgr : MediaStrategyMgr) (info : AdMediaInfo) (curTime : JavaString) :
    List OneVideoInterval → Except Thrown (List String)
  | [] => pure (mgr.localMediaFile .video)
  | one :: rest => do
    if ← isTimeInInterval curTime one.begin one.end_ then
      let videoList ← mgr.filePaths info .video one.fileContainer.1
      if 0 < videoList.length then pure videoList else mgr.videoLoop info curTime rest
    else mgr.videoLoop info curTime rest

def getVideoListWithIntervalCheck (mgr : MediaStrategyMgr) (curTime : JavaString) :
    Except Thrown (List String) := do
  let info ← dereference mgr.adMediaInfo
  if info.videoIntervalContainer.entries.length ≤ 0 then mgr.getVideoList
  else mgr.videoLoop info curTime (intervalsOf info.videoIntervalContainer)

/-- The loop of `getImageListWithIntervalCheck`: the first interval that fits is taken. -/
def imageLoop (mgr : MediaStrategyMgr) (info : AdMediaInfo) (curTime : JavaString) :
    List OneImageInterval → Except Thrown (List String)
  | [] => mgr.getImageList
  | one :: rest => do
    if ← isTimeInInterval curTime one.begin one.end_ then
      mgr.filePaths info .image one.fileContainer.1
    else mgr.imageLoop info curTime rest

def getImageListWithIntervalCheck (mgr : MediaStrategyMgr) (curTime : JavaString) :
    Except Thrown (List String) := do
  let info ← dereference mgr.adMediaInfo
  if info.imageIntervalContainer.entries.length ≤ 0 then mgr.getImageList
  else mgr.imageLoop info curTime (intervalsOf info.imageIntervalContainer)

/-- The paths of those ids that are listed. -/
def paths (mgr : MediaStrategyMgr) (info : AdMediaInfo) (kind : MediaKind) (ids : List Text) : List String :=
  ids.filterMap fun id => (info.file? kind id).map (mgr.mMediaPath ++ ·)

theorem filePaths_eq {mgr : MediaStrategyMgr} {info : AdMediaInfo} {kind : MediaKind} {ids : List Text}
    (listed : ∀ id ∈ ids, id ∈ info.ids kind) : mgr.filePaths info kind ids = .ok (mgr.paths info kind ids) := by
  induction ids with
  | nil => rfl
  | cons id rest ih =>
    have tail := ih fun id member => listed id (List.mem_cons_of_mem _ member)
    obtain ⟨file, named⟩ := AdMediaInfo.mem_ids.mp (listed id List.mem_cons_self)
    obtain ⟨entry, found, rfl⟩ := Option.map_eq_some_iff.mp named
    unfold filePaths at tail ⊢
    rw [List.mapM_cons, tail, found]
    simp only [paths, List.filterMap_cons, named, Option.map_some]
    rfl

theorem listed_of_filePaths {mgr : MediaStrategyMgr} {info : AdMediaInfo} {kind : MediaKind} {ids : List Text}
    {files : List String} (built : mgr.filePaths info kind ids = .ok files) :
    ∀ id ∈ ids, id ∈ info.ids kind := by
  induction ids generalizing files with
  | nil => simp
  | cons id rest ih =>
    unfold filePaths at built
    rw [List.mapM_cons] at built
    obtain ⟨path, read, built⟩ := bind_ok built
    obtain ⟨entry, found, -⟩ := bind_ok read
    obtain ⟨others, rest, -⟩ := bind_ok built
    have listed : id ∈ info.ids kind :=
      AdMediaInfo.mem_ids.mpr ⟨_, Option.map_eq_some_iff.mpr ⟨entry, dereference_ok found, rfl⟩⟩
    exact List.forall_mem_cons.mpr ⟨listed, ih rest⟩

/-- A built list has the paths of the ids, which are all listed. -/
theorem filePaths_iff {mgr : MediaStrategyMgr} {info : AdMediaInfo} {kind : MediaKind} {ids : List Text}
    {files : List String} : mgr.filePaths info kind ids = .ok files ↔
      (∀ id ∈ ids, id ∈ info.ids kind) ∧ files = mgr.paths info kind ids := by
  constructor
  · intro built
    have listed := listed_of_filePaths built
    rw [filePaths_eq listed] at built
    exact ⟨listed, (Except.ok.inj built).symm⟩
  · rintro ⟨listed, rfl⟩
    exact filePaths_eq listed

end MediaStrategyMgr

/-- The time is within the interval, which has both ends. -/
def Covers (kind : MediaKind) (interval : kind.Interval) (time : JavaString) : Prop :=
  ∃ start stop, kind.begin interval = some start ∧ kind.end_ interval = some stop ∧ ofString start ≤ time ∧
    time ≤ ofString stop

/-- The interval can be examined at that time: it has a start, it has an end once the start
is reached, and while it lasts its files are all listed. -/
def Playable (info : AdMediaInfo) (kind : MediaKind) (interval : kind.Interval) (time : JavaString) : Prop :=
  ∃ start, kind.begin interval = some start ∧ (ofString start ≤ time →
    ∃ stop, kind.end_ interval = some stop ∧ (time ≤ ofString stop →
      ∀ id ∈ (kind.fileContainer interval).1, id ∈ info.ids kind))

theorem isTimeInInterval_iff {time : JavaString} {timeStart timeEnd : Text} {inside : Bool} :
    isTimeInInterval time timeStart timeEnd = .ok inside ↔ ∃ start, timeStart = some start ∧
      (ofString start ≤ time ∧ (∃ stop, timeEnd = some stop ∧ (inside = true ↔ time ≤ ofString stop)) ∨
        ¬ ofString start ≤ time ∧ inside = false) := by
  unfold isTimeInInterval
  constructor
  · intro compared
    obtain ⟨start, found, compared⟩ := bind_ok compared
    refine ⟨start, dereference_ok found, ?_⟩
    by_cases reached : ofString start ≤ time
    · rw [if_pos ((le_compareTo_iff ..).mpr reached)] at compared
      obtain ⟨stop, found, compared⟩ := bind_ok compared
      obtain rfl := Except.ok.inj compared
      exact Or.inl ⟨reached, stop, dereference_ok found, by rw [decide_eq_true_iff, compareTo_le_iff]⟩
    · rw [if_neg (mt (le_compareTo_iff ..).mp reached)] at compared
      exact Or.inr ⟨reached, (Except.ok.inj compared).symm⟩
  · rintro ⟨start, rfl, ⟨reached, stop, rfl, within⟩ | ⟨before, rfl⟩⟩
    · rw [dereference_bind, if_pos ((le_compareTo_iff ..).mpr reached), dereference_bind]
      have same : decide (compareTo time (ofString stop) ≤ 0) = inside := by
        rw [Bool.eq_iff_iff, decide_eq_true_iff, compareTo_le_iff, within]
      rw [same]
      rfl
    · rw [dereference_bind, if_neg (mt (le_compareTo_iff ..).mp before)]
      rfl

theorem covers_iff {time : JavaString} {kind : MediaKind} {interval : kind.Interval} :
    isTimeInInterval time (kind.begin interval) (kind.end_ interval) = .ok true ↔ Covers kind interval time := by
  rw [isTimeInInterval_iff]
  constructor
  · rintro ⟨start, begins, ⟨reached, stop, ends, inside⟩ | ⟨-, outside⟩⟩
    · exact ⟨start, stop, begins, ends, reached, inside.mp rfl⟩
    · cases outside
  · rintro ⟨start, stop, begins, ends, reached, before⟩
    exact ⟨start, begins, Or.inl ⟨reached, stop, ends, fun _ => before, fun _ => rfl⟩⟩

/-- Examining an interval throws exactly when the interval is not playable then. -/
theorem playable_iff (mgr : MediaStrategyMgr) {info : AdMediaInfo} {time : JavaString} {kind : MediaKind}
    {interval : kind.Interval} :
    Playable info kind interval time ↔
      ∃ inside, isTimeInInterval time (kind.begin interval) (kind.end_ interval) = .ok inside ∧
        (inside = true → ∃ files, mgr.filePaths info kind (kind.fileContainer interval).1 = .ok files) := by
  constructor
  · rintro ⟨start, begins, later⟩
    by_cases reached : ofString start ≤ time
    · obtain ⟨stop, ends, listed⟩ := later reached
      refine ⟨decide (time ≤ ofString stop), ?_, fun inside => ?_⟩
      · exact isTimeInInterval_iff.mpr ⟨start, begins, Or.inl ⟨reached, stop, ends, decide_eq_true_iff⟩⟩
      · exact ⟨_, MediaStrategyMgr.filePaths_eq (listed (decide_eq_true_iff.mp inside))⟩
    · exact ⟨false, isTimeInInterval_iff.mpr ⟨start, begins, Or.inr ⟨reached, rfl⟩⟩, by simp⟩
  · rintro ⟨inside, compared, built⟩
    obtain ⟨start, begins, ⟨reached, stop, ends, within⟩ | ⟨before, -⟩⟩ := isTimeInInterval_iff.mp compared
    · refine ⟨start, begins, fun _ => ⟨stop, ends, fun early => ?_⟩⟩
      obtain ⟨files, built⟩ := built (within.mpr early)
      exact MediaStrategyMgr.listed_of_filePaths built
    · exact ⟨start, begins, fun reached => absurd reached before⟩

namespace MediaStrategyMgr

variable {mgr : MediaStrategyMgr} {info : AdMediaInfo} {curTime : JavaString}

/-- Only ids of the container itself are looked up, so this never throws. -/
theorem getList_ok (mgr : MediaStrategyMgr) (kind : MediaKind) : ∃ files, mgr.getList kind = .ok files := by
  unfold getList
  split
  next => exact ⟨_, rfl⟩
  next info active =>
    rw [bind_of_ok (filePaths_eq fun id member => member)]
    split_ifs
    · exact ⟨_, rfl⟩
    · exact ⟨_, rfl⟩

theorem videoLoop_outside {one : OneVideoInterval} (rest : List OneVideoInterval)
    (outside : isTimeInInterval curTime one.begin one.end_ = .ok false) :
    mgr.videoLoop info curTime (one :: rest) = mgr.videoLoop info curTime rest := by
  rw [videoLoop, bind_of_ok outside]
  rfl

theorem videoLoop_inside {one : OneVideoInterval} (rest : List OneVideoInterval) {videoList : List String}
    (inside : isTimeInInterval curTime one.begin one.end_ = .ok true)
    (built : mgr.filePaths info .video one.fileContainer.1 = .ok videoList) :
    mgr.videoLoop info curTime (one :: rest) =
      if 0 < videoList.length then .ok videoList else mgr.videoLoop info curTime rest := by
  rw [videoLoop, bind_of_ok inside, if_pos rfl, bind_of_ok built]
  rfl

theorem imageLoop_outside {one : OneImageInterval} (rest : List OneImageInterval)
    (outside : isTimeInInterval curTime one.begin one.end_ = .ok false) :
    mgr.imageLoop info curTime (one :: rest) = mgr.imageLoop info curTime rest := by
  rw [imageLoop, bind_of_ok outside]
  rfl

theorem imageLoop_inside {one : OneImageInterval} (rest : List OneImageInterval)
    (inside : isTimeInInterval curTime one.begin one.end_ = .ok true) :
    mgr.imageLoop info curTime (one :: rest) = mgr.filePaths info .image one.fileContainer.1 := by
  rw [imageLoop, bind_of_ok inside, if_pos rfl]

theorem videoLoop_total {intervals : List OneVideoInterval}
    (playable : ∀ one ∈ intervals, Playable info .video one curTime) :
    ∃ files, mgr.videoLoop info curTime intervals = .ok files := by
  induction intervals with
  | nil => exact ⟨_, rfl⟩
  | cons one rest ih =>
    obtain ⟨others, passed⟩ := ih fun other member => playable other (List.mem_cons_of_mem _ member)
    obtain ⟨inside, compared, built⟩ := (playable_iff mgr).mp (playable one List.mem_cons_self)
    cases inside with
    | false => exact ⟨others, (videoLoop_outside rest compared).trans passed⟩
    | true =>
      obtain ⟨files, read⟩ := built rfl
      rw [videoLoop_inside rest compared read]
      split_ifs
      · exact ⟨files, rfl⟩
      · exact ⟨others, passed⟩

theorem imageLoop_total {intervals : List OneImageInterval}
    (playable : ∀ one ∈ intervals, Playable info .image one curTime) :
    ∃ files, mgr.imageLoop info curTime intervals = .ok files := by
  induction intervals with
  | nil => exact mgr.getList_ok .image
  | cons one rest ih =>
    obtain ⟨inside, compared, built⟩ := (playable_iff mgr).mp (playable one List.mem_cons_self)
    cases inside with
    | false =>
      rw [imageLoop_outside rest compared]
      exact ih fun other member => playable other (List.mem_cons_of_mem _ member)
    | true =>
      rw [imageLoop_inside rest compared]
      exact built rfl

/-- The first interval of a loop that returns is playable. -/
theorem playable_of_videoLoop {one : OneVideoInterval} {rest : List OneVideoInterval} {files : List String}
    (returns : mgr.videoLoop info curTime (one :: rest) = .ok files) : Playable info .video one curTime := by
  rw [playable_iff mgr]
  rw [videoLoop] at returns
  obtain ⟨inside, compared, returns⟩ := bind_ok returns
  refine ⟨inside, compared, fun within => ?_⟩
  rw [if_pos within] at returns
  obtain ⟨videoList, built, -⟩ := bind_ok returns
  exact ⟨videoList, built⟩

theorem playable_of_imageLoop {one : OneImageInterval} {rest : List OneImageInterval} {files : List String}
    (returns : mgr.imageLoop info curTime (one :: rest) = .ok files) : Playable info .image one curTime := by
  rw [playable_iff mgr]
  rw [imageLoop] at returns
  obtain ⟨inside, compared, returns⟩ := bind_ok returns
  refine ⟨inside, compared, fun within => ?_⟩
  rw [if_pos within] at returns
  exact ⟨files, returns⟩

end MediaStrategyMgr

end AdTerminal.Strategy
