import AdTerminal.Library.Transition
import AdTerminal.Schedule.FileListMgr

/-! The controllers `AdVideoCtrl` and `AdImageCtrl`. Each change of the database and each
alarm is followed by one of their update methods, which decides by itself whether the play
list is that of an interval, that of all files, or stays. -/

namespace AdTerminal.Schedule
open Strategy JavaString Transition

namespace AdCtrl

/-- The list of the interval found for the present time, or of all files. -/
def presentList (db : FileListMgr) (kind : MediaKind) (currentTime : JavaString) : List JavaString :=
  match db.isCurrentTimeInIntervel kind currentTime with
  | none => db.getAllFile kind
  | some timeInterval => db.getInInterval kind timeInterval.1 timeInterval.2

/-- `getVideoListWhenStartUp` and `getImageListWhenStartUp`. -/
def getListWhenStartUp (db : FileListMgr) (kind : MediaKind) (currentTime : JavaString) : List JavaString :=
  presentList db kind currentTime

def updateWhenAlarmUp (db : FileListMgr) (kind : MediaKind) (currentTime : JavaString) (isTimeStart : Bool) :
    List JavaString :=
  if isTimeStart then presentList db kind currentTime else db.getAllFile kind

def updateWhenIntervalAddOrEdit (db : FileListMgr) (kind : MediaKind) (currentTime startTime endTime : JavaString)
    (list : List JavaString) : List JavaString :=
  if isTimeInInterval currentTime startTime endTime then db.getInInterval kind startTime endTime else list

def updateWhenIntervalDelete (db : FileListMgr) (kind : MediaKind) (currentTime startTime endTime : JavaString)
    (list : List JavaString) : List JavaString :=
  if isTimeInInterval currentTime startTime endTime then db.getAllFile kind else list

/-- `AdImageCtrl` has its own loop over the intervals here. -/
def updateWhenStrategyChanged (db : FileListMgr) (kind : MediaKind) (currentTime : JavaString)
    (list : List JavaString) : List JavaString :=
  match kind with
  | .video =>
    match db.isCurrentTimeInVideoIntervel currentTime with
    | none => db.getAllVideoFile
    | some _ => list
  | .image =>
    if (db.getAllImageTimeInterval).any fun interval => isTimeInInterval currentTime interval.1 interval.2 then list
    else db.getAllImageFile

def updateWhenFileDelete (db : FileListMgr) (kind : MediaKind) (currentTime : JavaString) : List JavaString :=
  presentList db kind currentTime

/-- Both kinds of controller load all files unless the time lies in an interval. -/
theorem updateWhenStrategyChanged_eq (db : FileListMgr) (kind : MediaKind) (currentTime : JavaString)
    (list : List JavaString) : updateWhenStrategyChanged db kind currentTime list =
      if (db.isCurrentTimeInIntervel kind currentTime).isSome then list else db.getAllFile kind := by
  cases kind with
  | video =>
    unfold updateWhenStrategyChanged FileListMgr.isCurrentTimeInVideoIntervel
    cases db.isCurrentTimeInIntervel .video currentTime with
    | none => rfl
    | some interval => rfl
  | image =>
    have same : (db.getAllImageTimeInterval).any (fun interval => isTimeInInterval currentTime interval.1 interval.2) =
        (db.isCurrentTimeInIntervel .image currentTime).isSome := by
      rw [Bool.eq_iff_iff, List.any_eq_true, FileListMgr.isCurrentTimeInIntervel, List.find?_isSome]
      rfl
    simp only [updateWhenStrategyChanged, same]
    rfl

end AdCtrl

/-- A controller, once created, with its database. `due` are the alarms of the present time
that have not been delivered yet, true for the start of an interval. -/
structure Controller where
  db : FileListMgr
  now : TimeOfDay
  due : List Bool := []
  list : Option (List JavaString) := none

/-- What happens to a controller: a change of the database with the update method called
after it, an alarm, or the passing of time. -/
inductive Change where
  | created
  /-- The rows of an interval, with the names and paths of its files. -/
  | intervalAdded (startTime endTime : JavaString) (files : List (JavaString × JavaString))
  | intervalDeleted (startTime endTime : JavaString)
  | intervalCleared
  | fileDeleted (fileName : JavaString)
  | downloadFinished (fileName fullPath : JavaString)
  /-- The `i`-th of the alarms of the present time is delivered. -/
  | alarm (i : Nat)
  | tick (time : TimeOfDay)

/-- The loop over the files of an added interval. -/
def FileListMgr.insertTimes (db : FileListMgr) (kind : MediaKind) (startTime endTime : JavaString)
    (files : List (JavaString × JavaString)) : FileListMgr :=
  files.foldl (fun db file => db.insertTime kind startTime endTime file.1 file.2) db

/-- The alarms at a time: one for each start and one for each end there. -/
def FileListMgr.alarmsAt (db : FileListMgr) (kind : MediaKind) (time : JavaString) : List Bool :=
  (db.getAllTimeInterval kind).flatMap fun interval =>
    (if interval.1 = time then [true] else []) ++ if interval.2 = time then [false] else []

/-- From one time to the next, if need be over midnight, no start or end is passed over. -/
def FileListMgr.NextAlarm (db : FileListMgr) (kind : MediaKind) (now time : JavaString) : Prop :=
  ∀ interval ∈ db.getAllTimeInterval kind, ∀ boundary ∈ [interval.1, interval.2],
    if now < time then ¬ (now < boundary ∧ boundary < time) else ¬ now < boundary ∧ ¬ boundary < time

instance (db : FileListMgr) (kind : MediaKind) (now time : JavaString) : Decidable (db.NextAlarm kind now time) :=
  inferInstanceAs (Decidable (∀ interval ∈ db.getAllTimeInterval kind, ∀ boundary ∈ [interval.1, interval.2],
    if now < time then ¬ (now < boundary ∧ boundary < time) else ¬ now < boundary ∧ ¬ boundary < time))

namespace Controller

/-- The present time as the code reads it. -/
def currentTime (c : Controller) : JavaString := getCurrentTime c.now

/-- Time passes to the next alarm at most, and only when those of the present are delivered. -/
def step (kind : MediaKind) (c : Controller) : Change → Option Controller
  | .created =>
    match c.list with
    | none => some { c with list := some (AdCtrl.getListWhenStartUp c.db kind c.currentTime) }
    | some _ => some c
  | .intervalAdded startTime endTime files =>
    let db := c.db.insertTimes kind startTime endTime files
    some { c with db, list := c.list.map (AdCtrl.updateWhenIntervalAddOrEdit db kind c.currentTime startTime endTime) }
  | .intervalDeleted startTime endTime =>
    let db := c.db.deleteTime kind startTime endTime
    some { c with db, list := c.list.map (AdCtrl.updateWhenIntervalDelete db kind c.currentTime startTime endTime) }
  | .intervalCleared =>
    let db := c.db.clearTimeInterval kind
    some { c with db, list := c.list.map (AdCtrl.updateWhenStrategyChanged db kind c.currentTime) }
  | .fileDeleted fileName =>
    let db := c.db.deleteFile kind fileName
    some { c with db, list := c.list.map fun _ => AdCtrl.updateWhenFileDelete db kind c.currentTime }
  | .downloadFinished fileName fullPath =>
    let db := c.db.insertFile kind fileName fullPath
    some { c with db, list := c.list.map (AdCtrl.updateWhenStrategyChanged db kind c.currentTime) }
  | .alarm i => (c.due[i]?).map fun isTimeStart =>
    { c with due := c.due.eraseIdx i
             list := c.list.map fun _ => AdCtrl.updateWhenAlarmUp c.db kind c.currentTime isTimeStart }
  | .tick time =>
    if c.due = [] ∧ c.db.NextAlarm kind c.currentTime (getCurrentTime time) then
      some { c with now := time, due := c.db.alarmsAt kind (getCurrentTime time) }
    else none

end Controller

/-- Strictly inside an interval the list is that of a stored interval around the present
time, and outside all of them it is that of all files. -/
def Scheduled (kind : MediaKind) (c : Controller) : Prop :=
  ∀ list, c.list = some list →
    ((∃ interval, c.db.Stored kind interval ∧ interval.1 < c.currentTime ∧ c.currentTime < interval.2) →
      ∃ interval, c.db.Stored kind interval ∧ interval.1 ≤ c.currentTime ∧ c.currentTime ≤ interval.2 ∧
        list = c.db.getInInterval kind interval.1 interval.2) ∧
    ((∀ interval, c.db.Stored kind interval → ¬ (interval.1 ≤ c.currentTime ∧ c.currentTime ≤ interval.2)) →
      list = c.db.getAllFile kind)

/-- The interval found for the present time does not end just now, unless another alarm is
still to be delivered. -/
def LoadsPresent (db : FileListMgr) (kind : MediaKind) (now : JavaString) (due : List Bool) : Prop :=
  ∀ interval, db.isCurrentTimeInIntervel kind now = some interval → now < interval.2 ∨ due ≠ []

/-- No stored interval goes on from now, except one that starts just now while an alarm is
still to be delivered. -/
def NoneGoesOn (db : FileListMgr) (kind : MediaKind) (now : JavaString) (due : List Bool) : Prop :=
  ∀ interval, db.Stored kind interval → interval.1 ≤ now → now < interval.2 → interval.1 = now ∧ due ≠ []

/-- When a list is loaded, it is one that need not be replaced before the next alarm. -/
def LoadsLasting (kind : MediaKind) (c : Controller) : Change → Prop
  | .created => c.list = none → LoadsPresent c.db kind c.currentTime c.due
  | .intervalAdded startTime endTime files => c.list.isSome →
      startTime ≤ c.currentTime → c.currentTime ≤ endTime →
      (files ≠ [] ∨ c.db.Stored kind (startTime, endTime)) ∧ (c.currentTime < endTime ∨ c.due ≠ [])
  | .intervalDeleted startTime endTime => c.list.isSome →
      startTime ≤ c.currentTime → c.currentTime ≤ endTime →
      NoneGoesOn (c.db.deleteTime kind startTime endTime) kind c.currentTime c.due
  | .intervalCleared => True
  | .fileDeleted fileName => c.list.isSome →
      LoadsPresent (c.db.deleteFile kind fileName) kind c.currentTime c.due
  | .downloadFinished _ _ => c.list.isSome → c.due = [] →
      ∀ interval, c.db.isCurrentTimeInIntervel kind c.currentTime = some interval →
        ¬ NoneGoesOn c.db kind c.currentTime []
  | .alarm i => c.list.isSome → ∀ isTimeStart, c.due[i]? = some isTimeStart →
      if isTimeStart then LoadsPresent c.db kind c.currentTime (c.due.eraseIdx i)
      else NoneGoesOn c.db kind c.currentTime (c.due.eraseIdx i)
  | .tick _ => True

instance (db : FileListMgr) (kind : MediaKind) (now : JavaString) (due : List Bool) :
    Decidable (LoadsPresent db kind now due) :=
  inferInstanceAs (Decidable (∀ interval ∈ db.isCurrentTimeInIntervel kind now, now < interval.2 ∨ due ≠ []))

instance (db : FileListMgr) (kind : MediaKind) (now : JavaString) (due : List Bool) :
    Decidable (NoneGoesOn db kind now due) :=
  decidable_of_iff (∀ interval ∈ db.getAllTimeInterval kind,
      interval.1 ≤ now → now < interval.2 → interval.1 = now ∧ due ≠ [])
    (by simp only [FileListMgr.mem_getAllTimeInterval, NoneGoesOn])

instance (kind : MediaKind) (c : Controller) : DecidablePred (LoadsLasting kind c)
  | .created => inferInstanceAs (Decidable (c.list = none → LoadsPresent c.db kind c.currentTime c.due))
  | .intervalAdded startTime endTime files => inferInstanceAs (Decidable (c.list.isSome →
      startTime ≤ c.currentTime → c.currentTime ≤ endTime →
      (files ≠ [] ∨ c.db.Stored kind (startTime, endTime)) ∧ (c.currentTime < endTime ∨ c.due ≠ [])))
  | .intervalDeleted startTime endTime => inferInstanceAs (Decidable (c.list.isSome →
      startTime ≤ c.currentTime → c.currentTime ≤ endTime →
      NoneGoesOn (c.db.deleteTime kind startTime endTime) kind c.currentTime c.due))
  | .intervalCleared => isTrue trivial
  | .fileDeleted fileName => inferInstanceAs (Decidable (c.list.isSome →
      LoadsPresent (c.db.deleteFile kind fileName) kind c.currentTime c.due))
  | .downloadFinished _ _ => inferInstanceAs (Decidable (c.list.isSome → c.due = [] →
      ∀ interval ∈ c.db.isCurrentTimeInIntervel kind c.currentTime, ¬ NoneGoesOn c.db kind c.currentTime []))
  | .alarm i => inferInstanceAs (Decidable (c.list.isSome → ∀ isTimeStart ∈ c.due[i]?,
      if isTimeStart = true then LoadsPresent c.db kind c.currentTime (c.due.eraseIdx i)
      else NoneGoesOn c.db kind c.currentTime (c.due.eraseIdx i)))
  | .tick _ => isTrue trivial

/-- What makes a play list right until the next alarm. -/
inductive Held (db : FileListMgr) (kind : MediaKind) (now : JavaString) (due : List Bool) : List JavaString → Prop
  | interval (interval : JavaString × JavaString) (stored : db.Stored kind interval) (started : interval.1 ≤ now)
      (lasts : now ≤ interval.2) (later : now < interval.2 ∨ due ≠ []) :
      Held db kind now due (db.getInInterval kind interval.1 interval.2)
  | all (free : NoneGoesOn db kind now due) : Held db kind now due (db.getAllFile kind)
  /-- Any list will do between two intervals, when an alarm is still to load another. -/
  | pending (list : List JavaString) (alarm : due ≠ []) (interval : JavaString × JavaString)
      (stored : db.Stored kind interval) (started : interval.1 ≤ now) (lasts : now ≤ interval.2)
      (between : ∀ other, db.Stored kind other → ¬ (other.1 < now ∧ now < other.2)) : Held db kind now due list

namespace FileListMgr

section
variable {db : FileListMgr} {kind : MediaKind}

theorem times_insertTimes (startTime endTime : JavaString) (files : List (JavaString × JavaString)) :
    (db.insertTimes kind startTime endTime files).times kind = db.times kind ++
      files.map fun file => { startTime, endTime, fileName := file.1, fullPath := file.2 } := by
  induction files generalizing db with
  | nil => simp [insertTimes]
  | cons file rest ih =>
    have step := @ih (db.insertTime kind startTime endTime file.1 file.2)
    simp only [insertTimes, List.foldl_cons] at step ⊢
    rw [step]
    simp [insertTime]

theorem times_insertTimes_other {startTime endTime : JavaString} {files : List (JavaString × JavaString)}
    {other : MediaKind} (different : other ≠ kind) :
    (db.insertTimes kind startTime endTime files).times other = db.times other := by
  induction files generalizing db with
  | nil => rfl
  | cons file rest ih => exact ih.trans (Function.update_of_ne different ..)

theorem files_insertTimes (startTime endTime : JavaString) (files : List (JavaString × JavaString)) :
    (db.insertTimes kind startTime endTime files).files = db.files := by
  induction files generalizing db with
  | nil => rfl
  | cons file rest ih => exact ih

theorem stored_insertTimes {startTime endTime : JavaString} {files : List (JavaString × JavaString)}
    {interval : JavaString × JavaString} : (db.insertTimes kind startTime endTime files).Stored kind interval ↔
      db.Stored kind interval ∨ files ≠ [] ∧ interval = (startTime, endTime) := by
  simp only [Stored, times_insertTimes, List.mem_append, List.mem_map, or_and_right, exists_or, Prod.ext_iff]
  refine or_congr Iff.rfl ⟨?_, ?_⟩
  · rintro ⟨row, ⟨file, member, rfl⟩, starts, ends⟩
    exact ⟨List.ne_nil_of_mem member, starts.symm, ends.symm⟩
  · rintro ⟨some, starts, ends⟩
    obtain ⟨file, member⟩ := List.exists_mem_of_ne_nil files some
    exact ⟨_, ⟨file, member, rfl⟩, starts.symm, ends.symm⟩

theorem getInInterval_congr {db' : FileListMgr} {interval : JavaString × JavaString}
    (same : ((db'.times kind).filter fun row => row.startTime = interval.1 ∧ row.endTime = interval.2) =
      (db.times kind).filter fun row => row.startTime = interval.1 ∧ row.endTime = interval.2) :
    db'.getInInterval kind interval.1 interval.2 = db.getInInterval kind interval.1 interval.2 := by
  unfold getInInterval
  rw [same]

theorem getInInterval_insertTimes {startTime endTime : JavaString} {files : List (JavaString × JavaString)}
    {interval : JavaString × JavaString} (other : interval ≠ (startTime, endTime)) :
    (db.insertTimes kind startTime endTime files).getInInterval kind interval.1 interval.2 =
      db.getInInterval kind interval.1 interval.2 := by
  apply getInInterval_congr
  rw [times_insertTimes, List.filter_append, List.append_right_eq_self, List.filter_eq_nil_iff]
  intro row member
  obtain ⟨file, -, rfl⟩ := List.mem_map.mp member
  simp only [decide_eq_true_eq]
  rintro ⟨starts, ends⟩
  exact other (Prod.ext starts.symm ends.symm)

theorem times_deleteTime (startTime endTime : JavaString) : (db.deleteTime kind startTime endTime).times kind =
    (db.times kind).filter fun row => ¬ (row.startTime = startTime ∧ row.endTime = endTime) :=
  Function.update_self ..

theorem stored_deleteTime {startTime endTime : JavaString} {interval : JavaString × JavaString} :
    (db.deleteTime kind startTime endTime).Stored kind interval ↔
      db.Stored kind interval ∧ interval ≠ (startTime, endTime) := by
  simp only [Stored, times_deleteTime, List.mem_filter, decide_eq_true_eq, Ne, Prod.ext_iff]
  constructor
  · rintro ⟨row, ⟨member, other⟩, starts, ends⟩
    exact ⟨⟨row, member, starts, ends⟩, starts ▸ ends ▸ other⟩
  · rintro ⟨⟨row, member, starts, ends⟩, other⟩
    exact ⟨row, ⟨member, starts ▸ ends ▸ other⟩, starts, ends⟩

theorem getInInterval_deleteTime {startTime endTime : JavaString} {interval : JavaString × JavaString}
    (other : interval ≠ (startTime, endTime)) :
    (db.deleteTime kind startTime endTime).getInInterval kind interval.1 interval.2 =
      db.getInInterval kind interval.1 interval.2 := by
  apply getInInterval_congr
  rw [times_deleteTime, List.filter_filter]
  apply List.filter_congr
  intro row _
  rw [Bool.eq_iff_iff]
  simp only [decide_eq_true_eq, Bool.and_eq_true, and_iff_left_iff_imp]
  rintro ⟨starts, ends⟩ ⟨starts', ends'⟩
  exact other (Prod.ext (starts.symm.trans starts') (ends.symm.trans ends'))

end

end FileListMgr

section
variable {db db' : FileListMgr} {kind : MediaKind} {now : JavaString} {due : List Bool} {list : List JavaString}

theorem held_presentList (lasting : LoadsPresent db kind now due) :
    Held db kind now due (AdCtrl.presentList db kind now) := by
  unfold AdCtrl.presentList
  split
  next none =>
    refine .all fun interval stored started later => ?_
    exact absurd ⟨started, later.le⟩ (FileListMgr.isCurrentTimeInIntervel_none none stored)
  next interval found =>
    obtain ⟨stored, started, lasts⟩ := FileListMgr.isCurrentTimeInIntervel_some found
    exact .interval interval stored started lasts (lasting interval found)

/-- A change elsewhere in the table: the intervals around the present time are the same, with
the same files, and so are all files. -/
theorem Held.congr (held : Held db kind now due list)
    (stored : ∀ interval, interval.1 ≤ now → now ≤ interval.2 →
      (db'.Stored kind interval ↔ db.Stored kind interval))
    (rows : ∀ interval : JavaString × JavaString, interval.1 ≤ now → now ≤ interval.2 →
      db'.getInInterval kind interval.1 interval.2 = db.getInInterval kind interval.1 interval.2)
    (files : db'.getAllFile kind = db.getAllFile kind) : Held db' kind now due list := by
  cases held with
  | interval interval present started lasts later =>
    rw [← rows interval started lasts]
    exact .interval interval ((stored interval started lasts).mpr present) started lasts later
  | all free =>
    rw [← files]
    refine .all fun interval present started later => ?_
    exact free interval ((stored interval started later.le).mp present) started later
  | pending list alarm interval present started lasts between =>
    refine .pending list alarm interval ((stored interval started lasts).mpr present) started lasts ?_
    intro other there inside
    exact between other ((stored other inside.1.le inside.2.le).mp there) inside

theorem held_updateWhenStrategyChanged
    (held : (db.isCurrentTimeInIntervel kind now).isSome → Held db kind now due list) :
    Held db kind now due (AdCtrl.updateWhenStrategyChanged db kind now list) := by
  rw [AdCtrl.updateWhenStrategyChanged_eq]
  cases found : db.isCurrentTimeInIntervel kind now with
  | some interval => exact held (by rw [found]; rfl)
  | none =>
    refine .all fun interval stored started later => ?_
    exact absurd ⟨started, later.le⟩ (FileListMgr.isCurrentTimeInIntervel_none found stored)

theorem held_intervalAdded {startTime endTime : JavaString} {files : List (JavaString × JavaString)}
    (held : Held db kind now due list)
    (condition : startTime ≤ now → now ≤ endTime →
      (files ≠ [] ∨ db.Stored kind (startTime, endTime)) ∧ (now < endTime ∨ due ≠ [])) :
    Held (db.insertTimes kind startTime endTime files) kind now due (AdCtrl.updateWhenIntervalAddOrEdit
      (db.insertTimes kind startTime endTime files) kind now startTime endTime list) := by
  unfold AdCtrl.updateWhenIntervalAddOrEdit
  by_cases inside : startTime ≤ now ∧ now ≤ endTime
  · rw [if_pos ((isTimeInInterval_iff ..).mpr inside)]
    obtain ⟨rows, later⟩ := condition inside.1 inside.2
    refine .interval (startTime, endTime) (FileListMgr.stored_insertTimes.mpr ?_) inside.1 inside.2 later
    exact rows.elim (fun some => Or.inr ⟨some, rfl⟩) Or.inl
  · rw [if_neg (mt (isTimeInInterval_iff ..).mp inside)]
    have other : ∀ interval : JavaString × JavaString, interval.1 ≤ now → now ≤ interval.2 →
        interval ≠ (startTime, endTime) := by
      rintro interval started lasts rfl
      exact inside ⟨started, lasts⟩
    refine held.congr (fun interval started lasts => ?_) (fun interval started lasts => ?_) ?_
    · rw [FileListMgr.stored_insertTimes]
      exact or_iff_left fun new => other interval started lasts new.2
    · exact FileListMgr.getInInterval_insertTimes (other interval started lasts)
    · simp only [FileListMgr.getAllFile, FileListMgr.files_insertTimes]

theorem held_intervalDeleted {startTime endTime : JavaString} (held : Held db kind now due list)
    (condition : startTime ≤ now → now ≤ endTime →
      NoneGoesOn (db.deleteTime kind startTime endTime) kind now due) :
    Held (db.deleteTime kind startTime endTime) kind now due
      (AdCtrl.updateWhenIntervalDelete (db.deleteTime kind startTime endTime) kind now startTime endTime list) := by
  unfold AdCtrl.updateWhenIntervalDelete
  by_cases inside : startTime ≤ now ∧ now ≤ endTime
  · rw [if_pos ((isTimeInInterval_iff ..).mpr inside)]
    exact .all (condition inside.1 inside.2)
  · rw [if_neg (mt (isTimeInInterval_iff ..).mp inside)]
    have other : ∀ interval : JavaString × JavaString, interval.1 ≤ now → now ≤ interval.2 →
        interval ≠ (startTime, endTime) := by
      rintro interval started lasts rfl
      exact inside ⟨started, lasts⟩
    refine held.congr (fun interval started lasts => ?_) (fun interval started lasts => ?_) rfl
    · rw [FileListMgr.stored_deleteTime]
      exact and_iff_left (other interval started lasts)
    · exact FileListMgr.getInInterval_deleteTime (other interval started lasts)

/-- A new file is missing from a list of all files only when nothing loads it again. -/
theorem held_downloadFinished {fileName fullPath : JavaString} (held : Held db kind now due list)
    (condition : due = [] → ∀ interval, db.isCurrentTimeInIntervel kind now = some interval →
      ¬ NoneGoesOn db kind now []) :
    Held (db.insertFile kind fileName fullPath) kind now due
      (AdCtrl.updateWhenStrategyChanged (db.insertFile kind fileName fullPath) kind now list) := by
  refine held_updateWhenStrategyChanged fun found => ?_
  obtain ⟨current, found⟩ := Option.isSome_iff_exists.mp found
  change db.isCurrentTimeInIntervel kind now = some current at found
  obtain ⟨present, begun, unended⟩ := FileListMgr.isCurrentTimeInIntervel_some found
  cases held with
  | interval interval stored started lasts later => exact .interval interval stored started lasts later
  | pending list alarm interval stored started lasts between =>
    exact .pending list alarm interval stored started lasts between
  | all free =>
    have alarm : due ≠ [] := by
      intro none
      subst none
      exact condition rfl current found free
    refine .pending _ alarm current present begun unended ?_
    intro other stored inside
    have starts := free other stored inside.1.le inside.2
    exact inside.1.ne starts.1

theorem held_alarm {isTimeStart : Bool}
    (condition : if isTimeStart then LoadsPresent db kind now due else NoneGoesOn db kind now due) :
    Held db kind now due (AdCtrl.updateWhenAlarmUp db kind now isTimeStart) := by
  cases isTimeStart with
  | true => exact held_presentList condition
  | false => exact .all condition

/-- When the alarms of now are delivered, the list stays right up to the next alarm. -/
theorem held_tick {time : JavaString} (held : Held db kind now [] list) (next : db.NextAlarm kind now time) :
    Held db kind time (db.alarmsAt kind time) list := by
  have passed : ∀ interval, db.Stored kind interval → ∀ boundary ∈ [interval.1, interval.2],
      if now < time then ¬ (now < boundary ∧ boundary < time) else ¬ now < boundary ∧ ¬ boundary < time :=
    fun interval stored => next interval (FileListMgr.mem_getAllTimeInterval.mpr stored)
  have starts : ∀ interval, db.Stored kind interval → interval.1 = time → db.alarmsAt kind time ≠ [] := by
    intro interval stored same empty
    have none := List.flatMap_eq_nil_iff.mp empty interval (FileListMgr.mem_getAllTimeInterval.mpr stored)
    simp [same] at none
  have ends : ∀ interval, db.Stored kind interval → interval.2 = time → db.alarmsAt kind time ≠ [] := by
    intro interval stored same empty
    have none := List.flatMap_eq_nil_iff.mp empty interval (FileListMgr.mem_getAllTimeInterval.mpr stored)
    simp [same] at none
  cases held with
  | interval interval stored started lasts later =>
    have before : now < interval.2 := later.resolve_right fun some => some rfl
    have passedEnd := passed interval stored interval.2 (by simp)
    by_cases forward : now < time
    · rw [if_pos forward] at passedEnd
      have reached : time ≤ interval.2 := not_lt.mp fun beyond => passedEnd ⟨before, beyond⟩
      refine .interval interval stored (started.trans forward.le) reached ?_
      rcases reached.lt_or_eq with less | same
      · exact Or.inl less
      · exact Or.inr (ends interval stored same.symm)
    · rw [if_neg forward] at passedEnd
      exact absurd before passedEnd.1
  | all free =>
    refine .all fun interval stored started later => ?_
    have passedStart := passed interval stored interval.1 (by simp)
    have ahead : ¬ interval.1 < time := by
      by_cases forward : now < time
      · rw [if_pos forward] at passedStart
        intro behind
        have begun : interval.1 ≤ now := not_lt.mp fun above => passedStart ⟨above, behind⟩
        exact (free interval stored begun (forward.trans later)).2 rfl
      · rw [if_neg forward] at passedStart
        exact passedStart.2
    have same : interval.1 = time := started.antisymm (not_lt.mp ahead)
    exact ⟨same, starts interval stored same⟩
  | pending list alarm => exact absurd rfl alarm

end

/-- The invariant of a controller. -/
def HeldList (kind : MediaKind) (c : Controller) : Prop :=
  ∀ list, c.list = some list → Held c.db kind c.currentTime c.due list

theorem scheduled_of_held {kind : MediaKind} {c : Controller} (held : HeldList kind c) : Scheduled kind c := by
  intro list present
  cases held list present with
  | interval interval stored started lasts later =>
    refine ⟨fun _ => ⟨interval, stored, started, lasts, rfl⟩, fun outside => ?_⟩
    exact absurd ⟨started, lasts⟩ (outside interval stored)
  | all free =>
    refine ⟨?_, fun _ => rfl⟩
    rintro ⟨interval, stored, started, later⟩
    exact absurd (free interval stored started.le later).1 started.ne
  | pending list alarm interval stored started lasts between =>
    refine ⟨?_, fun outside => absurd ⟨started, lasts⟩ (outside interval stored)⟩
    rintro ⟨other, there, inside⟩
    exact absurd inside (between other there)

/-- A change that replaces the list, where there is one. -/
theorem heldList_map {kind : MediaKind} {c c' : Controller} {f : List JavaString → List JavaString}
    (mapped : c'.list = c.list.map f)
    (each : ∀ list, c.list = some list → Held c'.db kind c'.currentTime c'.due (f list)) : HeldList kind c' := by
  intro list present
  rw [mapped] at present
  obtain ⟨old, was, rfl⟩ := Option.map_eq_some_iff.mp present
  exact each old was

theorem held_step {kind : MediaKind} {c c' : Controller} {change : Change} (held : HeldList kind c)
    (condition : LoadsLasting kind c change) (taken : c.step kind change = some c') : HeldList kind c' := by
  cases change with
  | created =>
    simp only [Controller.step] at taken
    split at taken
    next none =>
      obtain rfl := Option.some.inj taken
      intro list present
      obtain rfl := Option.some.inj present
      exact held_presentList (condition none)
    next =>
      obtain rfl := Option.some.inj taken
      exact held
  | intervalAdded startTime endTime files =>
    obtain rfl := Option.some.inj taken
    refine heldList_map rfl fun list was => ?_
    exact held_intervalAdded (held list was) (condition (by rw [was]; rfl))
  | intervalDeleted startTime endTime =>
    obtain rfl := Option.some.inj taken
    refine heldList_map rfl fun list was => ?_
    exact held_intervalDeleted (held list was) (condition (by rw [was]; rfl))
  | intervalCleared =>
    obtain rfl := Option.some.inj taken
    refine heldList_map rfl fun list was => ?_
    refine held_updateWhenStrategyChanged fun found => ?_
    obtain ⟨interval, found⟩ := Option.isSome_iff_exists.mp found
    obtain ⟨row, member, -⟩ := (FileListMgr.isCurrentTimeInIntervel_some found).1
    simp [FileListMgr.clearTimeInterval] at member
  | fileDeleted fileName =>
    obtain rfl := Option.some.inj taken
    refine heldList_map rfl fun list was => ?_
    exact held_presentList (condition (by rw [was]; rfl))
  | downloadFinished fileName fullPath =>
    obtain rfl := Option.some.inj taken
    refine heldList_map rfl fun list was => ?_
    exact held_downloadFinished (held list was) (condition (by rw [was]; rfl))
  | alarm i =>
    obtain ⟨isTimeStart, due, rfl⟩ := Option.map_eq_some_iff.mp taken
    refine heldList_map rfl fun list was => ?_
    exact held_alarm (condition (by rw [was]; rfl) isTimeStart due)
  | tick time =>
    simp only [Controller.step, Option.ite_none_right_eq_some, Option.some.injEq] at taken
    obtain ⟨⟨delivered, next⟩, rfl⟩ := taken
    intro list present
    have before := held list present
    rw [delivered] at before
    exact held_tick before next

/-- For every content of the tables and every order of changes, alarms and ticks: as long as
what is loaded lasts until the next alarm, the play list is always the scheduled one. -/
theorem scheduled_throughout {kind : MediaKind} {db : FileListMgr} {now : TimeOfDay} {changes : List Change}
    (lasting : Steps (Controller.step kind) (LoadsLasting kind) { db, now } changes) :
    Throughout (Controller.step kind) (Scheduled kind) { db, now } changes := by
  have start : HeldList kind { db, now } := by
    intro list present
    cases present
  exact throughout_of_invariant (fun _ _ _ inv ok taken => held_step inv ok taken) (fun _ inv => scheduled_of_held inv)
    start lasting

/-- Two videos, one to be played from eight to ten, the other from nine to eleven. -/
def overlappingIntervals : FileListMgr where
  files kind := match kind with
    | .video => [⟨ofString "a.mp4", ofString "/Camera/a.mp4"⟩, ⟨ofString "b.mp4", ofString "/Camera/b.mp4"⟩]
    | .image => []
  times kind := match kind with
    | .video => [⟨ofString "08:00:00", ofString "10:00:00", ofString "a.mp4", ofString "/Camera/a.mp4"⟩,
        ⟨ofString "09:00:00", ofString "11:00:00", ofString "b.mp4", ofString "/Camera/b.mp4"⟩]
    | .image => []

/-- The morning up to half past nine. -/
def morning : List Change :=
  [.created, .tick ⟨8, 0, 0⟩, .alarm 0, .tick ⟨9, 0, 0⟩, .alarm 0, .tick ⟨9, 30, 0⟩]

theorem morning_scheduled : Throughout (Controller.step .video) (Scheduled .video)
    { db := overlappingIntervals, now := ⟨7, 0, 0⟩ } morning :=
  scheduled_throughout (by decide +kernel)

/-- At ten the end of the first interval hides the second one. -/
theorem overlap_hidden : ¬ Throughout (Controller.step .video) (Scheduled .video)
    { db := overlappingIntervals, now := ⟨7, 0, 0⟩ } (morning ++ [.tick ⟨10, 0, 0⟩, .alarm 0]) := by
  intro all
  have reached : run (Controller.step .video) { db := overlappingIntervals, now := ⟨7, 0, 0⟩ }
      (morning ++ [.tick ⟨10, 0, 0⟩, .alarm 0]) =
        some { db := overlappingIntervals, now := ⟨10, 0, 0⟩, list := overlappingIntervals.getAllFile .video } := rfl
  have inside : overlappingIntervals.Stored .video (ofString "09:00:00", ofString "11:00:00") ∧
      ofString "09:00:00" < getCurrentTime ⟨10, 0, 0⟩ ∧ getCurrentTime ⟨10, 0, 0⟩ < ofString "11:00:00" := by
    decide +kernel
  obtain ⟨interval, stored, -, -, same⟩ := (all _ [] (List.append_nil _).symm _ reached _ rfl).1 ⟨_, inside⟩
  have hidden : ∀ interval ∈ overlappingIntervals.getAllTimeInterval .video,
      overlappingIntervals.getAllFile .video ≠ overlappingIntervals.getInInterval .video interval.1 interval.2 := by
    decide +kernel
  exact hidden interval (FileListMgr.mem_getAllTimeInterval.mpr stored) same

end AdTerminal.Schedule
