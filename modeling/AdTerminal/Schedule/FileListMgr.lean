import AdTerminal.Strategy.PlayLists

/-! The database of the terminal: which files there are of each kind, and in which
intervals which of them are to be played. A row of an interval is for one file. -/

namespace AdTerminal.Schedule
open Strategy JavaString

/-- A row of `ImageTable` or `VideoTable`. -/
structure FileRow where
  fileName : JavaString
  fullPath : JavaString
  deriving DecidableEq, Repr

/-- A row of `TimeForVideo` or `TimeForImage`. -/
structure TimeRow where
  startTime : JavaString
  endTime : JavaString
  fileName : JavaString
  fullPath : JavaString
  deriving DecidableEq, Repr

/-- `Utils.isTimeInInterval`, of strings that are not null. -/
def isTimeInInterval (time timeStart timeEnd : JavaString) : Bool :=
  decide (0 ≤ compareTo time timeStart ∧ compareTo time timeEnd ≤ 0)

theorem isTimeInInterval_iff (time timeStart timeEnd : JavaString) :
    isTimeInInterval time timeStart timeEnd = true ↔ timeStart ≤ time ∧ time ≤ timeEnd := by
  rw [isTimeInInterval, decide_eq_true_iff, le_compareTo_iff, compareTo_le_iff]

/-- It is the same comparison as that of a strategy's interval. -/
theorem isTimeInInterval_some (time : JavaString) (timeStart timeEnd : String) :
    Strategy.isTimeInInterval time (some timeStart) (some timeEnd) =
      .ok (isTimeInInterval time (ofString timeStart) (ofString timeEnd)) := by
  rw [Strategy.isTimeInInterval, dereference_bind]
  by_cases reached : 0 ≤ compareTo time (ofString timeStart)
  · rw [if_pos reached, dereference_bind]
    simp [isTimeInInterval, reached, pure, Except.pure]
  · rw [if_neg reached]
    simp [isTimeInInterval, reached, pure, Except.pure]

structure FileListMgr where
  files : MediaKind → List FileRow := fun _ => []
  times : MediaKind → List TimeRow := fun _ => []

namespace FileListMgr

def insertFile (db : FileListMgr) (kind : MediaKind) (fileName fullPath : JavaString) : FileListMgr :=
  { db with files := Function.update db.files kind (db.files kind ++ [{ fileName, fullPath }]) }

def insertTime (db : FileListMgr) (kind : MediaKind) (startTime endTime fileName fullPath : JavaString) :
    FileListMgr :=
  { db with times := Function.update db.times kind (db.times kind ++ [{ startTime, endTime, fileName, fullPath }]) }

/-- The records of a file are deleted from both tables. -/
def deleteFile (db : FileListMgr) (kind : MediaKind) (fileName : JavaString) : FileListMgr where
  files := Function.update db.files kind ((db.files kind).filter fun row => row.fileName ≠ fileName)
  times := Function.update db.times kind ((db.times kind).filter fun row => row.fileName ≠ fileName)

def deleteTime (db : FileListMgr) (kind : MediaKind) (startTime endTime : JavaString) : FileListMgr :=
  { db with times := Function.update db.times kind ((db.times kind).filter fun row =>
      ¬ (row.startTime = startTime ∧ row.endTime = endTime)) }

def clearTimeInterval (db : FileListMgr) (kind : MediaKind) : FileListMgr :=
  { db with times := Function.update db.times kind [] }

/-- The paths of all files. -/
def getAllFile (db : FileListMgr) (kind : MediaKind) : List JavaString := (db.files kind).map FileRow.fullPath

/-- The distinct intervals. -/
def getAllTimeInterval (db : FileListMgr) (kind : MediaKind) : List (JavaString × JavaString) :=
  ((db.times kind).map fun row => (row.startTime, row.endTime)).eraseDups

/-- The paths of the files of one interval; of videos, each path once. -/
def getInInterval (db : FileListMgr) (kind : MediaKind) (startTime endTime : JavaString) : List JavaString :=
  let rows := (db.times kind).filter fun row => row.startTime = startTime ∧ row.endTime = endTime
  let paths := rows.map TimeRow.fullPath
  match kind with
  | .video => paths.eraseDups
  | .image => paths

/-- The first interval the time lies in. -/
def isCurrentTimeInIntervel (db : FileListMgr) (kind : MediaKind) (currentTime : JavaString) :
    Option (JavaString × JavaString) :=
  (db.getAllTimeInterval kind).find? fun interval => isTimeInInterval currentTime interval.1 interval.2

def insertVideoFile (db : FileListMgr) := db.insertFile .video
def insertImageFile (db : FileListMgr) := db.insertFile .image
def insertTime4Video (db : FileListMgr) := db.insertTime .video
def insertTime4Image (db : FileListMgr) := db.insertTime .image
def deleteVideoFile (db : FileListMgr) := db.deleteFile .video
def deleteImageFile (db : FileListMgr) := db.deleteFile .image
def deleteVideoTime (db : FileListMgr) := db.deleteTime .video
def deleteImageTime (db : FileListMgr) := db.deleteTime .image
def clearVideoTimeInterval (db : FileListMgr) := db.clearTimeInterval .video
def clearImageTimeInterval (db : FileListMgr) := db.clearTimeInterval .image
def getAllVideoFile (db : FileListMgr) := db.getAllFile .video
def getAllImageFile (db : FileListMgr) := db.getAllFile .image
def getAllVideoTimeInterval (db : FileListMgr) := db.getAllTimeInterval .video
def getAllImageTimeInterval (db : FileListMgr) := db.getAllTimeInterval .image
def getVideoInInterval (db : FileListMgr) := db.getInInterval .video
def getImageInInterval (db : FileListMgr) := db.getInInterval .image
def isCurrentTimeInVideoIntervel (db : FileListMgr) := db.isCurrentTimeInIntervel .video
def isCurrentTimeInImageIntervel (db : FileListMgr) := db.isCurrentTimeInIntervel .image

/-- Some row has that interval. -/
def Stored (db : FileListMgr) (kind : MediaKind) (interval : JavaString × JavaString) : Prop :=
  ∃ row ∈ db.times kind, row.startTime = interval.1 ∧ row.endTime = interval.2

instance (db : FileListMgr) (kind : MediaKind) (interval : JavaString × JavaString) :
    Decidable (db.Stored kind interval) :=
  inferInstanceAs (Decidable (∃ row ∈ db.times kind, row.startTime = interval.1 ∧ row.endTime = interval.2))

@[simp] theorem mem_getAllTimeInterval {db : FileListMgr} {kind : MediaKind} {interval : JavaString × JavaString} :
    interval ∈ db.getAllTimeInterval kind ↔ db.Stored kind interval := by
  simp only [getAllTimeInterval, List.mem_eraseDups, List.mem_map, Stored, Prod.ext_iff]

theorem isCurrentTimeInIntervel_some {db : FileListMgr} {kind : MediaKind} {currentTime : JavaString}
    {interval : JavaString × JavaString} (found : db.isCurrentTimeInIntervel kind currentTime = some interval) :
    db.Stored kind interval ∧ interval.1 ≤ currentTime ∧ currentTime ≤ interval.2 := by
  have inside := List.find?_some found
  exact ⟨mem_getAllTimeInterval.mp (List.mem_of_find?_eq_some found), (isTimeInInterval_iff ..).mp inside⟩

theorem isCurrentTimeInIntervel_none {db : FileListMgr} {kind : MediaKind} {currentTime : JavaString}
    (found : db.isCurrentTimeInIntervel kind currentTime = none) {interval : JavaString × JavaString}
    (stored : db.Stored kind interval) : ¬ (interval.1 ≤ currentTime ∧ currentTime ≤ interval.2) := by
  rw [← isTimeInInterval_iff]
  exact List.find?_eq_none.mp found interval (mem_getAllTimeInterval.mpr stored)

end FileListMgr

end AdTerminal.Schedule
