import AdTerminal.Library.Cursor
import AdTerminal.Schedule.AdCtrl

/-! The cursor of `AdVideoCtrl`. A query for all files moves it to the first row, a query for an
interval does not; each update method sets a cursor in a way of its own. -/

namespace AdTerminal.Schedule
open Strategy JavaString Transition

namespace VideoCursor

def getAllVideoFile (db : FileListMgr) : Cursor JavaString :=
  let cursor : Cursor JavaString := { rows := db.getAllVideoFile }
  cursor.moveToFirst.2

def getVideoInInterval (db : FileListMgr) (startTime endTime : JavaString) : Cursor JavaString :=
  { rows := db.getVideoInInterval startTime endTime }

/-- The query for the interval found for the present time, or for all files. -/
def presentVideo (db : FileListMgr) (currentTime : JavaString) : Cursor JavaString :=
  match db.isCurrentTimeInVideoIntervel currentTime with
  | none => getAllVideoFile db
  | some timeInterval => getVideoInInterval db timeInterval.1 timeInterval.2

def getVideoListWhenStartUp (db : FileListMgr) (currentTime : JavaString) : Cursor JavaString :=
  (presentVideo db currentTime).moveToFirst.2

end VideoCursor

open VideoCursor

/-- The controller, with the database and the time it reads. -/
structure AdVideoCtrl where
  db : FileListMgr
  now : TimeOfDay
  mVideoListCursor : Cursor JavaString
  /-- What `getVideoByOrder` has returned since the cursor was set. -/
  returned : List (Option JavaString) := []

namespace AdVideoCtrl

def currentTime (s : AdVideoCtrl) : JavaString := getCurrentTime s.now

def new (db : FileListMgr) (now : TimeOfDay) : AdVideoCtrl :=
  { db, now, mVideoListCursor := getVideoListWhenStartUp db (getCurrentTime now) }

/-- Without rows null is returned. A cursor that stands on no row throws. -/
def getVideoByOrder (s : AdVideoCtrl) : Option (Option JavaString × AdVideoCtrl) :=
  if s.mVideoListCursor.getCount = 0 then some (none, { s with returned := s.returned ++ [none] })
  else s.mVideoListCursor.get.map fun videoPath =>
    let next := s.mVideoListCursor.moveToNext
    (some videoPath, { s with
      mVideoListCursor := if next.1 then next.2 else next.2.moveToFirst.2
      returned := s.returned ++ [some videoPath] })

def setCursor (newCursor : Cursor JavaString) (s : AdVideoCtrl) : AdVideoCtrl :=
  { s with mVideoListCursor := newCursor, returned := [] }

/-- A view that plays nothing is sent a message, on which it asks for the next video. -/
def cursorChange (newCursor : Cursor JavaString) (s : AdVideoCtrl) : AdVideoCtrl := s.setCursor newCursor.moveToFirst.2

def updateWhenAlarmUp (isTimeStart : Bool) (s : AdVideoCtrl) : AdVideoCtrl :=
  s.setCursor (if isTimeStart then presentVideo s.db s.currentTime else getAllVideoFile s.db)

def updateWhenIntervalAddOrEdit (startTime endTime : JavaString) (s : AdVideoCtrl) : AdVideoCtrl :=
  if isTimeInInterval s.currentTime startTime endTime then s.cursorChange (getVideoInInterval s.db startTime endTime)
  else s

def updateWhenIntervalDelete (startTime endTime : JavaString) (s : AdVideoCtrl) : AdVideoCtrl :=
  if isTimeInInterval s.currentTime startTime endTime then s.cursorChange (getAllVideoFile s.db) else s

def updateWhenStrategyChanged (s : AdVideoCtrl) : AdVideoCtrl :=
  match s.db.isCurrentTimeInVideoIntervel s.currentTime with
  | none => s.cursorChange (getAllVideoFile s.db)
  | some _ => s

def updateWhenFileDelete (s : AdVideoCtrl) : AdVideoCtrl := s.cursorChange (presentVideo s.db s.currentTime)

/-- The database may change in any way and time may pass between two calls. -/
inductive Event where
  | updateWhenAlarmUp (isTimeStart : Bool)
  | updateWhenIntervalAddOrEdit (startTime endTime : JavaString)
  | updateWhenIntervalDelete (startTime endTime : JavaString)
  | updateWhenStrategyChanged
  | updateWhenFileDelete
  | updateWhenDownloadFinished
  | getVideoByOrder
  | passed (db : FileListMgr) (now : TimeOfDay)

/-- An exception ends the process. -/
def step (s : AdVideoCtrl) : Event → Option AdVideoCtrl
  | .updateWhenAlarmUp isTimeStart => some (s.updateWhenAlarmUp isTimeStart)
  | .updateWhenIntervalAddOrEdit startTime endTime => some (s.updateWhenIntervalAddOrEdit startTime endTime)
  | .updateWhenIntervalDelete startTime endTime => some (s.updateWhenIntervalDelete startTime endTime)
  | .updateWhenStrategyChanged => some s.updateWhenStrategyChanged
  | .updateWhenFileDelete => some s.updateWhenFileDelete
  | .updateWhenDownloadFinished => some s
  | .getVideoByOrder => s.getVideoByOrder.map Prod.snd
  | .passed db now => some { s with db, now }

/-- A cursor with rows stands on one of them, so that a video can be read, and as many calls as
there are rows return each row once. -/
structure InOrder (s : AdVideoCtrl) : Prop where
  position : 0 < s.mVideoListCursor.getCount →
    0 ≤ s.mVideoListCursor.position ∧ s.mVideoListCursor.position < s.mVideoListCursor.getCount
  readable : s.getVideoByOrder.isSome
  window : ∀ before window after, s.returned = before ++ window ++ after →
    window.length = s.mVideoListCursor.getCount → window.Perm (s.mVideoListCursor.rows.map some)

/-- A start is alarmed only while the present time lies in no stored interval. -/
def StartsOutside (s : AdVideoCtrl) : Event → Prop
  | .updateWhenAlarmUp isTimeStart => isTimeStart = true → s.db.isCurrentTimeInVideoIntervel s.currentTime = none
  | _ => True

/-- The cursor has gone around from its first row. -/
structure Turning (s : AdVideoCtrl) : Prop where
  position : s.mVideoListCursor.rows ≠ [] →
    s.mVideoListCursor.position = (s.returned.length % s.mVideoListCursor.rows.length : Nat)
  cyclic : Cursor.Cyclic s.mVideoListCursor.rows s.returned

variable {s t : AdVideoCtrl} {event : Event}

@[simp] theorem rows_getAllVideoFile (db : FileListMgr) : (getAllVideoFile db).rows = db.getAllVideoFile :=
  Cursor.rows_moveToFirst

theorem rows_presentVideo (db : FileListMgr) (currentTime : JavaString) :
    (presentVideo db currentTime).rows = AdCtrl.presentList db .video currentTime := by
  unfold presentVideo AdCtrl.presentList FileListMgr.isCurrentTimeInVideoIntervel
  cases db.isCurrentTimeInIntervel .video currentTime with
  | none => exact rows_getAllVideoFile db
  | some timeInterval => rfl

theorem rows_new (db : FileListMgr) (now : TimeOfDay) :
    (new db now).mVideoListCursor.rows = AdCtrl.getListWhenStartUp db .video (getCurrentTime now) :=
  Cursor.rows_moveToFirst.trans (rows_presentVideo db _)

theorem rows_getVideoByOrder {videoPath : Option JavaString} (read : s.getVideoByOrder = some (videoPath, t)) :
    t.mVideoListCursor.rows = s.mVideoListCursor.rows := by
  unfold getVideoByOrder at read
  split at read
  · cases read
    rfl
  · obtain ⟨row, -, same⟩ := Option.map_eq_some_iff.mp read
    cases same
    dsimp only
    split_ifs
    · exact Cursor.rows_moveToNext
    · rw [Cursor.rows_moveToFirst, Cursor.rows_moveToNext]

/-- Only a cursor without rows has null returned. -/
theorem getCount_of_null (read : s.getVideoByOrder = some (none, t)) : t.mVideoListCursor.getCount = 0 := by
  rw [Cursor.getCount, rows_getVideoByOrder read]
  unfold getVideoByOrder at read
  split at read
  next empty => exact empty
  next =>
    obtain ⟨row, -, same⟩ := Option.map_eq_some_iff.mp read
    cases same

/-- The play list after an event, as the update methods decide on it. -/
def playList (s : AdVideoCtrl) : Event → List JavaString
  | .updateWhenAlarmUp isTimeStart => AdCtrl.updateWhenAlarmUp s.db .video s.currentTime isTimeStart
  | .updateWhenIntervalAddOrEdit startTime endTime =>
    AdCtrl.updateWhenIntervalAddOrEdit s.db .video s.currentTime startTime endTime s.mVideoListCursor.rows
  | .updateWhenIntervalDelete startTime endTime =>
    AdCtrl.updateWhenIntervalDelete s.db .video s.currentTime startTime endTime s.mVideoListCursor.rows
  | .updateWhenStrategyChanged => AdCtrl.updateWhenStrategyChanged s.db .video s.currentTime s.mVideoListCursor.rows
  | .updateWhenFileDelete => AdCtrl.updateWhenFileDelete s.db .video s.currentTime
  | _ => s.mVideoListCursor.rows

theorem rows_step (taken : step s event = some t) : t.mVideoListCursor.rows = s.playList event := by
  cases event with
  | updateWhenAlarmUp isTimeStart =>
    cases taken
    cases isTimeStart with
    | true => exact rows_presentVideo s.db s.currentTime
    | false => exact rows_getAllVideoFile s.db
  | updateWhenIntervalAddOrEdit startTime endTime =>
    cases taken
    unfold updateWhenIntervalAddOrEdit playList AdCtrl.updateWhenIntervalAddOrEdit
    dsimp only
    split_ifs
    · exact Cursor.rows_moveToFirst
    · rfl
  | updateWhenIntervalDelete startTime endTime =>
    cases taken
    unfold updateWhenIntervalDelete playList AdCtrl.updateWhenIntervalDelete
    dsimp only
    split_ifs
    · exact Cursor.rows_moveToFirst.trans (rows_getAllVideoFile s.db)
    · rfl
  | updateWhenStrategyChanged =>
    cases taken
    unfold updateWhenStrategyChanged playList AdCtrl.updateWhenStrategyChanged
    dsimp only
    cases s.db.isCurrentTimeInVideoIntervel s.currentTime with
    | none => exact Cursor.rows_moveToFirst.trans (rows_getAllVideoFile s.db)
    | some timeInterval => rfl
  | updateWhenFileDelete =>
    cases taken
    exact Cursor.rows_moveToFirst.trans (rows_presentVideo s.db s.currentTime)
  | updateWhenDownloadFinished | passed =>
    cases taken
    rfl
  | getVideoByOrder =>
    obtain ⟨⟨videoPath, _⟩, read, rfl⟩ := Option.map_eq_some_iff.mp taken
    exact rows_getVideoByOrder read

/-- A cursor that is moved to its first row starts a turn. -/
theorem turning_first (newCursor : Cursor JavaString) (s : AdVideoCtrl) :
    Turning (s.setCursor newCursor.moveToFirst.2) where
  position some := Cursor.position_moveToFirst (by simpa [setCursor] using some)
  cyclic := .nil

theorem turning_new (db : FileListMgr) (now : TimeOfDay) : Turning (new db now) := turning_first _ (new db now)

/-- On a turn the row is read that is next, and the cursor moves on, after the last row to the first. -/
theorem getVideoByOrder_eq (turning : Turning s) : ∃ cursor : Cursor JavaString,
    let row := s.mVideoListCursor.rows[s.returned.length % s.mVideoListCursor.rows.length]?
    let t := { s with mVideoListCursor := cursor, returned := s.returned ++ [row] }
    s.getVideoByOrder = some (row, t) ∧ Turning t := by
  have returned := turning.cyclic.concat
  by_cases empty : s.mVideoListCursor.rows = []
  · have row : s.mVideoListCursor.rows[s.returned.length % s.mVideoListCursor.rows.length]? = none := by simp [empty]
    rw [row] at returned ⊢
    refine ⟨s.mVideoListCursor, ?_, fun some => absurd empty some, returned⟩
    simp [getVideoByOrder, Cursor.getCount, empty]
  · have inside := Nat.mod_lt s.returned.length (List.length_pos_of_ne_nil empty)
    have at_ := turning.position empty
    refine ⟨{ s.mVideoListCursor with
      position := ((s.returned.length + 1) % s.mVideoListCursor.rows.length : Nat) }, ?_, fun _ => ?_, returned⟩
    · unfold getVideoByOrder Cursor.getCount
      rw [if_neg (List.length_pos_of_ne_nil empty).ne', Cursor.get_of_position at_, List.getElem?_eq_getElem inside]
      simp only [Cursor.moveAround empty at_, Option.map_some]
    · simp

theorem Turning.inOrder (turning : Turning s) : InOrder s where
  position := by
    intro some
    have at_ := turning.position (List.ne_nil_of_length_pos some)
    rw [at_]
    exact ⟨Int.natCast_nonneg _, Int.ofNat_lt.mpr (Nat.mod_lt _ some)⟩
  readable := by
    obtain ⟨cursor, read, -⟩ := getVideoByOrder_eq turning
    rw [read]
    rfl
  window before window after split full := turning.cyclic.window_perm split full

theorem turning_step (turning : Turning s) (outside : StartsOutside s event) (taken : step s event = some t) :
    Turning t := by
  cases event with
  | updateWhenAlarmUp isTimeStart =>
    cases taken
    have all : (if isTimeStart then presentVideo s.db s.currentTime else getAllVideoFile s.db) =
        getAllVideoFile s.db := by
      cases isTimeStart with
      | false => rfl
      | true =>
        unfold presentVideo
        simp [outside rfl]
    unfold updateWhenAlarmUp
    rw [all]
    exact turning_first _ s
  | updateWhenIntervalAddOrEdit startTime endTime =>
    cases taken
    unfold updateWhenIntervalAddOrEdit
    split_ifs
    · exact turning_first _ s
    · exact turning
  | updateWhenIntervalDelete startTime endTime =>
    cases taken
    unfold updateWhenIntervalDelete
    split_ifs
    · exact turning_first _ s
    · exact turning
  | updateWhenStrategyChanged =>
    cases taken
    unfold updateWhenStrategyChanged
    split
    · exact turning_first _ s
    · exact turning
  | updateWhenFileDelete =>
    cases taken
    exact turning_first _ s
  | updateWhenDownloadFinished =>
    cases taken
    exact turning
  | getVideoByOrder =>
    obtain ⟨cursor, read, turning⟩ := getVideoByOrder_eq turning
    simp only [step, read, Option.map_some, Option.some.injEq] at taken
    subst taken
    exact turning
  | passed db now =>
    cases taken
    exact ⟨turning.position, turning.cyclic⟩

/-- The list of the interval found for the present time has rows, and its cursor stands before
them. -/
theorem not_inOrder_alarmed {timeInterval : JavaString × JavaString}
    (found : s.db.isCurrentTimeInVideoIntervel s.currentTime = some timeInterval) :
    ¬ InOrder (s.updateWhenAlarmUp true) := by
  intro inOrder
  obtain ⟨row, member, starts, ends⟩ := (FileListMgr.isCurrentTimeInIntervel_some found).1
  have listed : row.fullPath ∈ s.db.getVideoInInterval timeInterval.1 timeInterval.2 := by
    refine List.mem_eraseDups.mpr (List.mem_map_of_mem (List.mem_filter.mpr ⟨member, ?_⟩))
    simp [starts, ends]
  have cursor : (s.updateWhenAlarmUp true).mVideoListCursor =
      getVideoInInterval s.db timeInterval.1 timeInterval.2 := by
    simp [updateWhenAlarmUp, setCursor, presentVideo, found]
  have position := inOrder.position
  rw [cursor] at position
  have first : (0 : Int) ≤ -1 := (position (List.length_pos_of_mem listed)).1
  omega

/-- As long as the cursor is in order, a step leaves it in order if it is no alarm in an interval. -/
theorem inOrder_step_iff (turning : Turning s) (event : Event) :
    (∀ t, step s event = some t → InOrder t) ↔ StartsOutside s event := by
  constructor
  · intro inOrder
    cases event with
    | updateWhenAlarmUp isTimeStart =>
      rintro rfl
      by_contra inside
      obtain ⟨timeInterval, found⟩ := Option.ne_none_iff_exists'.mp inside
      exact not_inOrder_alarmed found (inOrder _ rfl)
    | _ => trivial
  · exact fun outside t taken => (turning_step turning outside taken).inOrder

/-- For every content of the database and every order of the updates and calls: the cursor is
always in order if and only if no start is alarmed inside a stored interval. -/
theorem inOrder_throughout_iff (db : FileListMgr) (now : TimeOfDay) (events : List Event) :
    Throughout step InOrder (new db now) events ↔ Steps step StartsOutside (new db now) events := by
  have agree : ∀ s event, Turning s → ((∀ t, step s event = some t → InOrder t) ↔ StartsOutside s event) :=
    fun s event turning => inOrder_step_iff turning event
  have preserved : ∀ s event t, Turning s → StartsOutside s event → InOrder t → step s event = some t → Turning t :=
    fun s event t turning outside _ taken => turning_step turning outside taken
  exact throughout_iff_steps agree preserved (turning_new db now) (turning_new db now).inOrder

/-- One video, to be played from eight to nine. -/
def oneInterval : FileListMgr where
  files _ := [⟨ofString "a.mp4", ofString "/Camera/a.mp4"⟩]
  times _ := [⟨ofString "08:00:00", ofString "09:00:00", ofString "a.mp4", ofString "/Camera/a.mp4"⟩]

/-- At eight the start is alarmed, and the cursor stands before the row of its video. -/
theorem alarmed_not_inOrder : ¬ Throughout step InOrder (new oneInterval ⟨8, 0, 0⟩) [.updateWhenAlarmUp true] := by
  intro all
  have found : oneInterval.isCurrentTimeInVideoIntervel (getCurrentTime ⟨8, 0, 0⟩) =
      some (ofString "08:00:00", ofString "09:00:00") := by decide +kernel
  have inOrder := all [.updateWhenAlarmUp true] [] rfl ((new oneInterval ⟨8, 0, 0⟩).updateWhenAlarmUp true) rfl
  exact @not_inOrder_alarmed (new oneInterval ⟨8, 0, 0⟩) _ found inOrder

end AdVideoCtrl

end AdTerminal.Schedule
