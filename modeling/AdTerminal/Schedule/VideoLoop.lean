import AdTerminal.Schedule.VideoCursor
import AdTerminal.Strategy.PlayLoops

/-! The loop of `AdVideoCtrl`. It ends on a cursor without rows, and an update method that sets
another cursor has to start it again, unless a video is playing. -/

namespace AdTerminal.Schedule
open Strategy JavaString Transition VideoCursor

/-- `AdVideoCtrl` with its view. `messages` counts the `MSG_PLAY_VIDEO` that are pending. -/
structure VideoLoop extends AdVideoCtrl where
  mVideoAdPath : Option JavaString := none
  mVideoView : VideoView JavaString := {}
  messages : Nat := 0
  toast : Option String := none

namespace VideoLoop

def sendEmptyMessage (s : VideoLoop) : VideoLoop := { s with messages := s.messages + 1 }

def new (db : FileListMgr) (now : TimeOfDay) : VideoLoop :=
  { AdVideoCtrl.new db now with
    mVideoView := ({} : VideoView JavaString).setVisibility .visible : VideoLoop }.sendEmptyMessage

/-- What is done with a message that has been taken. -/
def handleMessage (s : VideoLoop) : Option VideoLoop := do
  let (videoPath, ctrl) ← s.toAdVideoCtrl.getVideoByOrder
  let s := { s with toAdVideoCtrl := ctrl, mVideoAdPath := videoPath }
  match videoPath with
  | none => some s
  | some path => some { s with mVideoView := s.mVideoView.play path }

def onError (what extra : Int) (s : VideoLoop) : VideoLoop :=
  { s with toast := some (errorToast what extra)
           mVideoView := s.mVideoView.setVisibility .invisible }.sendEmptyMessage

def onCompletion (s : VideoLoop) : VideoLoop :=
  { s with mVideoView := s.mVideoView.setVisibility .invisible }.sendEmptyMessage

def cursorChange (newCursor : Cursor JavaString) (s : VideoLoop) : VideoLoop :=
  let s := { s with toAdVideoCtrl := s.toAdVideoCtrl.cursorChange newCursor }
  if ¬ s.mVideoView.isPlaying then s.sendEmptyMessage else s

/-- The only update method that sets a cursor without `cursorChange`. -/
def updateWhenAlarmUp (isTimeStart : Bool) (s : VideoLoop) : VideoLoop :=
  { s with toAdVideoCtrl := s.toAdVideoCtrl.updateWhenAlarmUp isTimeStart }

def updateWhenIntervalAddOrEdit (startTime endTime : JavaString) (s : VideoLoop) : VideoLoop :=
  if isTimeInInterval s.currentTime startTime endTime then s.cursorChange (getVideoInInterval s.db startTime endTime)
  else s

def updateWhenIntervalDelete (startTime endTime : JavaString) (s : VideoLoop) : VideoLoop :=
  if isTimeInInterval s.currentTime startTime endTime then s.cursorChange (getAllVideoFile s.db) else s

def updateWhenStrategyChanged (s : VideoLoop) : VideoLoop :=
  match s.db.isCurrentTimeInVideoIntervel s.currentTime with
  | none => s.cursorChange (getAllVideoFile s.db)
  | some _ => s

def updateWhenFileDelete (s : VideoLoop) : VideoLoop := s.cursorChange (presentVideo s.db s.currentTime)

/-- The database may change in any way and time may pass between two calls. -/
inductive Event where
  | handleMessage
  | onPrepared
  | onCompletion
  | onError (what extra : Int)
  | updateWhenAlarmUp (isTimeStart : Bool)
  | updateWhenIntervalAddOrEdit (startTime endTime : JavaString)
  | updateWhenIntervalDelete (startTime endTime : JavaString)
  | updateWhenStrategyChanged
  | updateWhenFileDelete
  | updateWhenDownloadFinished
  | passed (db : FileListMgr) (now : TimeOfDay)

/-- A message can be handled when one is pending; the view reports on the video it has. -/
def step (s : VideoLoop) : Event → Option VideoLoop
  | .handleMessage => if 0 < s.messages then { s with messages := s.messages - 1 }.handleMessage else none
  | .onPrepared =>
    if s.mVideoView.currentState = .preparing then some { s with mVideoView := s.mVideoView.onPrepared } else none
  | .onCompletion =>
    if s.mVideoView.Completes then some { s with mVideoView := s.mVideoView.onCompletion }.onCompletion else none
  | .onError what extra =>
    if s.mVideoView.currentState ≠ .idle then some ({ s with mVideoView := s.mVideoView.onError }.onError what extra)
    else none
  | .updateWhenAlarmUp isTimeStart => some (s.updateWhenAlarmUp isTimeStart)
  | .updateWhenIntervalAddOrEdit startTime endTime => some (s.updateWhenIntervalAddOrEdit startTime endTime)
  | .updateWhenIntervalDelete startTime endTime => some (s.updateWhenIntervalDelete startTime endTime)
  | .updateWhenStrategyChanged => some s.updateWhenStrategyChanged
  | .updateWhenFileDelete => some s.updateWhenFileDelete
  | .updateWhenDownloadFinished => some s
  | .passed db now => some { s with db, now }

/-- With rows to play a message is pending or a video has been started. -/
def Lively (s : VideoLoop) : Prop := 0 < s.mVideoListCursor.getCount → 0 < s.messages ∨ s.mVideoView.Started

/-- What there is to play after an alarm: at a start what the interval found for the present time
has, if there is one, and all videos else. -/
def alarmList (s : VideoLoop) (isTimeStart : Bool) : List JavaString :=
  if isTimeStart then AdCtrl.presentList s.db .video s.currentTime else s.db.getAllVideoFile

/-- An alarm comes while a message is pending or a video has been started, or with nothing to play. -/
def AlarmedInTime (s : VideoLoop) : Event → Prop
  | .updateWhenAlarmUp isTimeStart => 0 < s.messages ∨ s.mVideoView.Started ∨ s.alarmList isTimeStart = []
  | _ => True

variable {s t : VideoLoop} {event : Event}

theorem lively_sendEmptyMessage (s : VideoLoop) : Lively s.sendEmptyMessage := fun _ => .inl (Nat.succ_pos _)

theorem lively_cursorChange (newCursor : Cursor JavaString) (s : VideoLoop) : Lively (s.cursorChange newCursor) := by
  unfold cursorChange
  dsimp only
  split_ifs with quiet
  · exact fun _ => .inr (VideoView.started_of_isPlaying (by simpa using quiet))
  · exact lively_sendEmptyMessage _

theorem lively_handleMessage (handled : s.handleMessage = some t) : Lively t := by
  obtain ⟨⟨videoPath, ctrl⟩, read, rest⟩ := Option.bind_eq_some_iff.mp handled
  cases videoPath with
  | none =>
    cases rest
    intro rows
    exact absurd (AdVideoCtrl.getCount_of_null read) rows.ne'
  | some path =>
    cases rest
    exact fun _ => .inr VideoView.started_play

theorem rows_alarmed (s : VideoLoop) (isTimeStart : Bool) :
    (s.updateWhenAlarmUp isTimeStart).mVideoListCursor.rows = s.alarmList isTimeStart :=
  @AdVideoCtrl.rows_step s.toAdVideoCtrl _ (.updateWhenAlarmUp isTimeStart) rfl

theorem lively_alarmed_iff (isTimeStart : Bool) :
    Lively (s.updateWhenAlarmUp isTimeStart) ↔ AlarmedInTime s (.updateWhenAlarmUp isTimeStart) := by
  unfold Lively AlarmedInTime Cursor.getCount
  rw [rows_alarmed, List.length_pos_iff]
  constructor
  · intro lively
    by_cases empty : s.alarmList isTimeStart = []
    · exact .inr (.inr empty)
    · exact (lively empty).imp_right .inl
  · intro inTime some
    rcases inTime with pending | started | empty
    · exact .inl pending
    · exact .inr started
    · exact absurd empty some

/-- A step other than an alarm keeps the loop going or starts it again. -/
theorem lively_step (lively : Lively s) (inTime : AlarmedInTime s event) (taken : step s event = some t) :
    Lively t := by
  cases event with
  | handleMessage =>
    obtain ⟨-, handled⟩ := Option.ite_none_right_eq_some.mp taken
    exact lively_handleMessage handled
  | onPrepared =>
    obtain ⟨preparing, same⟩ := Option.ite_none_right_eq_some.mp taken
    cases same
    exact fun rows => (lively rows).imp_right (VideoView.started_onPrepared preparing).mpr
  | onCompletion | onError =>
    obtain ⟨-, same⟩ := Option.ite_none_right_eq_some.mp taken
    cases same
    exact lively_sendEmptyMessage _
  | updateWhenAlarmUp isTimeStart =>
    cases taken
    exact (lively_alarmed_iff isTimeStart).mpr inTime
  | updateWhenIntervalAddOrEdit startTime endTime =>
    cases taken
    unfold updateWhenIntervalAddOrEdit
    split_ifs
    · exact lively_cursorChange _ s
    · exact lively
  | updateWhenIntervalDelete startTime endTime =>
    cases taken
    unfold updateWhenIntervalDelete
    split_ifs
    · exact lively_cursorChange _ s
    · exact lively
  | updateWhenStrategyChanged =>
    cases taken
    unfold updateWhenStrategyChanged
    split
    · exact lively_cursorChange _ s
    · exact lively
  | updateWhenFileDelete =>
    cases taken
    exact lively_cursorChange _ s
  | updateWhenDownloadFinished | passed =>
    cases taken
    exact lively

theorem alarmedInTime_of_lively (all : ∀ t, step s event = some t → Lively t) : AlarmedInTime s event := by
  cases event with
  | updateWhenAlarmUp isTimeStart => exact (lively_alarmed_iff isTimeStart).mp (all _ rfl)
  | _ => trivial

/-- For every content of the database and every order of the events: the player never stalls if and
only if every alarm comes in time, or finds nothing to play. -/
theorem lively_throughout_iff (db : FileListMgr) (now : TimeOfDay) (events : List Event) :
    Throughout step Lively (new db now) events ↔ Steps step AlarmedInTime (new db now) events := by
  have agree : ∀ s event, Lively s → ((∀ t, step s event = some t → Lively t) ↔ AlarmedInTime s event) :=
    fun s event lively => ⟨alarmedInTime_of_lively, fun inTime t taken => lively_step lively inTime taken⟩
  exact throughout_iff_self agree (lively_sendEmptyMessage _)

/-- One video that is to be played from eight to nine, and none at other times. -/
def onlyInterval : FileListMgr where
  files _ := []
  times _ := [⟨ofString "08:00:00", ofString "09:00:00", ofString "a.mp4", ofString "/Camera/a.mp4"⟩]

/-- At seven there is nothing to play and the loop ends. The alarm at eight does not start it. -/
theorem alarmed_stalls : ¬ Throughout step Lively (new onlyInterval ⟨7, 0, 0⟩)
    [.handleMessage, .passed onlyInterval ⟨8, 0, 0⟩, .updateWhenAlarmUp true] := by
  intro all
  have stalls : (run step (new onlyInterval ⟨7, 0, 0⟩)
      [.handleMessage, .passed onlyInterval ⟨8, 0, 0⟩, .updateWhenAlarmUp true]).any fun t =>
        0 < t.mVideoListCursor.getCount ∧ ¬ (0 < t.messages ∨ t.mVideoView.Started) := by
    decide +kernel
  obtain ⟨t, reached, stalled⟩ := (Option.any_eq_true _ _).mp stalls
  rw [decide_eq_true_iff] at stalled
  exact stalled.2 (all _ [] (List.append_nil _).symm t reached stalled.1)

/-- The calls of `AdVideoCtrl` that an event makes. -/
def Event.calls : Event → List AdVideoCtrl.Event
  | .handleMessage => [.getVideoByOrder]
  | .onPrepared | .onCompletion | .onError _ _ => []
  | .updateWhenAlarmUp isTimeStart => [.updateWhenAlarmUp isTimeStart]
  | .updateWhenIntervalAddOrEdit startTime endTime => [.updateWhenIntervalAddOrEdit startTime endTime]
  | .updateWhenIntervalDelete startTime endTime => [.updateWhenIntervalDelete startTime endTime]
  | .updateWhenStrategyChanged => [.updateWhenStrategyChanged]
  | .updateWhenFileDelete => [.updateWhenFileDelete]
  | .updateWhenDownloadFinished => [.updateWhenDownloadFinished]
  | .passed db now => [.passed db now]

theorem toAdVideoCtrl_cursorChange (newCursor : Cursor JavaString) (s : VideoLoop) :
    (s.cursorChange newCursor).toAdVideoCtrl = s.toAdVideoCtrl.cursorChange newCursor := by
  unfold cursorChange
  dsimp only
  split_ifs <;> rfl

/-- The cursor of the loop is that of `AdVideoCtrl` after the same calls. -/
theorem toAdVideoCtrl_step (taken : step s event = some t) :
    run AdVideoCtrl.step s.toAdVideoCtrl event.calls = some t.toAdVideoCtrl := by
  cases event with
  | handleMessage =>
    obtain ⟨-, handled⟩ := Option.ite_none_right_eq_some.mp taken
    obtain ⟨⟨videoPath, ctrl⟩, read, rest⟩ := Option.bind_eq_some_iff.mp handled
    have called : AdVideoCtrl.step s.toAdVideoCtrl .getVideoByOrder = some ctrl :=
      Option.map_eq_some_iff.mpr ⟨_, read, rfl⟩
    have same : t.toAdVideoCtrl = ctrl := by cases videoPath <;> cases rest <;> rfl
    rw [Event.calls, run, called, same]
    rfl
  | onPrepared | onCompletion | onError =>
    obtain ⟨-, same⟩ := Option.ite_none_right_eq_some.mp taken
    cases same
    rfl
  | updateWhenIntervalAddOrEdit startTime endTime =>
    cases taken
    apply congrArg some
    unfold AdVideoCtrl.updateWhenIntervalAddOrEdit updateWhenIntervalAddOrEdit
    split_ifs
    · exact (toAdVideoCtrl_cursorChange _ s).symm
    · rfl
  | updateWhenIntervalDelete startTime endTime =>
    cases taken
    apply congrArg some
    unfold AdVideoCtrl.updateWhenIntervalDelete updateWhenIntervalDelete
    split_ifs
    · exact (toAdVideoCtrl_cursorChange _ s).symm
    · rfl
  | updateWhenStrategyChanged =>
    cases taken
    apply congrArg some
    unfold AdVideoCtrl.updateWhenStrategyChanged updateWhenStrategyChanged
    cases s.db.isCurrentTimeInVideoIntervel s.currentTime with
    | none => exact (toAdVideoCtrl_cursorChange _ s).symm
    | some timeInterval => rfl
  | updateWhenFileDelete =>
    cases taken
    exact congrArg some (toAdVideoCtrl_cursorChange _ s).symm
  | updateWhenAlarmUp | updateWhenDownloadFinished | passed =>
    cases taken
    rfl

theorem toAdVideoCtrl_run {events : List Event} (whole : run step s events = some t) :
    run AdVideoCtrl.step s.toAdVideoCtrl (events.flatMap Event.calls) = some t.toAdVideoCtrl := by
  induction events generalizing s with
  | nil => exact congrArg _ (congrArg _ (Option.some.inj whole))
  | cons event events ih =>
    obtain ⟨u, taken, rest⟩ := run_cons whole
    rw [List.flatMap_cons, run_append, toAdVideoCtrl_step taken]
    exact ih rest

end VideoLoop

end AdTerminal.Schedule
