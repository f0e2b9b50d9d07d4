import AdTerminal.Schedule.Receivers

/-! The alarms from day to day. An alarm of an interval is only set for later the same day,
at the start or when the interval is added, and nothing sets it again once it is delivered:
the boundaries have their alarms as long as none of them is reached. -/

namespace AdTerminal.Schedule
open Strategy JavaString Stateful Transition AlarmUtil

/-- The milliseconds from midnight to a stored time, if it is a time of day. -/
def millisOfDay (time : JavaString) : Option Int :=
  match timeInt time with
  | .error _ => none
  | .ok (hour, minute, second) =>
    if 0 ≤ hour ∧ hour < 24 ∧ 0 ≤ minute ∧ minute < 60 ∧ 0 ≤ second ∧ second < 60 then
      some ((hour * 3600 + minute * 60 + second) * 1000)
    else none

/-- The first instant after the present one that is so many milliseconds after midnight. -/
def nextOccurrence (offset now millis : Int) : Int :=
  let today := startOfDay offset now + millis
  if now < today then today else today + 86400000

/-- One of the two times of an interval. -/
structure Boundary where
  kind : MediaKind
  isStart : Bool
  time : JavaString

def Boundary.action (boundary : Boundary) : Action :=
  if boundary.isStart then .intervalStart boundary.kind else .intervalEnd boundary.kind

/-- The next occurrence has a pending alarm with the action of the boundary. -/
def Alarmed (offset : Int) (d : Device) (boundary : Boundary) : Prop :=
  ∀ millis ∈ millisOfDay boundary.time,
    ∃ alarm ∈ d.alarms, alarm.action = boundary.action ∧ alarm.time = nextOccurrence offset d.now millis

/-- So it is for both times of every stored interval. -/
def AllAlarmed (offset : Int) (d : Device) : Prop :=
  ∀ kind, ∀ row ∈ d.db.times kind,
    Alarmed offset d ⟨kind, true, row.startTime⟩ ∧ Alarmed offset d ⟨kind, false, row.endTime⟩

/-- The boundaries of intervals in the order their alarms are set. -/
def boundariesOf (kind : MediaKind) (intervals : List (JavaString × JavaString)) : List Boundary :=
  intervals.flatMap fun interval => [⟨kind, true, interval.1⟩, ⟨kind, false, interval.2⟩]

def FileListMgr.boundaries (db : FileListMgr) : List Boundary :=
  boundariesOf .video db.getAllVideoTimeInterval ++ boundariesOf .image db.getAllImageTimeInterval

/-- The time is later the same day, by more than the margin. -/
def LaterToday (calendar : Calendar) (now : Int) (boundary : Boundary) : Prop :=
  match convertAlarmUpTime calendar now boundary.time with
  | .error _ => False
  | .ok millis => now + margin boundary.kind < millis ∧ millis ≠ -1

instance (calendar : Calendar) (now : Int) (boundary : Boundary) : Decidable (LaterToday calendar now boundary) :=
  match found : convertAlarmUpTime calendar now boundary.time with
  | .error _ => isFalse (by simp [LaterToday, found])
  | .ok millis => decidable_of_iff (now + margin boundary.kind < millis ∧ millis ≠ -1) (by simp [LaterToday, found])

/-- The alarms of boundaries that are all later today, with the request codes in turn. -/
def alarmsOf (calendar : Calendar) (now : Int) : Int → List Boundary → List Alarm
  | _, [] => []
  | code, boundary :: rest =>
    match convertAlarmUpTime calendar now boundary.time with
    | .error _ => alarmsOf calendar now code rest
    | .ok millis =>
      { action := boundary.action, requestCode := nextRequestCode code, time := millis } ::
        alarmsOf calendar now (nextRequestCode code) rest

/-- Alarms with the same intent are for the same time, so none of them is lost. -/
def NoneReplaced (alarms : List Alarm) : Prop :=
  ∀ alarm ∈ alarms, ∀ other ∈ alarms, other.SameIntent alarm → other.time = alarm.time

instance : DecidablePred NoneReplaced := fun alarms =>
  inferInstanceAs (Decidable (∀ alarm ∈ alarms, ∀ other ∈ alarms, other.SameIntent alarm → other.time = alarm.time))

section
variable {calendar : Calendar} {offset : Int}

/-- An alarm that is pending, or newly set, has one for its action and time pending in the
end, unless a new alarm with its intent is for another time. -/
theorem setAlarms_serve {alarms new : List Alarm} {alarm : Alarm}
    (agree : ∀ other ∈ new, other.SameIntent alarm → other.time = alarm.time)
    (present : alarm ∈ alarms ∨ alarm ∈ new) :
    ∃ serving ∈ new.foldl setAlarm alarms, serving.action = alarm.action ∧ serving.time = alarm.time := by
  induction new generalizing alarms alarm with
  | nil => exact ⟨alarm, present.resolve_right List.not_mem_nil, rfl, rfl⟩
  | cons first rest ih =>
    rw [List.foldl_cons]
    have last : first ∈ setAlarm alarms first := by simp [setAlarm]
    by_cases same : first.SameIntent alarm
    · have time : first.time = alarm.time := agree first List.mem_cons_self same
      obtain ⟨serving, pending, action, instant⟩ := @ih (setAlarm alarms first) first (by
        intro other member intent
        rw [time]
        exact agree other (List.mem_cons_of_mem _ member) ⟨same.1.trans intent.1, same.2.trans intent.2⟩) (Or.inl last)
      exact ⟨serving, pending, action.trans same.1.symm, instant.trans time⟩
    · refine ih (fun other member => agree other (List.mem_cons_of_mem _ member)) ?_
      rcases present with pending | new
      · left
        simp [setAlarm, pending, same]
      · rcases List.mem_cons.mp new with rfl | member
        · exact absurd ⟨rfl, rfl⟩ same
        · exact Or.inr member

theorem millisOfDay_range {time : JavaString} {millis : Int} (found : millisOfDay time = some millis) :
    0 ≤ millis ∧ millis < 86400000 := by
  unfold millisOfDay at found
  split at found
  next => cases found
  next hour minute second _ =>
    rw [Option.ite_none_right_eq_some, Option.some.injEq] at found
    obtain ⟨inside, rfl⟩ := found
    omega

theorem nextOccurrence_eq_iff {now millis instant : Int} (lower : 0 ≤ millis) (upper : millis < 86400000) :
    nextOccurrence offset now millis = instant ↔
      now < instant ∧ instant ≤ now + 86400000 ∧ (instant + offset * 1000) % 86400000 = millis := by
  have midnight : startOfDay offset now = (now + offset * 1000) / 86400000 * 86400000 - offset * 1000 := rfl
  by_cases early : now < startOfDay offset now + millis
  · simp only [nextOccurrence, if_pos early]
    omega
  · simp only [nextOccurrence, if_neg early]
    omega

/-- Until it is reached, the next occurrence stays the same. -/
theorem nextOccurrence_later {now time millis : Int} (lower : 0 ≤ millis) (upper : millis < 86400000)
    (later : now < time) (before : time < nextOccurrence offset now millis) :
    nextOccurrence offset time millis = nextOccurrence offset now millis := by
  obtain ⟨-, soon, same⟩ := (nextOccurrence_eq_iff lower upper).mp (rfl : nextOccurrence offset now millis = _)
  exact (nextOccurrence_eq_iff lower upper).mpr ⟨before, by omega, same⟩

/-- A time of day that is later today is next reached today. -/
theorem nextOccurrence_today {now millis instant : Int} {boundary : Boundary}
    (today : convertAlarmUpTime (.fixedOffset offset) now boundary.time = .ok instant)
    (later : LaterToday (.fixedOffset offset) now boundary) (found : millisOfDay boundary.time = some millis) :
    nextOccurrence offset now millis = instant := by
  have ahead : now + margin boundary.kind < instant ∧ instant ≠ -1 := by
    unfold LaterToday at later
    rwa [today] at later
  have margin_nonneg : 0 ≤ margin boundary.kind := by cases boundary.kind <;> decide
  unfold millisOfDay at found
  unfold convertAlarmUpTime at today
  cases parsed : timeInt boundary.time with
  | error e => simp [parsed] at found
  | ok hms =>
    obtain ⟨hour, minute, second⟩ := hms
    simp only [parsed, Option.ite_none_right_eq_some, Option.some.injEq] at found
    obtain ⟨inside, rfl⟩ := found
    simp only [parsed, bind, Except.bind, pure, Except.pure, Calendar.fixedOffset, Except.ok.injEq] at today
    split at today
    · simp only [nextOccurrence, today]
      rw [if_pos (by omega)]
    · exact absurd today.symm ahead.2

variable (calendar) in
def setBoundary (boundary : Boundary) : Program Unit :=
  setChangeTimeBroadcast calendar boundary.kind boundary.time boundary.isStart

theorem run_setBoundary {d : Device} {boundary : Boundary} {millis : Int}
    (found : convertAlarmUpTime calendar d.now boundary.time = .ok millis)
    (later : d.now + margin boundary.kind < millis) :
    (setBoundary calendar boundary).run d = .ok () { d with
      videoIntervalRequestCode := nextRequestCode d.videoIntervalRequestCode
      alarms := setAlarm d.alarms
        { action := boundary.action, requestCode := nextRequestCode d.videoIntervalRequestCode, time := millis } } := by
  unfold setBoundary setChangeTimeBroadcast
  rw [EStateM.run_bind, run_alarmUpTime, found]
  simp only [EStateM.run_bind, EStateM.run_get]
  rw [if_neg (by omega)]
  rfl

theorem run_setBoundaries {boundaries : List Boundary} {d : Device}
    (later : ∀ boundary ∈ boundaries, LaterToday calendar d.now boundary) :
    ∃ code, (boundaries.forM (setBoundary calendar)).run d = .ok () { d with
      videoIntervalRequestCode := code
      alarms := (alarmsOf calendar d.now d.videoIntervalRequestCode boundaries).foldl setAlarm d.alarms } := by
  induction boundaries generalizing d with
  | nil => exact ⟨d.videoIntervalRequestCode, rfl⟩
  | cons boundary rest ih =>
    have first := later boundary List.mem_cons_self
    unfold LaterToday at first
    cases found : convertAlarmUpTime calendar d.now boundary.time with
    | error e => simp [found] at first
    | ok millis =>
      rw [found] at first
      obtain ⟨code, ran⟩ := @ih { d with
        videoIntervalRequestCode := nextRequestCode d.videoIntervalRequestCode
        alarms := setAlarm d.alarms
          { action := boundary.action, requestCode := nextRequestCode d.videoIntervalRequestCode, time := millis } }
        fun other member => later other (List.mem_cons_of_mem _ member)
      refine ⟨code, ?_⟩
      change (setBoundary calendar boundary >>= fun _ => rest.forM (setBoundary calendar)).run d = _
      rw [EStateM.run_bind, run_setBoundary found first.1]
      simp only [alarmsOf, found, List.foldl_cons]
      exact ran

/-- The loop over the intervals sets their boundaries one by one. -/
theorem setIntervals_eq (kind : MediaKind) (intervals : List (JavaString × JavaString)) :
    setIntervals calendar kind intervals = (boundariesOf kind intervals).forM (setBoundary calendar) := by
  induction intervals with
  | nil => rfl
  | cons interval rest ih =>
    have loop : setIntervals calendar kind (interval :: rest) = (do
        setBoundary calendar ⟨kind, true, interval.1⟩
        setBoundary calendar ⟨kind, false, interval.2⟩
        setIntervals calendar kind rest) := by
      simp only [setIntervals, List.forM_eq_forM, List.forM_cons, bind_assoc, setBoundary]
    rw [loop, ih]
    rfl

/-- The start-up sets the alarms of all stored boundaries, after those of the system. -/
theorem alarms_onCreate {d : Device} (later : ∀ boundary ∈ d.db.boundaries, LaterToday calendar d.now boundary) :
    ∃ alarms, (d.onCreate calendar).alarms = (alarmsOf calendar d.now 200 d.db.boundaries).foldl setAlarm alarms := by
  let fresh : Device := { db := d.db, alarms := d.alarms, now := d.now }
  let ready := final (setSystemAlarms calendar) fresh
  have now : ready.now = d.now := keeps_setSystemAlarms (fun _ _ => rfl) fresh
  have code : ready.videoIntervalRequestCode = 200 := keeps_setSystemAlarms (fun _ _ => rfl) fresh
  obtain ⟨⟨⟩, ran⟩ := Returns.run_ok (returns_setSystemAlarms : Returns (setSystemAlarms calendar)) fresh
  obtain ⟨code', set⟩ := run_setBoundaries (d := ready) fun boundary member => now.symm ▸ later boundary member
  refine ⟨ready.alarms, ?_⟩
  have whole : (initAlarmWhenStartUp calendar).run fresh =
      (setSystemAlarms calendar >>= fun _ => d.db.boundaries.forM (setBoundary calendar)).run fresh := by
    rw [run_initAlarmWhenStartUp, setIntervals_eq, setIntervals_eq, FileListMgr.boundaries]
    simp only [List.forM_eq_forM, List.forM_append]
    rfl
  have last : final (initAlarmWhenStartUp calendar) fresh = final (d.db.boundaries.forM (setBoundary calendar)) ready := by
    rw [final, whole]
    exact final_bind_ok ran
  change (final (initAlarmWhenStartUp calendar) fresh).alarms = _
  rw [last, final_of_ok set, now, code]

end

variable (offset : Int)

/-- The alarm is at the next occurrence of a stored boundary. -/
def Needed (d : Device) (alarm : Alarm) : Prop :=
  ∃ boundary ∈ d.db.boundaries, alarm.action = boundary.action ∧
    (millisOfDay boundary.time).map (nextOccurrence offset d.now) = some alarm.time

instance (d : Device) (alarm : Alarm) : Decidable (Needed offset d alarm) :=
  inferInstanceAs (Decidable (∃ boundary ∈ d.db.boundaries, alarm.action = boundary.action ∧
    (millisOfDay boundary.time).map (nextOccurrence offset d.now) = some alarm.time))

/-- At the start, all stored boundaries are later today, and the request codes suffice. -/
def StartsWell (d : Device) : Prop :=
  (∀ boundary ∈ d.db.boundaries, LaterToday (.fixedOffset offset) d.now boundary) ∧
    NoneReplaced (alarmsOf (.fixedOffset offset) d.now 200 d.db.boundaries)

/-- An interval is added with all its files, both its times are later today, and their alarms
replace none that is needed. -/
def AddsWell (d : Device) (kind : MediaKind) (startInterval endInterval : JavaString)
    (files : List (Option JavaString)) : Prop :=
  (∀ file ∈ files, file.isSome) ∧
    (∀ boundary ∈ boundariesOf kind [(startInterval, endInterval)], LaterToday (.fixedOffset offset) d.now boundary) ∧
    ∀ alarm ∈ d.alarms, Needed offset d alarm →
      ∀ other ∈ alarmsOf (.fixedOffset offset) d.now d.videoIntervalRequestCode
        (boundariesOf kind [(startInterval, endInterval)]), other.SameIntent alarm → other.time = alarm.time

/-- A start and an added interval set all alarms today, and time does not reach a boundary. -/
def KeepsAlarms (d : Device) : Event → Prop
  | .received kind message => d.thrown = none → message.indexPath = MessagePath.intervalAdd kind →
      ∀ startInterval ∈ message.startInterval, ∀ endInterval ∈ message.endInterval, ∀ files ∈ message.files,
        wrongTimes startInterval endInterval = false → files.head? ≠ some none →
          AddsWell offset d kind startInterval endInterval files
  | .ticked time => ∀ boundary ∈ d.db.boundaries, ∀ millis ∈ millisOfDay boundary.time,
      time < nextOccurrence offset d.now millis
  | .started => StartsWell offset d
  | .downloadFinished .. => True
  | .created _ => True
  | .delivered _ => True

instance (d : Device) : Decidable (StartsWell offset d) :=
  inferInstanceAs (Decidable (_ ∧ _))

instance (d : Device) (kind : MediaKind) (startInterval endInterval : JavaString) (files : List (Option JavaString)) :
    Decidable (AddsWell offset d kind startInterval endInterval files) :=
  inferInstanceAs (Decidable (_ ∧ _ ∧ _))

instance (d : Device) : DecidablePred (KeepsAlarms offset d)
  | .received kind message => inferInstanceAs (Decidable (d.thrown = none →
      message.indexPath = MessagePath.intervalAdd kind →
      ∀ startInterval ∈ message.startInterval, ∀ endInterval ∈ message.endInterval, ∀ files ∈ message.files,
        wrongTimes startInterval endInterval = false → files.head? ≠ some none →
          AddsWell offset d kind startInterval endInterval files))
  | .ticked time => inferInstanceAs (Decidable (∀ boundary ∈ d.db.boundaries,
      ∀ millis ∈ millisOfDay boundary.time, time < nextOccurrence offset d.now millis))
  | .started => inferInstanceAs (Decidable (StartsWell offset d))
  | .downloadFinished .. => isTrue trivial
  | .created _ => isTrue trivial
  | .delivered _ => isTrue trivial

section
variable {offset : Int} {d d' : Device}

theorem mem_boundariesOf {kind : MediaKind} {intervals : List (JavaString × JavaString)} {boundary : Boundary} :
    boundary ∈ boundariesOf kind intervals ↔ boundary.kind = kind ∧ ∃ interval ∈ intervals,
      boundary.time = if boundary.isStart then interval.1 else interval.2 := by
  obtain ⟨kind', isStart, time⟩ := boundary
  cases isStart <;> simp [boundariesOf] <;> grind

theorem mem_boundaries {db : FileListMgr} {kind : MediaKind} {row : TimeRow} (stored : row ∈ db.times kind) :
    ⟨kind, true, row.startTime⟩ ∈ db.boundaries ∧ ⟨kind, false, row.endTime⟩ ∈ db.boundaries := by
  have interval : (row.startTime, row.endTime) ∈ db.getAllTimeInterval kind :=
    FileListMgr.mem_getAllTimeInterval.mpr ⟨row, stored, rfl, rfl⟩
  have listed : ∀ boundary ∈ boundariesOf kind (db.getAllTimeInterval kind), boundary ∈ db.boundaries := by
    intro boundary member
    cases kind with
    | video => exact List.mem_append_left _ member
    | image => exact List.mem_append_right _ member
  exact ⟨listed _ (mem_boundariesOf.mpr ⟨rfl, _, interval, rfl⟩),
    listed _ (mem_boundariesOf.mpr ⟨rfl, _, interval, rfl⟩)⟩

theorem mem_alarmsOf {calendar : Calendar} {now code millis : Int} {boundaries : List Boundary} {boundary : Boundary}
    (listed : boundary ∈ boundaries) (found : convertAlarmUpTime calendar now boundary.time = .ok millis) :
    ∃ alarm ∈ alarmsOf calendar now code boundaries, alarm.action = boundary.action ∧ alarm.time = millis := by
  induction boundaries generalizing code with
  | nil => cases listed
  | cons first rest ih =>
    rcases List.mem_cons.mp listed with rfl | later
    · simp only [alarmsOf, found]
      exact ⟨_, List.mem_cons_self, rfl, rfl⟩
    · simp only [alarmsOf]
      split
      next => exact ih later
      next =>
        obtain ⟨alarm, member, same⟩ := ih later
        exact ⟨alarm, List.mem_cons_of_mem _ member, same⟩

/-- A newly set boundary is alarmed. -/
theorem alarmed_set {boundaries : List Boundary} {boundary : Boundary} {code : Int} {alarms : List Alarm}
    (listed : boundary ∈ boundaries) (later : LaterToday (.fixedOffset offset) d.now boundary)
    (distinct : NoneReplaced (alarmsOf (.fixedOffset offset) d.now code boundaries)) (now : d'.now = d.now)
    (set : d'.alarms = (alarmsOf (.fixedOffset offset) d.now code boundaries).foldl setAlarm alarms) :
    Alarmed offset d' boundary := by
  intro millis found
  cases converted : convertAlarmUpTime (.fixedOffset offset) d.now boundary.time with
  | error e => simp [LaterToday, converted] at later
  | ok instant =>
    obtain ⟨alarm, member, action, time⟩ : ∃ alarm ∈ alarmsOf (.fixedOffset offset) d.now code boundaries,
        alarm.action = boundary.action ∧ alarm.time = instant := mem_alarmsOf listed converted
    obtain ⟨serving, pending, action', time'⟩ := setAlarms_serve (distinct alarm member) (Or.inr member)
    refine ⟨serving, set ▸ pending, action'.trans action, ?_⟩
    rw [now, nextOccurrence_today converted later found, time', time]

/-- A boundary stays alarmed when no alarm it needs is replaced. -/
theorem Alarmed.kept {boundary : Boundary} {new : List Alarm} (alarmed : Alarmed offset d boundary)
    (stored : boundary ∈ d.db.boundaries)
    (spares : ∀ alarm ∈ d.alarms, Needed offset d alarm →
      ∀ other ∈ new, other.SameIntent alarm → other.time = alarm.time)
    (now : d'.now = d.now) (set : d'.alarms = new.foldl setAlarm d.alarms) : Alarmed offset d' boundary := by
  intro millis found
  obtain ⟨alarm, pending, action, time⟩ := alarmed millis found
  have needed : Needed offset d alarm := by
    refine ⟨boundary, stored, action, ?_⟩
    rw [Option.mem_def.mp found, Option.map_some, time]
  obtain ⟨serving, there, action', time'⟩ := setAlarms_serve (spares alarm pending needed) (Or.inl pending)
  exact ⟨serving, set ▸ there, action'.trans action, by rw [now, time', time]⟩

theorem AllAlarmed.shrink (alarmed : AllAlarmed offset d) (shrinks : Shrinks d d') : AllAlarmed offset d' := by
  obtain ⟨rows, alarms, now⟩ := shrinks
  intro kind row member
  obtain ⟨starts, ends⟩ := alarmed kind row (rows kind member)
  simp only [Alarmed, alarms, now]
  exact ⟨starts, ends⟩

theorem alarmed_onCreate (starts : StartsWell offset d) : AllAlarmed offset (d.onCreate (.fixedOffset offset)) := by
  obtain ⟨later, distinct⟩ := starts
  obtain ⟨alarms, set⟩ := alarms_onCreate later
  let fresh : Device := { db := d.db, alarms := d.alarms, now := d.now }
  have now : (final (initAlarmWhenStartUp (.fixedOffset offset)) fresh).now = d.now :=
    keeps_initAlarmWhenStartUp (fun _ _ => rfl) (fun _ _ => rfl) fresh
  have db : (final (initAlarmWhenStartUp (.fixedOffset offset)) fresh).db = d.db :=
    keeps_initAlarmWhenStartUp (fun _ _ => rfl) (fun _ _ => rfl) fresh
  intro kind row stored
  change row ∈ (final (initAlarmWhenStartUp (.fixedOffset offset)) fresh).db.times kind at stored
  rw [db] at stored
  obtain ⟨starts, ends⟩ := mem_boundaries stored
  exact ⟨alarmed_set starts (later _ starts) distinct now set, alarmed_set ends (later _ ends) distinct now set⟩

/-- The start and the end of an interval have different actions. -/
theorem noneReplaced_interval {calendar : Calendar} {now code : Int} {kind : MediaKind}
    {interval : JavaString × JavaString} : NoneReplaced (alarmsOf calendar now code (boundariesOf kind [interval])) := by
  simp only [boundariesOf, List.flatMap_cons, List.flatMap_nil, List.append_nil, alarmsOf]
  split
  next =>
    split
    next => simp [NoneReplaced]
    next => simp [NoneReplaced]
  next =>
    split
    next => simp [NoneReplaced]
    next => simp [NoneReplaced, Alarm.SameIntent, Boundary.action]

section
variable {resPath : MediaKind → JavaString} {kind : MediaKind} {startInterval endInterval : JavaString}
  {files : List (Option JavaString)}

theorem keeps_insertTimes {β : Type} {part : Device → β} (db : ∀ (d : Device) db, part { d with db } = part d) :
    Keeps part (Receiver.insertTimes resPath kind startInterval endInterval files) :=
  .forM (fun file => .bind (.orThrow _ file) fun _ => .modify fun d => db d _) files

theorem returns_insertTimes (all : ∀ file ∈ files, file.isSome) :
    Returns (Receiver.insertTimes resPath kind startInterval endInterval files) := by
  refine .forM fun file member => ?_
  obtain ⟨fileName, rfl⟩ := Option.isSome_iff_exists.mp (all file member)
  exact .bind (.pure _) fun _ => .modify _

/-- The alarms of an interval that is added with both times later today. -/
theorem final_setAlarms (later : ∀ boundary ∈ boundariesOf kind [(startInterval, endInterval)],
      LaterToday (.fixedOffset offset) d.now boundary) :
    (final (Receiver.setAlarms (.fixedOffset offset) kind startInterval endInterval) d).alarms =
        (alarmsOf (.fixedOffset offset) d.now d.videoIntervalRequestCode
          (boundariesOf kind [(startInterval, endInterval)])).foldl setAlarm d.alarms ∧
      (final (Receiver.setAlarms (.fixedOffset offset) kind startInterval endInterval) d).now = d.now := by
  obtain ⟨code, ran⟩ := run_setBoundaries later
  have loop : Receiver.setAlarms (.fixedOffset offset) kind startInterval endInterval =
      (boundariesOf kind [(startInterval, endInterval)]).forM (setBoundary (.fixedOffset offset)) >>= fun _ =>
        updateMedia (.fixedOffset offset) kind fun db now =>
          AdCtrl.updateWhenIntervalAddOrEdit db kind now startInterval endInterval := by
    simp only [Receiver.setAlarms, ← setIntervals_eq, setIntervals, List.forM_eq_forM, List.forM_cons, List.forM_nil,
      bind_assoc, pure_bind]
  rw [loop, final_bind_ok ran]
  exact ⟨rfl, rfl⟩

variable (resPath) in
/-- The whole of a message that adds an interval well. -/
theorem final_added {message : Message}
    (add : message.indexPath = MessagePath.intervalAdd kind) (starts : message.startInterval = some startInterval)
    (ends : message.endInterval = some endInterval) (listed : message.files = some files)
    (right : wrongTimes startInterval endInterval = false) (adds : AddsWell offset d kind startInterval endInterval files) :
    (final (Receiver.receiveMessage (.fixedOffset offset) resPath kind message) d).alarms =
        (alarmsOf (.fixedOffset offset) d.now d.videoIntervalRequestCode
          (boundariesOf kind [(startInterval, endInterval)])).foldl setAlarm d.alarms ∧
      (final (Receiver.receiveMessage (.fixedOffset offset) resPath kind message) d).now = d.now := by
  obtain ⟨all, later, -⟩ := adds
  let asked : Device := { d with mCtrl := Function.update d.mCtrl kind (d.lists kind).isSome }
  let stored := final (Receiver.insertTimes resPath kind startInterval endInterval files) asked
  have alarms : stored.alarms = d.alarms := keeps_insertTimes (fun _ _ => rfl) asked
  have now : stored.now = d.now := keeps_insertTimes (fun _ _ => rfl) asked
  have code : stored.videoIntervalRequestCode = d.videoIntervalRequestCode := keeps_insertTimes (fun _ _ => rfl) asked
  have whole : final (Receiver.receiveMessage (.fixedOffset offset) resPath kind message) d =
      final (Receiver.setAlarms (.fixedOffset offset) kind startInterval endInterval) stored := by
    rw [Receiver.final_receiveMessage add]
    have accepted : Receiver.intervalAdd (.fixedOffset offset) resPath kind message = (do
        Receiver.insertTimes resPath kind startInterval endInterval files
        Receiver.setAlarms (.fixedOffset offset) kind startInterval endInterval) := by
      simp only [Receiver.intervalAdd, starts, ends, listed, orThrow, pure_bind, right, Bool.false_eq_true, if_false]
    rw [accepted, Returns.final_bind (returns_insertTimes all)]
  obtain ⟨set, same⟩ := final_setAlarms (d := stored) (now.symm ▸ later)
  rw [whole, set, same, alarms, now, code]
  exact ⟨rfl, rfl⟩

/-- A message that is turned away or fails before its first row changes nothing here. -/
theorem alarmed_ignored {message : Message} (alarmed : AllAlarmed offset d)
    (same : final (Receiver.receiveMessage (.fixedOffset offset) resPath kind message) d =
      { d with mCtrl := Function.update d.mCtrl kind (d.lists kind).isSome }) :
    AllAlarmed offset (d.perform (Receiver.receiveMessage (.fixedOffset offset) resPath kind message)) := by
  refine alarmed.shrink ⟨fun other => ?_, ?_, ?_⟩
  · change (final _ d).db.times other ⊆ d.db.times other
    rw [same]
    exact List.Subset.refl _
  · change (final _ d).alarms = d.alarms
    rw [same]
  · change (final _ d).now = d.now
    rw [same]

theorem alarmed_added {message : Message} (alarmed : AllAlarmed offset d)
    (add : message.indexPath = MessagePath.intervalAdd kind) (starts : message.startInterval = some startInterval)
    (ends : message.endInterval = some endInterval) (listed : message.files = some files)
    (right : wrongTimes startInterval endInterval = false) (adds : AddsWell offset d kind startInterval endInterval files) :
    AllAlarmed offset (d.perform (Receiver.receiveMessage (.fixedOffset offset) resPath kind message)) := by
  obtain ⟨set, now⟩ := final_added resPath add starts ends listed right adds
  obtain ⟨-, later, spares⟩ := adds
  have fresh : ∀ boundary ∈ boundariesOf kind [(startInterval, endInterval)],
      Alarmed offset (d.perform (Receiver.receiveMessage (.fixedOffset offset) resPath kind message)) boundary :=
    fun boundary member => alarmed_set member (later boundary member) noneReplaced_interval now set
  have old : ∀ boundary ∈ d.db.boundaries, Alarmed offset d boundary →
      Alarmed offset (d.perform (Receiver.receiveMessage (.fixedOffset offset) resPath kind message)) boundary :=
    fun boundary member alarmed => alarmed.kept member spares now set
  have kept : ∀ {other : MediaKind}, ∀ row ∈ d.db.times other,
      Alarmed offset (d.perform (Receiver.receiveMessage (.fixedOffset offset) resPath kind message))
          ⟨other, true, row.startTime⟩ ∧
        Alarmed offset (d.perform (Receiver.receiveMessage (.fixedOffset offset) resPath kind message))
          ⟨other, false, row.endTime⟩ := by
    intro other row member
    obtain ⟨starts, ends⟩ := mem_boundaries member
    exact ⟨old _ starts (alarmed other row member).1, old _ ends (alarmed other row member).2⟩
  intro other row stored
  change row ∈ (final (Receiver.receiveMessage (.fixedOffset offset) resPath kind message) d).db.times other at stored
  rw [Receiver.final_receiveMessage add, Receiver.db_intervalAdd, starts, ends, listed] at stored
  simp only [right, Bool.false_eq_true, if_false] at stored
  by_cases same : other = kind
  · subst same
    rw [FileListMgr.times_insertTimes, List.mem_append, List.mem_map] at stored
    rcases stored with before | ⟨file, -, rfl⟩
    · exact kept row before
    · exact ⟨fresh _ (mem_boundariesOf.mpr ⟨rfl, _, List.mem_cons_self, rfl⟩),
        fresh _ (mem_boundariesOf.mpr ⟨rfl, _, List.mem_cons_self, rfl⟩)⟩
  · rw [FileListMgr.times_insertTimes_other same] at stored
    exact kept row stored

theorem alarmed_received {message : Message} (alarmed : AllAlarmed offset d) (running : d.thrown = none)
    (keeps : KeepsAlarms offset d (.received kind message)) :
    AllAlarmed offset (d.perform (Receiver.receiveMessage (.fixedOffset offset) resPath kind message)) := by
  by_cases add : message.indexPath = MessagePath.intervalAdd kind
  · let asked : Device := { d with mCtrl := Function.update d.mCtrl kind (d.lists kind).isSome }
    rcases Receiver.intervalAdd_cases kind message asked with
      same | ⟨startInterval, endInterval, files, starts, ends, listed, right, first⟩
    · exact alarmed_ignored alarmed ((Receiver.final_receiveMessage add).trans same)
    · exact alarmed_added alarmed add starts ends listed right
        (keeps running add _ starts _ ends _ listed right first)
  · exact alarmed.shrink (shrinks_receiveMessage add d)

/-- An alarm for a boundary is not due before that boundary. -/
theorem alarmed_delivered {i : Nat} {alarm : Alarm} (alarmed : AllAlarmed offset d) (pending : d.alarms[i]? = some alarm)
    (due : alarm.time ≤ d.now) : AllAlarmed offset { d with alarms := d.alarms.eraseIdx i } := by
  have kept : ∀ boundary, Alarmed offset d boundary →
      Alarmed offset { d with alarms := d.alarms.eraseIdx i } boundary := by
    intro boundary set millis found
    obtain ⟨other, member, action, time⟩ := set millis found
    obtain ⟨lower, upper⟩ := millisOfDay_range found
    have ahead := ((nextOccurrence_eq_iff lower upper).mp (rfl : nextOccurrence offset d.now millis = _)).1
    refine ⟨other, ?_, action, time⟩
    obtain ⟨j, place⟩ := List.getElem?_of_mem member
    refine List.mem_eraseIdx_iff_getElem?.mpr ⟨j, ?_, place⟩
    rintro rfl
    have same : other = alarm := Option.some.inj (place.symm.trans pending)
    rw [same] at time
    omega
  exact fun kind row stored => ⟨kept _ (alarmed kind row stored).1, kept _ (alarmed kind row stored).2⟩

theorem alarmed_ticked {time : Int} (alarmed : AllAlarmed offset d) (later : d.now < time)
    (keeps : KeepsAlarms offset d (.ticked time)) : AllAlarmed offset { d with now := time } := by
  have kept : ∀ boundary ∈ d.db.boundaries, Alarmed offset d boundary →
      Alarmed offset { d with now := time } boundary := by
    intro boundary listed set millis found
    obtain ⟨alarm, pending, action, instant⟩ := set millis found
    obtain ⟨lower, upper⟩ := millisOfDay_range found
    have same := nextOccurrence_later lower upper later (keeps boundary listed millis found)
    exact ⟨alarm, pending, action, instant.trans same.symm⟩
  intro kind row stored
  obtain ⟨starts, ends⟩ := mem_boundaries stored
  exact ⟨kept _ starts (alarmed kind row stored).1, kept _ ends (alarmed kind row stored).2⟩

theorem alarmed_step {event : Event} (alarmed : AllAlarmed offset d) (keeps : KeepsAlarms offset d event)
    (taken : d.step (.fixedOffset offset) resPath event = some d') : AllAlarmed offset d' := by
  cases event with
  | received kind message =>
    obtain ⟨running, rfl⟩ := Device.step_received.mp taken
    exact alarmed_received alarmed running keeps
  | downloadFinished kind fileName fullPath =>
    obtain ⟨running, rfl⟩ := Device.step_downloadFinished.mp taken
    exact alarmed.shrink (shrinks_onDownloadFinished fileName fullPath d)
  | created kind =>
    obtain ⟨lists, rfl⟩ := Device.step_created taken
    exact alarmed
  | delivered i =>
    obtain ⟨alarm, pending, running, due, rfl⟩ := Device.step_delivered taken
    exact (alarmed_delivered alarmed pending due).shrink (shrinks_onReceive alarm.action _)
  | ticked time =>
    obtain ⟨later, rfl⟩ := Device.step_ticked.mp taken
    exact alarmed_ticked alarmed later keeps
  | started =>
    obtain rfl := Device.step_started.mp taken
    exact alarmed_onCreate keeps

end

end

/-- From a start on any tables and for every sequence of messages, deliveries and days: as long
as each start and each added interval sets all its alarms today and no stored boundary is
reached, every boundary has its alarm. -/
theorem allAlarmed_throughout {offset : Int} {resPath : MediaKind → JavaString} {d : Device} {events : List Event}
    (starts : StartsWell offset d)
    (keeps : Steps (Device.step (.fixedOffset offset) resPath) (KeepsAlarms offset)
      (d.onCreate (.fixedOffset offset)) events) :
    Throughout (Device.step (.fixedOffset offset) resPath) (AllAlarmed offset)
      (d.onCreate (.fixedOffset offset)) events :=
  throughout_of_invariant (fun _ _ _ alarmed ok taken => alarmed_step alarmed ok taken) (fun _ alarmed => alarmed)
    (alarmed_onCreate starts) keeps

/-- Six o'clock in the morning, with a video from eight to ten. -/
def earlyMorning : Device where
  now := 1470002400000
  db := FileListMgr.insertTime {} .video (ofString "08:00:00") (ofString "10:00:00") (ofString "a.mp4")
    (ofString "/Camera/a.mp4")

/-- A second interval, from nine to eleven. -/
def secondInterval : Message where
  indexPath := "AdVideo/TimeInterval"
  startInterval := some (ofString "09:00:00")
  endInterval := some (ofString "11:00:00")
  files := some [some (ofString "b.mp4")]

theorem earlyMorning_allAlarmed : Throughout (Device.step (.fixedOffset 28800) fun _ => ofString "/Camera")
    (AllAlarmed 28800) (earlyMorning.onCreate (.fixedOffset 28800))
      [.received .video secondInterval, .ticked 1470009599999] :=
  allAlarmed_throughout (by decide +kernel) (by decide +kernel)

/-- The start of the first interval, and no alarm for it on the next day. -/
def startUnset (d : Device) : Bool :=
  (d.db.times .video).any (fun row => row.startTime = ofString "08:00:00") &&
    d.alarms.all fun alarm => alarm.time ≠ nextOccurrence 28800 d.now 28800000

/-- At eight the alarm of the start is delivered, and nothing sets it again. -/
theorem delivered_not_set_again : ¬ Throughout (Device.step (.fixedOffset 28800) fun _ => ofString "/Camera")
    (AllAlarmed 28800) (earlyMorning.onCreate (.fixedOffset 28800))
      [.created .video, .ticked 1470009600000, .delivered 3] := by
  intro all
  have unset : (run (Device.step (.fixedOffset 28800) fun _ => ofString "/Camera")
      (earlyMorning.onCreate (.fixedOffset 28800)) [.created .video, .ticked 1470009600000, .delivered 3]).any
        startUnset = true := by
    decide +kernel
  obtain ⟨d, reached, unset⟩ := (Option.any_eq_true _ _).mp unset
  simp only [startUnset, Bool.and_eq_true, List.any_eq_true, List.all_eq_true, decide_eq_true_eq] at unset
  obtain ⟨⟨row, stored, starts⟩, none⟩ := unset
  have found : millisOfDay row.startTime = some 28800000 := by
    rw [starts]
    decide +kernel
  obtain ⟨alarm, pending, -, tomorrow⟩ := (all _ [] (List.append_nil _).symm d reached .video row stored).1 _ found
  exact none alarm pending tomorrow

end AdTerminal.Schedule
