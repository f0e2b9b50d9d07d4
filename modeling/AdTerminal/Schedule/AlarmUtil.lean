import AdTerminal.Library.Stateful
import AdTerminal.Library.Transition
import AdTerminal.Schedule.AdCtrl

/-! The alarms. `AlarmManager.set` is one-shot and replaces a pending alarm with the same
action and request code. A time is converted each time it is set, so a stored time that
cannot be converted ends the process whenever it starts. -/

namespace AdTerminal.Schedule
open Strategy JavaString Stateful

inductive Thrown where
  | jsonException
  | numberFormatException
  | arrayIndexOutOfBoundsException
  | nullPointerException
  deriving DecidableEq, Repr

/-- `android.text.format.Time`: the time of day after `setToNow`, and `toMillis` of the present
day with another hour, minute and second. -/
structure Calendar where
  timeOfDay : Int → TimeOfDay
  toMillis : Int → Int → Int → Int → Int

/-- The local midnight before an instant, in a zone that is `offset` seconds ahead all year. -/
def startOfDay (offset now : Int) : Int := (now + offset * 1000) / 86400000 * 86400000 - offset * 1000

/-- The calendar of such a zone. `toMillis` yields -1 for seconds that need more than 32 bits. -/
def Calendar.fixedOffset (offset : Int) : Calendar where
  timeOfDay now :=
    let second := ((now - startOfDay offset now) / 1000).toNat
    { hour := ⟨second / 3600 % 24, Nat.mod_lt _ (by decide)⟩
      minute := ⟨second / 60 % 60, Nat.mod_lt _ (by decide)⟩
      second := ⟨second % 60, Nat.mod_lt _ (by decide)⟩ }
  toMillis now hour minute second :=
    let millis := startOfDay offset now + (hour * 3600 + minute * 60 + second) * 1000
    if -2147483648 ≤ millis / 1000 ∧ millis / 1000 < 2147483648 then millis else -1

/-- The actions of `TimerAlarmReceiver`. -/
inductive Action where
  | intervalStart (kind : MediaKind)
  | intervalEnd (kind : MediaKind)
  | systemVoiceOn
  | systemVoiceOff
  | systemRestart
  deriving DecidableEq, Repr

structure Alarm where
  action : Action
  requestCode : Int
  time : Int
  deriving DecidableEq, Repr

/-- The terminal: database and pending alarms outlive the process, the rest does not. -/
structure Device where
  db : FileListMgr := {}
  alarms : List Alarm := []
  now : Int
  videoIntervalRequestCode : Int := 200
  /-- The play lists of the controllers there are. -/
  lists : MediaKind → Option (List JavaString) := fun _ => none
  /-- Whether a receiver found a controller at its last message. -/
  mCtrl : MediaKind → Bool := fun _ => false
  mDownloadTaskNum : MediaKind → Nat := fun _ => 0
  mFinishedTaskNum : MediaKind → Nat := fun _ => 0
  /-- The exception the process ended with. -/
  thrown : Option Thrown := none

abbrev Program := EStateM Thrown Device

namespace Settings

def restartTime : JavaString := ofString "24:00:00"

/-- The default of the preference. -/
def onTime : JavaString := ofString "07:00:00"

/-- The default of the preference. -/
def offTime : JavaString := ofString "21:00:00"

end Settings

/-- The alarms that a pending intent stands for: those with the same action and request code. -/
def Alarm.SameIntent (alarm other : Alarm) : Prop :=
  other.action = alarm.action ∧ other.requestCode = alarm.requestCode

instance (alarm other : Alarm) : Decidable (alarm.SameIntent other) :=
  inferInstanceAs (Decidable (other.action = alarm.action ∧ other.requestCode = alarm.requestCode))

/-- `AlarmManager.set`. -/
def setAlarm (alarms : List Alarm) (alarm : Alarm) : List Alarm :=
  alarms.filter (fun other => ¬ alarm.SameIntent other) ++ [alarm]

def Device.set (d : Device) (alarm : Alarm) : Device := { d with alarms := setAlarm d.alarms alarm }

namespace AlarmUtil

/-- `Integer.parseInt(hms[i].trim())`. -/
def hmsPart (hms : List JavaString) (i : Nat) : Except Thrown Int :=
  match hms[i]? with
  | none => .error .arrayIndexOutOfBoundsException
  | some text =>
    match parseInt (trim text) with
    | none => .error .numberFormatException
    | some value => .ok value

/-- `timeInt` of `ConvertAlarmUpTime`. -/
def timeInt (time : JavaString) : Except Thrown (Int × Int × Int) := do
  let hms := split (trim time) 0x3A
  let hour ← hmsPart hms 0
  let minute ← hmsPart hms 1
  let second ← hmsPart hms 2
  pure (hour, minute, second)

/-- `ConvertAlarmUpTime`, of a time that is not null. -/
def convertAlarmUpTime (calendar : Calendar) (now : Int) (time : JavaString) : Except Thrown Int := do
  let (hour, minute, second) ← timeInt time
  pure (calendar.toMillis now hour minute second)

/-- The request codes of both kinds, 200 to 298 in turn. -/
def nextRequestCode (code : Int) : Int :=
  if code + 1 < 200 then 200 else if 299 ≤ code + 1 then 200 else code + 1

def getOneVideoRequestCode : Program Int := do
  modify fun d => { d with videoIntervalRequestCode := nextRequestCode d.videoIntervalRequestCode }
  pure (← get).videoIntervalRequestCode

variable (calendar : Calendar)

/-- The conversion, where its exception is not caught. -/
def alarmUpTime (time : JavaString) : Program Int := do
  match convertAlarmUpTime calendar (← get).now time with
  | .error e => throw e
  | .ok millis => pure millis

/-- A video alarm is not set within the next twenty milliseconds. -/
def margin : MediaKind → Int
  | .video => 20
  | .image => 0

def setChangeTimeBroadcast (kind : MediaKind) (time : JavaString) (isStart : Bool) : Program Unit := do
  let alarmUpTimeInMillis ← alarmUpTime calendar time
  if alarmUpTimeInMillis ≤ (← get).now + margin kind then
    pure ()
  else
    let requestCode ← getOneVideoRequestCode
    let action := if isStart then .intervalStart kind else .intervalEnd kind
    modify fun d => d.set { action, requestCode, time := alarmUpTimeInMillis }

def setVideoChangeTimeBroadcast := setChangeTimeBroadcast calendar .video
def setImageChangeTimeBroadcast := setChangeTimeBroadcast calendar .image

def setVoiceSwitchBroadcast (time : JavaString) (isOn : Bool) : Program Unit := do
  let alarmUpTimeInMillis ← alarmUpTime calendar time
  if alarmUpTimeInMillis ≤ (← get).now then
    pure ()
  else if isOn then
    modify fun d => d.set { action := .systemVoiceOn, requestCode := 101, time := alarmUpTimeInMillis }
  else
    modify fun d => d.set { action := .systemVoiceOff, requestCode := 102, time := alarmUpTimeInMillis }

/-- The only alarm that is set for the next day when it is past. -/
def setRestartTimeBroadcast (time : JavaString) : Program Unit := do
  let alarmUpTimeInMillis ← alarmUpTime calendar time
  let past := alarmUpTimeInMillis ≤ (← get).now
  let alarmUpTimeInMillis := if past then alarmUpTimeInMillis + 24 * 60 * 60 * 1000 else alarmUpTimeInMillis
  modify fun d => d.set { action := .systemRestart, requestCode := 100, time := alarmUpTimeInMillis }

/-- Both ends of the intervals are set, one interval after the other. -/
def setIntervals (kind : MediaKind) (intervals : List (JavaString × JavaString)) : Program Unit :=
  intervals.forM fun interval => do
    setChangeTimeBroadcast calendar kind interval.1 true
    setChangeTimeBroadcast calendar kind interval.2 false

def initAlarmWhenStartUp : Program Unit := do
  setRestartTimeBroadcast calendar Settings.restartTime
  setVoiceSwitchBroadcast calendar Settings.onTime true
  setVoiceSwitchBroadcast calendar Settings.offTime false
  let db := (← get).db
  setIntervals calendar .video db.getAllVideoTimeInterval
  setIntervals calendar .image db.getAllImageTimeInterval

/-- Three integers separated by colons, once trimmed. -/
def Convertible (time : JavaString) : Prop := ∃ hms, timeInt time = .ok hms

instance (time : JavaString) : Decidable (Convertible time) :=
  match found : timeInt time with
  | .error _ => isFalse (by simp [Convertible, found])
  | .ok hms => isTrue ⟨hms, found⟩

variable {calendar}

theorem convertAlarmUpTime_ok_iff {now : Int} {time : JavaString} :
    (∃ millis, convertAlarmUpTime calendar now time = .ok millis) ↔ Convertible time := by
  unfold convertAlarmUpTime Convertible
  cases timeInt time with
  | error e => simp [bind, Except.bind]
  | ok hms => simp [bind, Except.bind, pure, Except.pure]

theorem run_alarmUpTime (time : JavaString) (d : Device) : (alarmUpTime calendar time).run d =
    match convertAlarmUpTime calendar d.now time with
    | .error e => .error e d
    | .ok millis => .ok millis d := by
  simp only [alarmUpTime, EStateM.run_bind, EStateM.run_get]
  cases convertAlarmUpTime calendar d.now time with
  | error e => rfl
  | ok millis => rfl

section
variable {β : Type} {part : Device → β}

theorem keeps_alarmUpTime (time : JavaString) : Keeps part (alarmUpTime calendar time) := by
  intro d
  rw [final, run_alarmUpTime]
  cases convertAlarmUpTime calendar d.now time with
  | error e => rfl
  | ok millis => rfl

theorem returns_alarmUpTime {time : JavaString} (converts : Convertible time) :
    Returns (alarmUpTime calendar time) := by
  intro d
  obtain ⟨millis, converted⟩ : ∃ millis, convertAlarmUpTime calendar d.now time = .ok millis :=
    convertAlarmUpTime_ok_iff.mpr converts
  rw [thrown, run_alarmUpTime, converted]

theorem returns_getOneVideoRequestCode : Returns getOneVideoRequestCode :=
  .bind (.modify _) fun _ => .bind .get fun _ => .pure _

theorem returns_setChangeTimeBroadcast {kind : MediaKind} {time : JavaString} {isStart : Bool}
    (converts : Convertible time) : Returns (setChangeTimeBroadcast calendar kind time isStart) := by
  refine .bind (returns_alarmUpTime converts) fun _ => .bind .get fun _ => .ite (.pure _) ?_
  exact .bind returns_getOneVideoRequestCode fun _ => .modify _

theorem returns_setVoiceSwitchBroadcast {time : JavaString} {isOn : Bool} (converts : Convertible time) :
    Returns (setVoiceSwitchBroadcast calendar time isOn) :=
  .bind (returns_alarmUpTime converts) fun _ => .bind .get fun _ => .ite (.pure _) (.ite (.modify _) (.modify _))

theorem returns_setRestartTimeBroadcast {time : JavaString} (converts : Convertible time) :
    Returns (setRestartTimeBroadcast calendar time) :=
  .bind (returns_alarmUpTime converts) fun _ => .bind .get fun _ => .modify _

theorem returns_setIntervals {kind : MediaKind} {intervals : List (JavaString × JavaString)}
    (converts : ∀ interval ∈ intervals, Convertible interval.1 ∧ Convertible interval.2) :
    Returns (setIntervals calendar kind intervals) :=
  .forM fun interval member =>
    .bind (returns_setChangeTimeBroadcast (converts interval member).1) fun _ =>
      returns_setChangeTimeBroadcast (converts interval member).2

end

/-- Setting an alarm changes the pending alarms and the request code only. -/
theorem keeps_setChangeTimeBroadcast {β : Type} {part : Device → β}
    (set : ∀ d alarm, part (Device.set d alarm) = part d)
    (code : ∀ (d : Device) code, part { d with videoIntervalRequestCode := code } = part d)
    (kind : MediaKind) (time : JavaString) (isStart : Bool) :
    Keeps part (setChangeTimeBroadcast calendar kind time isStart) := by
  refine .bind (keeps_alarmUpTime time) fun _ => .bind .get fun _ => .ite (fun _ => .pure _) fun _ => ?_
  refine .bind ?_ fun _ => .modify fun d => set d _
  exact .bind (.modify fun d => code d _) fun _ => .bind .get fun _ => .pure _

theorem keeps_setVoiceSwitchBroadcast {β : Type} {part : Device → β}
    (set : ∀ d alarm, part (Device.set d alarm) = part d) (time : JavaString) (isOn : Bool) :
    Keeps part (setVoiceSwitchBroadcast calendar time isOn) := by
  refine .bind (keeps_alarmUpTime time) fun _ => .bind .get fun _ => .ite (fun _ => .pure _) fun _ => ?_
  refine .ite (fun _ => ?_) fun _ => ?_
  · exact .modify fun d => set d _
  · exact .modify fun d => set d _

theorem keeps_setRestartTimeBroadcast {β : Type} {part : Device → β}
    (set : ∀ d alarm, part (Device.set d alarm) = part d) (time : JavaString) :
    Keeps part (setRestartTimeBroadcast calendar time) :=
  .bind (keeps_alarmUpTime time) fun _ => .bind .get fun _ => .modify fun d => set d _

theorem keeps_setIntervals {β : Type} {part : Device → β}
    (set : ∀ d alarm, part (Device.set d alarm) = part d)
    (code : ∀ (d : Device) code, part { d with videoIntervalRequestCode := code } = part d)
    (kind : MediaKind) (intervals : List (JavaString × JavaString)) :
    Keeps part (setIntervals calendar kind intervals) := by
  unfold setIntervals
  apply Within.forM
  intro interval
  apply Within.bind
  · exact keeps_setChangeTimeBroadcast set code kind interval.1 true
  · exact fun _ => keeps_setChangeTimeBroadcast set code kind interval.2 false

/-- The alarms that do not belong to an interval. -/
def setSystemAlarms (calendar : Calendar) : Program Unit := do
  setRestartTimeBroadcast calendar Settings.restartTime
  setVoiceSwitchBroadcast calendar Settings.onTime true
  setVoiceSwitchBroadcast calendar Settings.offTime false

theorem returns_setSystemAlarms : Returns (setSystemAlarms calendar) := by
  refine .bind (returns_setRestartTimeBroadcast ?_) fun _ => .bind (returns_setVoiceSwitchBroadcast ?_) fun _ =>
    returns_setVoiceSwitchBroadcast ?_
  · decide
  · decide
  · decide

theorem keeps_setSystemAlarms {β : Type} {part : Device → β} (set : ∀ d alarm, part (Device.set d alarm) = part d) :
    Keeps part (setSystemAlarms calendar) :=
  .bind (keeps_setRestartTimeBroadcast set _) fun _ => .bind (keeps_setVoiceSwitchBroadcast set _ _) fun _ =>
    keeps_setVoiceSwitchBroadcast set _ _

theorem keeps_initAlarmWhenStartUp {β : Type} {part : Device → β}
    (set : ∀ d alarm, part (Device.set d alarm) = part d)
    (code : ∀ (d : Device) code, part { d with videoIntervalRequestCode := code } = part d) :
    Keeps part (initAlarmWhenStartUp calendar) := by
  refine .bind (keeps_setRestartTimeBroadcast set _) fun _ => .bind (keeps_setVoiceSwitchBroadcast set _ _) fun _ => ?_
  refine .bind (keeps_setVoiceSwitchBroadcast set _ _) fun _ => .bind .get fun d => ?_
  exact .bind (keeps_setIntervals set code _ _) fun _ => keeps_setIntervals set code _ _

/-- The start-up as the alarms of the system, then those of the intervals the database had. -/
theorem run_initAlarmWhenStartUp (d : Device) : (initAlarmWhenStartUp calendar).run d =
    (do setSystemAlarms calendar
        setIntervals calendar .video d.db.getAllVideoTimeInterval
        setIntervals calendar .image d.db.getAllImageTimeInterval : Program Unit).run d := by
  have split : initAlarmWhenStartUp calendar = (do
      setSystemAlarms calendar
      let d' ← get
      setIntervals calendar .video d'.db.getAllVideoTimeInterval
      setIntervals calendar .image d'.db.getAllImageTimeInterval) := by
    simp only [initAlarmWhenStartUp, setSystemAlarms, bind_assoc]
  obtain ⟨⟨⟩, ran⟩ := Returns.run_ok (returns_setSystemAlarms : Returns (setSystemAlarms calendar)) d
  have same : (final (setSystemAlarms calendar) d).db = d.db := keeps_setSystemAlarms (fun _ _ => rfl) d
  rw [split, EStateM.run_bind, EStateM.run_bind, ran]
  simp only [EStateM.run_bind, EStateM.run_get, same]

theorem thrown_initAlarmWhenStartUp {d : Device} (converts : ∀ kind, ∀ interval ∈ d.db.getAllTimeInterval kind,
    Convertible interval.1 ∧ Convertible interval.2) : thrown (initAlarmWhenStartUp calendar) d = none := by
  rw [thrown, run_initAlarmWhenStartUp]
  have returns : Returns (do
      setSystemAlarms calendar
      setIntervals calendar .video d.db.getAllVideoTimeInterval
      setIntervals calendar .image d.db.getAllImageTimeInterval : Program Unit) :=
    .bind returns_setSystemAlarms fun _ => .bind (returns_setIntervals (converts .video)) fun _ =>
      returns_setIntervals (converts .image)
  exact returns d

end AlarmUtil

end AdTerminal.Schedule
