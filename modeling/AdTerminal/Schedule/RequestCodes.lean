import AdTerminal.Schedule.DailyAlarms

/-! The request codes of the alarms. Both kinds take theirs from one counter, which comes round after
99 alarms: an alarm is set in place of another one that is still pending from an earlier turn. -/

namespace AdTerminal.Schedule
open Strategy JavaString Stateful Transition AlarmUtil

/-- The first and the last code of `VIDEO_UPDATE_CODE_INTERVAL` or `IMAGE_UPDATE_CODE_INTERVAL`. -/
def updateCodeInterval : MediaKind → Int × Int
  | .video => (200, 299)
  | .image => (300, 399)

/-- What happens to the alarms of intervals. -/
inductive AlarmEvent where
  | set (boundary : Boundary)
  /-- The `i`-th pending alarm is due and delivered. -/
  | delivered (i : Nat)
  | ticked (time : Int)

/-- A process and the alarms that it has armed, one after the other. -/
structure Arming where
  device : Device
  armed : List Alarm := []

namespace Arming

variable (calendar : Calendar)

/-- The alarm that a call sets, with the next code, unless its time is over or cannot be converted. -/
def newAlarm (d : Device) (boundary : Boundary) : Option Alarm :=
  match convertAlarmUpTime calendar d.now boundary.time with
  | .error _ => none
  | .ok millis =>
    if millis ≤ d.now + margin boundary.kind then none
    else some { action := boundary.action, requestCode := nextRequestCode d.videoIntervalRequestCode, time := millis }

def step (s : Arming) : AlarmEvent → Option Arming
  | .set boundary => some
    { device := final (setBoundary calendar boundary) s.device
      armed := s.armed ++ (newAlarm calendar s.device boundary).toList }
  | .delivered i => do
    let alarm ← s.device.alarms[i]?
    if alarm.time ≤ s.device.now then some { s with device := { s.device with alarms := s.device.alarms.eraseIdx i } }
    else none
  | .ticked time => some { s with device := { s.device with now := time } }

/-- A process that has not set an alarm yet. -/
def start (d : Device) : Arming where
  device := { d with alarms := [], videoIntervalRequestCode := 200 }

/-- A newly armed alarm replaces no pending one, and its code is one of its kind. -/
def ArmsApart (s : Arming) : AlarmEvent → Prop
  | .set boundary => ∀ alarm ∈ newAlarm calendar s.device boundary,
      (∀ other ∈ s.device.alarms, ¬ alarm.SameIntent other) ∧
        (updateCodeInterval boundary.kind).1 ≤ alarm.requestCode ∧
          alarm.requestCode ≤ (updateCodeInterval boundary.kind).2
  | .delivered _ => True
  | .ticked _ => True

/-- Only video alarms are armed, and none while one with its action is pending that was armed a
multiple of 99 alarms before. -/
def WithinTurn (s : Arming) : AlarmEvent → Prop
  | .set boundary => (newAlarm calendar s.device boundary).isSome → boundary.kind = .video ∧
      ∀ i, ∀ other ∈ s.armed[i]?, other ∈ s.device.alarms → other.action = boundary.action →
        ¬ 99 ∣ s.armed.length - i
  | .delivered _ => True
  | .ticked _ => True

/-- The code of the alarm that is armed after so many others. -/
def codeAfter (n : Nat) : Int := 200 + ((n + 1) % 99 : Nat)

theorem nextRequestCode_turn (n : Nat) : nextRequestCode (200 + (n % 99 : Nat)) = codeAfter n := by
  unfold nextRequestCode codeAfter
  split <;> [skip; split] <;> omega

theorem codeAfter_inj {i n : Nat} (earlier : i ≤ n) : codeAfter i = codeAfter n ↔ 99 ∣ n - i := by
  unfold codeAfter
  omega

/-- The invariant: the counter and the codes of all alarms follow from how many were armed. -/
structure Turns (s : Arming) : Prop where
  counter : s.device.videoIntervalRequestCode = 200 + (s.armed.length % 99 : Nat)
  codes : ∀ i, ∀ alarm ∈ s.armed[i]?, alarm.requestCode = codeAfter i
  pending : ∀ alarm ∈ s.device.alarms, alarm ∈ s.armed

variable {calendar} {s t : Arming}

/-- A call sets its new alarm, if there is one, and keeps its code as the counter. -/
theorem final_setBoundary (d : Device) (boundary : Boundary) : final (setBoundary calendar boundary) d =
    match newAlarm calendar d boundary with
    | none => d
    | some alarm => ({ d with videoIntervalRequestCode := alarm.requestCode } : Device).set alarm := by
  unfold newAlarm
  cases found : convertAlarmUpTime calendar d.now boundary.time with
  | error e =>
    unfold setBoundary setChangeTimeBroadcast
    exact final_bind_error (by rw [run_alarmUpTime, found])
  | ok millis =>
    by_cases late : millis ≤ d.now + margin boundary.kind
    · unfold setBoundary setChangeTimeBroadcast final
      rw [EStateM.run_bind, run_alarmUpTime, found]
      simp only [EStateM.run_bind, EStateM.run_get, if_pos late]
      rfl
    · simp only [if_neg late]
      exact final_of_ok (run_setBoundary found (not_le.mp late))

theorem requestCode_newAlarm {d : Device} {boundary : Boundary} {alarm : Alarm}
    (new : newAlarm calendar d boundary = some alarm) :
    alarm.action = boundary.action ∧ alarm.requestCode = nextRequestCode d.videoIntervalRequestCode := by
  unfold newAlarm at new
  split at new
  next => cases new
  next millis _ =>
    rw [Option.ite_none_left_eq_some, Option.some.injEq] at new
    obtain ⟨-, rfl⟩ := new
    exact ⟨rfl, rfl⟩

theorem turns_start (d : Device) : Turns (start d) where
  counter := rfl
  codes i alarm member := by cases member
  pending alarm member := by cases member

/-- The codes of a list of alarms that is one longer. -/
theorem codes_append {armed : List Alarm} {alarm : Alarm}
    (codes : ∀ i, ∀ alarm ∈ armed[i]?, alarm.requestCode = codeAfter i)
    (last : alarm.requestCode = codeAfter armed.length) :
    ∀ i, ∀ other ∈ (armed ++ [alarm])[i]?, other.requestCode = codeAfter i := by
  intro i other member
  rcases lt_trichotomy i armed.length with inside | rfl | outside
  · rw [List.getElem?_append_left inside] at member
    exact codes i other member
  · rw [List.getElem?_concat_length, Option.mem_some_iff] at member
    exact member ▸ last
  · rw [List.getElem?_eq_none (List.length_append.trans_le outside)] at member
    cases member

theorem turns_set (turns : Turns s) (boundary : Boundary) (alarm : Alarm)
    (new : newAlarm calendar s.device boundary = some alarm) :
    Turns { device := ({ s.device with videoIntervalRequestCode := alarm.requestCode } : Device).set alarm
            armed := s.armed ++ [alarm] } := by
  have code : alarm.requestCode = codeAfter s.armed.length := by
    rw [(requestCode_newAlarm new).2, turns.counter, nextRequestCode_turn]
  refine ⟨?_, codes_append turns.codes code, fun other member => ?_⟩
  · rw [List.length_append, List.length_singleton]
    exact code
  · rcases List.mem_append.mp (show other ∈ setAlarm s.device.alarms alarm from member) with kept | last
    · exact List.mem_append_left _ (turns.pending other (List.mem_of_mem_filter kept))
    · exact List.mem_append_right _ last

theorem turns_step {event : AlarmEvent} (turns : Turns s) (taken : s.step calendar event = some t) : Turns t := by
  cases event with
  | set boundary =>
    obtain rfl := Option.some.inj taken
    rw [final_setBoundary]
    cases new : newAlarm calendar s.device boundary with
    | none => simpa using turns
    | some alarm => exact turns_set turns boundary alarm new
  | delivered i =>
    obtain ⟨alarm, -, taken⟩ := Option.bind_eq_some_iff.mp taken
    simp only [Option.ite_none_right_eq_some, Option.some.injEq] at taken
    obtain ⟨-, rfl⟩ := taken
    exact ⟨turns.counter, turns.codes, fun other member => turns.pending other (List.mem_of_mem_eraseIdx member)⟩
  | ticked time =>
    obtain rfl := Option.some.inj taken
    exact ⟨turns.counter, turns.codes, turns.pending⟩

theorem codeAfter_range (n : Nat) : 200 ≤ codeAfter n ∧ codeAfter n < 299 := by
  unfold codeAfter
  omega

/-- The codes are those of the video pool. -/
theorem inPool_iff (n : Nat) (kind : MediaKind) :
    (updateCodeInterval kind).1 ≤ codeAfter n ∧ codeAfter n ≤ (updateCodeInterval kind).2 ↔ kind = .video := by
  have range := codeAfter_range n
  cases kind with
  | video => exact iff_of_true ⟨range.1, range.2.le⟩ rfl
  | image =>
    refine iff_of_false (fun inside => ?_) (by decide)
    have low : 300 ≤ codeAfter n := inside.1
    omega

/-- The pending alarms that a new one would replace are those of full turns before. -/
theorem sameIntent_iff (turns : Turns s) {alarm : Alarm} (code : alarm.requestCode = codeAfter s.armed.length) :
    (∀ other ∈ s.device.alarms, ¬ alarm.SameIntent other) ↔
      ∀ i, ∀ other ∈ s.armed[i]?, other ∈ s.device.alarms → other.action = alarm.action →
        ¬ 99 ∣ s.armed.length - i := by
  constructor
  · intro apart i other earlier pending action turn
    have inside : i < s.armed.length := (List.getElem?_eq_some_iff.mp earlier).1
    refine apart other pending ⟨action, ?_⟩
    rw [turns.codes i other earlier, code, codeAfter_inj inside.le]
    exact turn
  · intro within other pending intent
    obtain ⟨i, earlier⟩ := List.mem_iff_getElem?.mp (turns.pending other pending)
    have inside : i < s.armed.length := (List.getElem?_eq_some_iff.mp earlier).1
    refine within i other earlier pending intent.1 ((codeAfter_inj inside.le).mp ?_)
    rw [← turns.codes i other earlier, ← code]
    exact intent.2

theorem armsApart_iff (turns : Turns s) (event : AlarmEvent) :
    ArmsApart calendar s event ↔ WithinTurn calendar s event := by
  cases event with
  | set boundary =>
    cases new : newAlarm calendar s.device boundary with
    | none => simp [ArmsApart, WithinTurn, new]
    | some alarm =>
      obtain ⟨action, code⟩ := requestCode_newAlarm new
      rw [turns.counter, nextRequestCode_turn] at code
      simp only [ArmsApart, WithinTurn, new, Option.mem_some_iff, forall_eq', Option.isSome_some, true_imp_iff]
      rw [sameIntent_iff turns code, code, inPool_iff, action]
      exact and_comm
  | delivered i => exact Iff.rfl
  | ticked time => exact Iff.rfl

/-- For every sequence of calls and deliveries: every newly armed alarm differs from all pending
ones, with a code of its kind, exactly if the armed alarms are those of videos and each is armed
while no other one with its action is pending from full turns of 99 alarms before. -/
theorem armsApart_throughout_iff (d : Device) (events : List AlarmEvent) :
    Steps (step calendar) (ArmsApart calendar) (start d) events ↔
      Steps (step calendar) (WithinTurn calendar) (start d) events :=
  steps_iff (fun _ event turns => armsApart_iff turns event) (fun _ _ _ turns _ taken => turns_step turns taken)
    (turns_start d)

/-- The first alarm of an image gets the code 201. -/
theorem image_code_of_video : ¬ Steps (step (.fixedOffset 28800)) (ArmsApart (.fixedOffset 28800))
    (start { now := 1470000000000 }) [.set ⟨.image, true, ofString "10:00:00"⟩] := by
  intro apart
  have pool := (apart.1 _ rfl).2.1
  revert pool
  decide +kernel

end Arming

end AdTerminal.Schedule
