import AdTerminal.Schedule.Receivers

/-! The stored times and the next start. The guard on an interval message admits times that
cannot be converted, and its rows are stored before the first conversion: the process starts
again from its database as long as every message that stores a row has convertible times. -/

namespace AdTerminal.Schedule
open Strategy JavaString Stateful Transition AlarmUtil

variable (calendar : Calendar) (resPath : MediaKind → JavaString)

/-- Every stored time can be converted, and the next start returns. -/
structure StartsUp (d : Device) : Prop where
  converted : ∀ kind, ∀ row ∈ d.db.times kind,
    (∃ millis, convertAlarmUpTime calendar d.now row.startTime = .ok millis) ∧
      ∃ millis, convertAlarmUpTime calendar d.now row.endTime = .ok millis
  returns : (d.onCreate calendar).thrown = none

/-- A message to add an interval whose times cannot both be converted. -/
def Unconvertible (kind : MediaKind) (message : Message) : Prop :=
  message.indexPath = MessagePath.intervalAdd kind ∧ ∃ startInterval endInterval,
    message.startInterval = some startInterval ∧ message.endInterval = some endInterval ∧
      ¬ (Convertible startInterval ∧ Convertible endInterval)

/-- Such a message leaves both tables unchanged. -/
def LeavesTables (d : Device) (event : Event) : Prop :=
  ∀ kind message, event = .received kind message → Unconvertible kind message →
    ∀ d', d.step calendar resPath event = some d' → d'.db.times = d.db.times

/-- A message that passes the guard and has a first file has convertible times. -/
def ConvertsStored (d : Device) : Event → Prop
  | .received kind message => d.thrown = none → message.indexPath = MessagePath.intervalAdd kind →
      ∀ startInterval ∈ message.startInterval, ∀ endInterval ∈ message.endInterval, ∀ files ∈ message.files,
        wrongTimes startInterval endInterval = false → files.head?.join.isSome →
          Convertible startInterval ∧ Convertible endInterval
  | _ => True

instance : ∀ (d : Device) (event : Event), Decidable (ConvertsStored d event)
  | d, .received kind message => inferInstanceAs (Decidable (d.thrown = none →
      message.indexPath = MessagePath.intervalAdd kind →
      ∀ startInterval ∈ message.startInterval, ∀ endInterval ∈ message.endInterval, ∀ files ∈ message.files,
        wrongTimes startInterval endInterval = false → files.head?.join.isSome →
          Convertible startInterval ∧ Convertible endInterval))
  | _, .downloadFinished .. => isTrue trivial
  | _, .created _ => isTrue trivial
  | _, .delivered _ => isTrue trivial
  | _, .ticked _ => isTrue trivial
  | _, .started => isTrue trivial

/-- The invariant: both times of every row are convertible. -/
def ConvertibleRows (db : FileListMgr) : Prop :=
  ∀ kind, ∀ row ∈ db.times kind, Convertible row.startTime ∧ Convertible row.endTime

variable {calendar resPath}

section
variable {db : FileListMgr} {kind : MediaKind}

theorem ConvertibleRows.shrink {d d' : Device} (rows : ConvertibleRows d.db) (shrinks : Shrinks d d') :
    ConvertibleRows d'.db :=
  fun kind row member => rows kind row (shrinks.1 kind member)

theorem convertible_insertTimes {startTime endTime : JavaString} {files : List (JavaString × JavaString)}
    (rows : ConvertibleRows db) (converts : files ≠ [] → Convertible startTime ∧ Convertible endTime) :
    ConvertibleRows (db.insertTimes kind startTime endTime files) := by
  intro other row member
  by_cases same : other = kind
  · subst same
    rw [FileListMgr.times_insertTimes, List.mem_append, List.mem_map] at member
    rcases member with old | ⟨file, listed, rfl⟩
    · exact rows other row old
    · exact converts (List.ne_nil_of_mem listed)
  · rw [FileListMgr.times_insertTimes_other same] at member
    exact rows other row member

end

theorem startsUp_of_convertible {d : Device} (rows : ConvertibleRows d.db) : StartsUp calendar d := by
  have intervals : ∀ kind, ∀ interval ∈ d.db.getAllTimeInterval kind,
      Convertible interval.1 ∧ Convertible interval.2 := by
    intro kind interval member
    obtain ⟨row, stored, starts, ends⟩ := FileListMgr.mem_getAllTimeInterval.mp member
    exact starts ▸ ends ▸ rows kind row stored
  refine ⟨fun kind row member => ?_, ?_⟩
  · obtain ⟨starts, ends⟩ := rows kind row member
    exact ⟨convertAlarmUpTime_ok_iff.mpr starts, convertAlarmUpTime_ok_iff.mpr ends⟩
  · exact thrown_initAlarmWhenStartUp intervals

/-- An added interval keeps the rows convertible exactly when it leaves the tables alone or
its times are convertible. -/
theorem convertible_added {kind : MediaKind} {message : Message} {d : Device} (rows : ConvertibleRows d.db)
    (converts : ConvertsStored d (.received kind message)) (running : d.thrown = none)
    (add : message.indexPath = MessagePath.intervalAdd kind) :
    ConvertibleRows (final (Receiver.receiveMessage calendar resPath kind message) d).db := by
  rw [Receiver.final_receiveMessage add, Receiver.db_intervalAdd]
  split
  next startInterval endInterval files starts ends listed =>
    split
    next => exact rows
    next right =>
      refine convertible_insertTimes rows fun stored => ?_
      refine converts running add _ starts _ ends _ listed (by simpa using right) (reached_ne_nil_iff.mp ?_)
      rintro none
      simp [none] at stored
  next => exact rows

theorem convertible_step {d d' : Device} {event : Event} (rows : ConvertibleRows d.db)
    (converts : ConvertsStored d event) (taken : d.step calendar resPath event = some d') : ConvertibleRows d'.db := by
  cases event with
  | received kind message =>
    obtain ⟨running, rfl⟩ := Device.step_received.mp taken
    by_cases add : message.indexPath = MessagePath.intervalAdd kind
    · exact convertible_added rows converts running add
    · exact rows.shrink (shrinks_receiveMessage add d)
  | downloadFinished kind fileName fullPath =>
    obtain ⟨running, rfl⟩ := Device.step_downloadFinished.mp taken
    exact rows.shrink (shrinks_onDownloadFinished fileName fullPath d)
  | created kind =>
    obtain ⟨lists, rfl⟩ := Device.step_created taken
    exact rows
  | delivered i =>
    obtain ⟨alarm, pending, running, due, rfl⟩ := Device.step_delivered taken
    have before : ConvertibleRows ({ d with alarms := d.alarms.eraseIdx i } : Device).db := rows
    exact before.shrink (shrinks_onReceive alarm.action _)
  | ticked time =>
    obtain ⟨later, rfl⟩ := Device.step_ticked.mp taken
    exact rows
  | started =>
    obtain rfl := Device.step_started.mp taken
    have same : (final (initAlarmWhenStartUp calendar) { db := d.db, alarms := d.alarms, now := d.now }).db = d.db :=
      keeps_initAlarmWhenStartUp (fun _ _ => rfl) (fun _ _ => rfl) _
    change ConvertibleRows (final (initAlarmWhenStartUp calendar) { db := d.db, alarms := d.alarms, now := d.now }).db
    rwa [same]

theorem leavesTables_of_converts {d : Device} {event : Event} (converts : ConvertsStored d event) :
    LeavesTables calendar resPath d event := by
  rintro kind message rfl ⟨add, startInterval, endInterval, starts, ends, wrong⟩ d' taken
  obtain ⟨running, rfl⟩ := Device.step_received.mp taken
  change (final (Receiver.receiveMessage calendar resPath kind message) d).db.times = d.db.times
  rw [Receiver.final_receiveMessage add, Receiver.db_intervalAdd, starts, ends]
  split
  next start stop files starts' ends' listed =>
    obtain rfl := Option.some.inj starts'
    obtain rfl := Option.some.inj ends'
    split
    next => rfl
    next right =>
      have none : reached files = [] := by
        by_contra some
        refine wrong (converts running add _ starts _ ends _ listed (by simpa using right) ?_)
        exact reached_ne_nil_iff.mp some
      rw [none]
      rfl
  next => rfl

/-- A row of an unconvertible time is a change of the tables. -/
theorem converts_of_leavesTables {d : Device} {event : Event} (leaves : LeavesTables calendar resPath d event) :
    ConvertsStored d event := by
  cases event with
  | received kind message =>
    intro running add startInterval starts endInterval ends files listed right first
    by_contra wrong
    have same := leaves kind message rfl ⟨add, startInterval, endInterval, starts, ends, wrong⟩ _
      (Device.step_received.mpr ⟨running, rfl⟩)
    change (final (Receiver.receiveMessage calendar resPath kind message) d).db.times = d.db.times at same
    rw [Receiver.final_receiveMessage add, Receiver.db_intervalAdd, Option.mem_def.mp starts, Option.mem_def.mp ends,
      Option.mem_def.mp listed] at same
    simp only [right, Bool.false_eq_true, if_false] at same
    have rows := congrFun same kind
    rw [FileListMgr.times_insertTimes, List.append_right_eq_self, List.map_eq_nil_iff, List.map_eq_nil_iff] at rows
    exact reached_ne_nil_iff.mpr first rows
  | downloadFinished kind fileName fullPath => trivial
  | created kind => trivial
  | delivered i => trivial
  | ticked time => trivial
  | started => trivial

/-- From empty tables and for every sequence of messages: every stored time is convertible, the
process can start whenever it has to, and an unconvertible message leaves the tables alone,
if and only if each message that stores a row has convertible times. -/
theorem startsUp_iff {d : Device} {events : List Event} :
    Throughout (Device.step calendar resPath) (StartsUp calendar) { d with db := {} } events ∧
        Steps (Device.step calendar resPath) (LeavesTables calendar resPath) { d with db := {} } events ↔
      Steps (Device.step calendar resPath) ConvertsStored { d with db := {} } events := by
  constructor
  · rintro ⟨-, leaves⟩
    exact leaves.imp fun _ _ => converts_of_leavesTables
  · intro converts
    refine ⟨?_, converts.imp fun _ _ => leavesTables_of_converts⟩
    have start : ConvertibleRows ({ d with db := {} } : Device).db := by
      intro kind row member
      cases member
    exact throughout_of_invariant (fun _ _ _ rows ok taken => convertible_step rows ok taken)
      (fun _ rows => startsUp_of_convertible rows) start converts

/-- It passes the guard on the times of an interval. -/
def letterTimes : Message where
  indexPath := "AdVideo/TimeInterval"
  startInterval := some (ofString "aa:bb:cc")
  endInterval := some (ofString "aa:bb:cc")
  files := some [some (ofString "a.mp4")]

/-- Its row is stored, and nothing converts the times at the next start. -/
theorem letterTimes_start_throws : ¬ Throughout (Device.step (.fixedOffset 28800) fun _ => ofString "/Camera")
    (StartsUp (.fixedOffset 28800)) { db := {}, now := 1470000000000 } [.received .video letterTimes] := by
  intro all
  have stored : Device.step (.fixedOffset 28800) (fun _ => ofString "/Camera") { db := {}, now := 1470000000000 }
      (.received .video letterTimes) = some _ := rfl
  have starts := all [.received .video letterTimes] [] rfl _ (by rw [run, stored]; rfl)
  have thrown : Except.error Thrown.numberFormatException = Except.ok _ :=
    (starts.converted .video _ List.mem_cons_self).1.choose_spec
  cases thrown

end AdTerminal.Schedule
