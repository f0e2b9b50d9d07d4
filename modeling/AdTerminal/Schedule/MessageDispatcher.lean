import AdTerminal.Schedule.Batches
import AdTerminal.Schedule.DailyAlarms

/-! The dispatcher finds the receiver of a path with or without a leading slash. The receivers compare
the path that they are handed with the paths of their commands, which have none. -/

namespace AdTerminal.Schedule
open Strategy JavaString Stateful Transition AlarmUtil

namespace MessageDispatcher

def startsWith (s start : String) : Bool := start.toList.isPrefixOf s.toList

/-- The registered keys, in the one or the other order of the hash map. -/
def keySet : (first : MediaKind) → List MediaKind
  | .video => [.video, .image]
  | .image => [.image, .video]

/-- The kind whose receiver is found, and nothing for `NOT_FOUND_RECEIVER`. -/
def getReceiver (first : MediaKind) (path : String) : Option MediaKind :=
  (keySet first).find? fun kind =>
    startsWith path (MessagePath.receiver kind) || startsWith path ("/" ++ MessagePath.receiver kind)

variable (calendar : Calendar) (resPath : MediaKind → JavaString)

/-- `dispatchMessage` of a message with that `INDEX`. -/
def dispatchMessage (first : MediaKind) (index : String) (message : Message) (s : Downloading) : Downloading :=
  match getReceiver first index with
  | none => s
  | some kind =>
    let message := { message with indexPath := index }
    { device := s.device.perform (Receiver.receiveMessage calendar resPath kind message)
      outstanding := Function.update s.outstanding kind (s.outstanding kind ++ requested kind message) }

end MessageDispatcher

/-- The branches of the receivers. -/
inductive Command where
  | download
  | delete
  | intervalAdd
  | intervalDelete
  | intervalClear
  deriving DecidableEq, Repr

namespace Command

def path (kind : MediaKind) : Command → String
  | download => MessagePath.download kind
  | delete => MessagePath.delete kind
  | intervalAdd => MessagePath.intervalAdd kind
  | intervalDelete => MessagePath.intervalDelete kind
  | intervalClear => MessagePath.intervalClear kind

def body (calendar : Calendar) (resPath : MediaKind → JavaString) (kind : MediaKind) (message : Message) :
    Command → Program Unit
  | download => Receiver.download kind message
  | delete => Receiver.delete calendar kind message
  | intervalAdd => Receiver.intervalAdd calendar resPath kind message
  | intervalDelete => Receiver.intervalDelete calendar kind message
  | intervalClear => Receiver.intervalClear calendar kind message

/-- The message asks something of the branch: it has the fields that are read, its times are admitted,
and the first element of its array, if there is one, is a string. An interval without files has an
alarm only. -/
def Asks (message : Message) : Command → Prop
  | download => ∃ file rest, message.files = some (some file :: rest)
  | delete => ∃ files, message.files = some files ∧ files.head? ≠ some none
  | intervalAdd => ∃ startInterval endInterval files, message.startInterval = some startInterval ∧
      message.endInterval = some endInterval ∧ message.files = some files ∧
        wrongTimes startInterval endInterval = false ∧ files.head? ≠ some none ∧
          (files = [] → Convertible startInterval)
  | intervalDelete => ∃ startInterval endInterval,
      message.interval = some (some startInterval, some endInterval) ∧ wrongTimes startInterval endInterval = false
  | intervalClear => message.flag = some true

theorem path_injective (kind : MediaKind) : Function.Injective (path kind) := by
  intro command other
  cases kind <;> cases command <;> cases other <;> decide

end Command

section
variable {calendar : Calendar} {resPath : MediaKind → JavaString} {kind : MediaKind} {message : Message} {d : Device}

/-- A message at the path of a command is handled by its branch. -/
theorem final_command {command : Command} (found : message.indexPath = command.path kind) :
    final (Receiver.receiveMessage calendar resPath kind message) d =
      final (command.body calendar resPath kind message)
        { d with mCtrl := Function.update d.mCtrl kind (d.lists kind).isSome } := by
  have branch : ∀ other : Command, message.indexPath = other.path kind ↔ command = other := by
    intro other
    rw [found, (Command.path_injective kind).eq_iff]
  have download : message.indexPath = MessagePath.download kind ↔ command = .download := branch .download
  have delete : message.indexPath = MessagePath.delete kind ↔ command = .delete := branch .delete
  have intervalAdd : message.indexPath = MessagePath.intervalAdd kind ↔ command = .intervalAdd := branch .intervalAdd
  have intervalDelete : message.indexPath = MessagePath.intervalDelete kind ↔ command = .intervalDelete :=
    branch .intervalDelete
  have intervalClear : message.indexPath = MessagePath.intervalClear kind ↔ command = .intervalClear :=
    branch .intervalClear
  unfold Receiver.receiveMessage
  simp only [download, delete, intervalAdd, intervalDelete, intervalClear]
  cases command with
  | download => exact final_catchJson _ _
  | delete => exact final_catchJson _ _
  | intervalAdd => exact final_catchJson _ _
  | intervalDelete => exact final_catchJson _ _
  | intervalClear => exact final_catchJson _ _

/-- At other paths only the controller is looked for. -/
theorem final_no_command (other : ∀ command : Command, message.indexPath ≠ command.path kind) :
    final (Receiver.receiveMessage calendar resPath kind message) d =
      { d with mCtrl := Function.update d.mCtrl kind (d.lists kind).isSome } := by
  have download : message.indexPath ≠ MessagePath.download kind := other .download
  have delete : message.indexPath ≠ MessagePath.delete kind := other .delete
  have intervalAdd : message.indexPath ≠ MessagePath.intervalAdd kind := other .intervalAdd
  have intervalDelete : message.indexPath ≠ MessagePath.intervalDelete kind := other .intervalDelete
  have intervalClear : message.indexPath ≠ MessagePath.intervalClear kind := other .intervalClear
  unfold Receiver.receiveMessage
  rw [if_neg download, if_neg delete, if_neg intervalAdd, if_neg intervalDelete, if_neg intervalClear]
  rfl

end

namespace MessageDispatcher

/-- A key is not the start of a path of the other kind. -/
theorem getReceiver_key (first kind : MediaKind) (suffix : String) :
    getReceiver first (MessagePath.receiver kind ++ suffix) = some kind := by
  cases first <;> cases kind <;> simp [getReceiver, keySet, startsWith, MessagePath.receiver]

theorem getReceiver_slash (first kind : MediaKind) (suffix : String) :
    getReceiver first ("/" ++ (MessagePath.receiver kind ++ suffix)) = some kind := by
  cases first <;> cases kind <;> simp [getReceiver, keySet, startsWith, MessagePath.receiver]

/-- No command has a leading slash. -/
theorem slash_ne_path (kind : MediaKind) (path : String) (command : Command) : "/" ++ path ≠ command.path kind := by
  intro same
  have first := congrArg (fun s : String => s.toList.head?) same
  revert first
  cases kind <;> cases command <;> simp <;> decide

/-- The tables, the alarms, the play lists and the downloads. -/
def effects (s : Downloading) :
    FileListMgr × List Alarm × (MediaKind → Option (List JavaString)) × (MediaKind → List JavaString) :=
  (s.device.db, s.device.alarms, s.device.lists, s.outstanding)

/-- Both spellings reach the same receiver and have the same effect, in every state. -/
def SpelledAlike (first : MediaKind) (path : String) (message : Message) : Prop :=
  getReceiver first ("/" ++ path) = getReceiver first path ∧ ∀ calendar resPath s,
    effects (dispatchMessage calendar resPath first ("/" ++ path) message s) =
      effects (dispatchMessage calendar resPath first path message s)

variable {calendar : Calendar} {resPath : MediaKind → JavaString} {first kind : MediaKind} {suffix : String}
  {message : Message} {s : Downloading}

/-- At a path that is no command nothing happens. -/
theorem effects_no_command {index : String} (key : getReceiver first index = some kind)
    (other : ∀ command : Command, index ≠ command.path kind) :
    effects (dispatchMessage calendar resPath first index message s) = effects s := by
  have nothing : requested kind { message with indexPath := index } = [] := if_neg (other .download)
  have idle := @final_no_command calendar resPath kind { message with indexPath := index } s.device other
  simp only [dispatchMessage, key, effects, Device.perform, nothing, idle, List.append_nil, Function.update_eq_self]

/-- At that of a command its branch is performed. -/
theorem effects_command {index : String} {command : Command} (key : getReceiver first index = some kind)
    (found : index = command.path kind) :
    effects (dispatchMessage calendar resPath first index message s) =
      effects
        { device := final (command.body calendar resPath kind message)
            { s.device with mCtrl := Function.update s.device.mCtrl kind (s.device.lists kind).isSome }
          outstanding := Function.update s.outstanding kind (s.outstanding kind ++
            requested kind { message with indexPath := index }) } := by
  have branch := @final_command calendar resPath kind { message with indexPath := index } s.device command found
  have same : command.body calendar resPath kind { message with indexPath := index } =
      command.body calendar resPath kind message := by
    cases command <;> rfl
  simp only [dispatchMessage, key, effects, Device.perform, branch, same]

end MessageDispatcher

/-- The tables, the alarms and the play lists. -/
def tablesAlarmsLists (d : Device) : FileListMgr × List Alarm × (MediaKind → Option (List JavaString)) :=
  (d.db, d.alarms, d.lists)

namespace Command

variable {calendar : Calendar} {resPath : MediaKind → JavaString} {kind : MediaKind} {message : Message} {d : Device}

/-- The loop of an array without strings at its beginning gets to none. -/
theorem files_of_not_asks {files : List (Option JavaString)} (none : ¬ ∃ file rest, files = some file :: rest) :
    reached files = [] := by
  rcases files with _ | ⟨_ | file, rest⟩
  · rfl
  · rfl
  · exact absurd ⟨file, rest, rfl⟩ none

/-- An interval without files only has its alarms set. -/
theorem final_intervalAdd_empty {startInterval endInterval : JavaString}
    (starts : message.startInterval = some startInterval) (ends : message.endInterval = some endInterval)
    (empty : message.files = some []) (right : wrongTimes startInterval endInterval = false) :
    final (Receiver.intervalAdd calendar resPath kind message) d =
      final (Receiver.setAlarms calendar kind startInterval endInterval) d := by
  unfold Receiver.intervalAdd
  simp only [starts, ends, empty, orThrow, pure_bind, right, Bool.false_eq_true, if_false]
  rfl

/-- That fails at once where the first time cannot be converted. -/
theorem final_setAlarms_unconvertible {startInterval endInterval : JavaString}
    (unconvertible : ¬ Convertible startInterval) :
    final (Receiver.setAlarms calendar kind startInterval endInterval) d = d := by
  cases converted : convertAlarmUpTime calendar d.now startInterval with
  | error e =>
    have throws : (alarmUpTime calendar startInterval).run d = .error e d := by rw [run_alarmUpTime, converted]
    unfold Receiver.setAlarms setChangeTimeBroadcast
    rw [bind_assoc]
    exact final_bind_error throws
  | ok millis => exact absurd (convertAlarmUpTime_ok_iff.mp ⟨millis, converted⟩) unconvertible

/-- A message that asks nothing has no effect. -/
theorem kept_of_not_asks {command : Command} (nothing : ¬ command.Asks message) :
    tablesAlarmsLists (final (command.body calendar resPath kind message) d) = tablesAlarmsLists d := by
  cases command with
  | download =>
    have kept : Keeps tablesAlarmsLists (Receiver.download kind message) :=
      .bind (.orThrow _ _) fun _ => .modify fun _ => rfl
    exact kept d
  | delete =>
    change tablesAlarmsLists (final (Receiver.delete calendar kind message) d) = _
    unfold Receiver.delete
    rcases listed : message.files with _ | _ | ⟨_ | file, rest⟩
    · rfl
    · exact absurd ⟨[], listed, by simp⟩ nothing
    · rfl
    · exact absurd ⟨_, listed, by simp⟩ nothing
  | intervalAdd =>
    change tablesAlarmsLists (final (Receiver.intervalAdd calendar resPath kind message) d) = _
    rcases Receiver.intervalAdd_cases kind message d with
      same | ⟨start, stop, files, starts, ends, listed, right, first⟩
    · rw [same]
    · rcases files with _ | ⟨file, rest⟩
      · rw [final_intervalAdd_empty starts ends listed right, final_setAlarms_unconvertible]
        intro convertible
        exact nothing ⟨start, stop, [], starts, ends, listed, right, first, fun _ => convertible⟩
      · exact absurd ⟨start, stop, _, starts, ends, listed, right, first, fun empty => by cases empty⟩ nothing
  | intervalDelete =>
    change tablesAlarmsLists (final (Receiver.intervalDelete calendar kind message) d) = _
    unfold Receiver.intervalDelete
    rcases given : message.interval with _ | ⟨_ | start, _ | stop⟩
    · rfl
    · rfl
    · rfl
    · rfl
    · have wrong : wrongTimes start stop = true := by
        rw [← Bool.not_eq_false]
        exact fun right => nothing ⟨start, stop, given, right⟩
      simp only [orThrow, pure_bind, if_pos wrong]
      rfl
  | intervalClear =>
    change tablesAlarmsLists (final (Receiver.intervalClear calendar kind message) d) = _
    unfold Receiver.intervalClear
    rcases given : message.flag with _ | _ | _
    · rfl
    · rfl
    · exact absurd given nothing

/-- No call takes the last alarm away. -/
theorem alarms_setChangeTimeBroadcast (time : JavaString) (isStart : Bool) :
    Preserves (fun d => d.alarms ≠ []) (setChangeTimeBroadcast calendar kind time isStart) := by
  have code : Preserves (fun d : Device => d.alarms ≠ []) getOneVideoRequestCode :=
    .bind (.modify fun _ => id) fun _ => .bind .get fun _ => .pure _
  refine .bind (keeps_alarmUpTime time).preserves fun _ => .bind .get fun _ => .ite (fun _ => .pure _) fun _ => ?_
  refine .bind code fun _ => .modify fun d _ => ?_
  exact List.append_ne_nil_of_right_ne_nil _ (List.cons_ne_nil _ _)

/-- A calendar in which each time is later than the beginning. -/
def laterCalendar : Calendar where
  timeOfDay := (Calendar.fixedOffset 0).timeOfDay
  toMillis _ _ _ _ := 1000

theorem alarms_setAlarms {startInterval endInterval : JavaString} (convertible : Convertible startInterval)
    (start : d.now = 0) : (final (Receiver.setAlarms laterCalendar kind startInterval endInterval) d).alarms ≠ [] := by
  obtain ⟨hms, reads⟩ := convertible
  have found : convertAlarmUpTime laterCalendar d.now startInterval = .ok 1000 := by
    rw [convertAlarmUpTime, reads]
    rfl
  have later : d.now + margin kind < 1000 := by
    rw [start]
    cases kind <;> decide
  have first := @run_setBoundary laterCalendar d ⟨kind, true, startInterval⟩ 1000 found later
  have rest : Preserves (fun d => d.alarms ≠ []) (do
      setChangeTimeBroadcast laterCalendar kind endInterval false
      updateMedia laterCalendar kind fun db now =>
        AdCtrl.updateWhenIntervalAddOrEdit db kind now startInterval endInterval) :=
    .bind (alarms_setChangeTimeBroadcast _ _) fun _ => .modify fun _ => id
  change (setChangeTimeBroadcast laterCalendar kind startInterval true).run d = _ at first
  unfold Receiver.setAlarms
  rw [final_bind_ok first]
  exact rest _ (List.append_ne_nil_of_right_ne_nil _ (List.cons_ne_nil _ _))

/-- The database of one file and one interval. -/
def oneOfEach (fileName startTime endTime : JavaString) : FileListMgr where
  files _ := [{ fileName, fullPath := [] }]
  times _ := [{ startTime, endTime, fileName, fullPath := [] }]

theorem changed_of_db {prog : Program Unit} (changed : (final prog d).db ≠ d.db) :
    tablesAlarmsLists (final prog d) ≠ tablesAlarmsLists d :=
  fun same => changed (congrArg Prod.fst same)

/-- What a message asks of a command has an effect in some state. -/
theorem changed_of_asks {command : Command} (asks : command.Asks message) (other : command ≠ .download) :
    ∃ calendar resPath, ∃ d : Device, d.mCtrl kind = (d.lists kind).isSome ∧
      tablesAlarmsLists (final (command.body calendar resPath kind message) d) ≠ tablesAlarmsLists d := by
  refine ⟨laterCalendar, fun _ => [], ?_⟩
  cases command with
  | download => exact absurd rfl other
  | delete =>
    obtain ⟨files, listed, first⟩ := asks
    rcases files with _ | ⟨_ | file, rest⟩
    · -- no file is named, but the list of all files is loaded in place of another one
      refine ⟨{ now := 0, lists := fun _ => some [[]], mCtrl := fun _ => true }, rfl, fun same => ?_⟩
      have lists := congrFun (congrArg (fun parts => parts.2.2) same) kind
      simp only [tablesAlarmsLists, body, Receiver.delete, listed] at lists
      have loaded : some (AdCtrl.updateWhenFileDelete {} kind (getCurrentTime (laterCalendar.timeOfDay 0))) =
          some [[]] := (Function.update_self kind _ _).symm.trans lists
      cases Option.some.inj loaded
    · exact absurd rfl first
    · refine ⟨{ now := 0, db := oneOfEach file [] [] }, rfl, changed_of_db fun same => ?_⟩
      change (final (Receiver.delete laterCalendar kind message) _).db = oneOfEach file [] [] at same
      rw [Receiver.db_delete, listed, FileListMgr.deleteFiles_eq] at same
      have rows := congrFun (congrArg FileListMgr.files same) kind
      simp [oneOfEach, reached] at rows
  | intervalAdd =>
    obtain ⟨start, stop, files, starts, ends, listed, right, first, convertible⟩ := asks
    refine ⟨{ now := 0 }, rfl, ?_⟩
    change tablesAlarmsLists (final (Receiver.intervalAdd laterCalendar (fun _ => []) kind message) _) ≠ _
    rcases files with _ | ⟨file, rest⟩
    · rw [final_intervalAdd_empty starts ends listed right]
      intro same
      exact alarms_setAlarms (convertible rfl) rfl (congrArg (fun parts => parts.2.1) same)
    · refine changed_of_db fun same => ?_
      rw [Receiver.db_intervalAdd, starts, ends, listed] at same
      simp only [right, Bool.false_eq_true, if_false] at same
      have rows := congrFun (congrArg FileListMgr.times same) kind
      rw [FileListMgr.times_insertTimes, List.append_right_eq_self, List.map_eq_nil_iff, List.map_eq_nil_iff] at rows
      cases file with
      | none => exact first rfl
      | some fileName => exact reached_ne_nil_iff.mpr rfl rows
  | intervalDelete =>
    obtain ⟨start, stop, given, right⟩ := asks
    refine ⟨{ now := 0, db := oneOfEach [] start stop }, rfl, changed_of_db fun same => ?_⟩
    change (final (Receiver.intervalDelete laterCalendar kind message) _).db = oneOfEach [] start stop at same
    rw [Receiver.db_intervalDelete, FileListMgr.intervalDeleted, given] at same
    have rows := congrFun (congrArg FileListMgr.times same) kind
    simp [right, FileListMgr.deleteTime, oneOfEach] at rows
  | intervalClear =>
    refine ⟨{ now := 0, db := oneOfEach [] [] [] }, rfl, changed_of_db fun same => ?_⟩
    change (final (Receiver.intervalClear laterCalendar kind message) _).db = oneOfEach [] [] [] at same
    rw [Receiver.db_intervalClear, if_pos (show message.flag = some true from asks)] at same
    have rows := congrFun (congrArg FileListMgr.times same) kind
    simp [FileListMgr.clearTimeInterval, oneOfEach] at rows

theorem requested_of_not_asks {command : Command} (nothing : ¬ command.Asks message)
    (found : message.indexPath = command.path kind) : requested kind message = [] := by
  unfold requested
  split
  next download =>
    obtain rfl : command = .download := path_injective kind (found.symm.trans download)
    cases listed : message.files with
    | none => rfl
    | some files =>
      apply files_of_not_asks
      rintro ⟨file, rest, rfl⟩
      exact nothing ⟨file, rest, listed⟩
  next => rfl

end Command

namespace MessageDispatcher

variable {calendar : Calendar} {resPath : MediaKind → JavaString} {first kind : MediaKind} {message : Message}
  {s : Downloading}

/-- A message that asks nothing of the command at its path has no effect there. -/
theorem effects_nothing {index : String} {command : Command} (key : getReceiver first index = some kind)
    (found : index = command.path kind) (nothing : ¬ command.Asks message) :
    effects (dispatchMessage calendar resPath first index message s) = effects s := by
  have none : requested kind { message with indexPath := index } = [] :=
    Command.requested_of_not_asks (fun asks => nothing (by cases command <;> exact asks)) found
  have kept := @Command.kept_of_not_asks calendar resPath kind message
    { s.device with mCtrl := Function.update s.device.mCtrl kind (s.device.lists kind).isSome } command nothing
  rw [effects_command key found, none, List.append_nil, Function.update_eq_self]
  simp only [tablesAlarmsLists, Prod.mk.injEq] at kept
  simp only [effects, kept]

/-- One that asks something has an effect, in some state. -/
theorem exists_effects {index : String} {command : Command} (key : getReceiver first index = some kind)
    (found : index = command.path kind) (asks : command.Asks message) :
    ∃ calendar resPath s, effects (dispatchMessage calendar resPath first index message s) ≠ effects s := by
  by_cases download : command = .download
  · subst download
    obtain ⟨file, rest, listed⟩ := asks
    refine ⟨.fixedOffset 0, fun _ => [], { device := { now := 0 } }, fun same => ?_⟩
    rw [effects_command key found] at same
    have urls := congrFun (congrArg (fun parts => parts.2.2.2) same) kind
    simp only [effects, requested, Function.update_self, List.nil_append] at urls
    rw [if_pos (show index = MessagePath.download kind from found), listed] at urls
    exact reached_ne_nil_iff.mpr rfl urls
  · obtain ⟨calendar, resPath, d, known, changed⟩ := @Command.changed_of_asks kind message command asks download
    refine ⟨calendar, resPath, { device := d }, fun same => changed ?_⟩
    rw [effects_command key found, ← known, Function.update_eq_self] at same
    simp only [effects, Prod.mk.injEq] at same
    simp only [tablesAlarmsLists, same]

/-- For every path that starts with a registered key, every message and either order of the keys:
both spellings reach the same receiver, and they have the same effect in all states exactly if the
path is no command of the receiver or the message asks nothing of it. -/
theorem spelledAlike_iff (first kind : MediaKind) (suffix : String) (message : Message) :
    SpelledAlike first (MessagePath.receiver kind ++ suffix) message ↔
      ∀ command : Command, MessagePath.receiver kind ++ suffix = command.path kind → ¬ command.Asks message := by
  have key := getReceiver_key first kind suffix
  have slash := getReceiver_slash first kind suffix
  have idle : ∀ calendar resPath s, effects (dispatchMessage calendar resPath first
      ("/" ++ (MessagePath.receiver kind ++ suffix)) message s) = effects s :=
    fun _ _ _ => effects_no_command slash (slash_ne_path kind _)
  constructor
  · rintro ⟨-, alike⟩ command found asks
    obtain ⟨calendar, resPath, s, changed⟩ := exists_effects key found asks
    exact changed ((alike calendar resPath s).symm.trans (idle calendar resPath s))
  · intro nothing
    refine ⟨slash.trans key.symm, fun calendar resPath s => (idle calendar resPath s).trans ?_⟩
    by_cases found : ∃ command : Command, MessagePath.receiver kind ++ suffix = command.path kind
    · obtain ⟨command, found⟩ := found
      exact (effects_nothing key found (nothing command found)).symm
    · exact (effects_no_command key (not_exists.mp found)).symm

def clearVideos : Message where
  indexPath := "AdVideo/IntervalClear"
  flag := some true

/-- With a leading slash the message reaches the receiver, and clears nothing. -/
theorem slash_clears_nothing : ¬ SpelledAlike .video "AdVideo/IntervalClear" clearVideos := by
  rintro ⟨-, alike⟩
  have same := alike (.fixedOffset 28800) (fun _ => ofString "/Camera")
    { device := { now := 0, db := Command.oneOfEach (ofString "a.mp4") (ofString "08:00:00") (ofString "09:00:00") } }
  have rows := congrArg (fun parts => (parts.1.times .video).length) same
  revert rows
  decide +kernel

end MessageDispatcher

end AdTerminal.Schedule
