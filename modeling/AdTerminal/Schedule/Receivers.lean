import AdTerminal.Schedule.AlarmUtil
import Mathlib.Data.List.ReduceOption

/-! The messages of `VideoDownloadReceiver` and `ImageDownloadReceiver` and the deliveries to
`TimerAlarmReceiver`. A message that adds an interval stores its rows first and sets the
alarms of its times after that; only the exceptions of the JSON getters are caught. -/

namespace AdTerminal.Schedule
open Strategy JavaString Stateful Transition

/-- What the receivers read of a message, nothing where the getter throws: the two times, and
the parameter as an array of strings, as an object with two times and as a boolean. An array
may have elements that are no string. -/
structure Message where
  indexPath : String
  startInterval : Option JavaString := none
  endInterval : Option JavaString := none
  files : Option (List (Option JavaString)) := none
  interval : Option (Option JavaString × Option JavaString) := none
  flag : Option Bool := none

namespace MessagePath

/-- `PREFIX` of the two receivers. -/
def receiver : MediaKind → String
  | .video => "AdVideo"
  | .image => "AdImage"

def download (kind : MediaKind) : String := receiver kind ++ "/Download"
def delete (kind : MediaKind) : String := receiver kind ++ "/Delete"
def intervalAdd (kind : MediaKind) : String := receiver kind ++ "/TimeInterval"
def intervalDelete (kind : MediaKind) : String := receiver kind ++ "/IntervalDelete"
def intervalClear (kind : MediaKind) : String := receiver kind ++ "/IntervalClear"

end MessagePath

/-- The times an interval message is turned away for, with a comment on replying to the
server that they are wrong. -/
def wrongTimes (startInterval endInterval : JavaString) : Bool :=
  decide (startInterval.length ≠ 8 ∨ endInterval.length ≠ 8 ∨ compareTo endInterval startInterval < 0)

/-- `JSONException`s are printed, others are passed on. -/
def catchJson (body : Program Unit) : Program Unit :=
  tryCatch body fun e => if e = .jsonException then pure () else throw e

variable (calendar : Calendar) (resPath : MediaKind → JavaString)

/-- A controller, if there is one, takes the list of its update method. -/
def updateMedia (kind : MediaKind) (method : FileListMgr → JavaString → List JavaString → List JavaString) :
    Program Unit :=
  modify fun d => { d with
    lists := Function.update d.lists kind
      ((d.lists kind).map (method d.db (getCurrentTime (calendar.timeOfDay d.now)))) }

namespace Receiver

/-- The files of a download message are left to the download service. -/
def download (kind : MediaKind) (message : Message) : Program Unit := do
  let files ← orThrow .jsonException message.files
  modify fun d => { d with mDownloadTaskNum := Function.update d.mDownloadTaskNum kind files.length }

def delete (kind : MediaKind) (message : Message) : Program Unit := do
  let files ← orThrow .jsonException message.files
  files.forM fun file => do
    let fileName ← orThrow .jsonException file
    modify fun d => { d with db := d.db.deleteFile kind fileName }
  updateMedia calendar kind fun db now _ => AdCtrl.updateWhenFileDelete db kind now

/-- The loop over the files of a new interval. -/
def insertTimes (kind : MediaKind) (startInterval endInterval : JavaString) (files : List (Option JavaString)) :
    Program Unit :=
  files.forM fun file => do
    let fileName ← orThrow .jsonException file
    let filePath := resPath kind ++ ofString "/" ++ fileName
    modify fun d => { d with db := d.db.insertTime kind startInterval endInterval fileName filePath }

/-- What follows once the rows are stored. -/
def setAlarms (kind : MediaKind) (startInterval endInterval : JavaString) : Program Unit := do
  AlarmUtil.setChangeTimeBroadcast calendar kind startInterval true
  AlarmUtil.setChangeTimeBroadcast calendar kind endInterval false
  updateMedia calendar kind fun db now =>
    AdCtrl.updateWhenIntervalAddOrEdit db kind now startInterval endInterval

def intervalAdd (kind : MediaKind) (message : Message) : Program Unit := do
  let startInterval ← orThrow .jsonException message.startInterval
  let endInterval ← orThrow .jsonException message.endInterval
  let files ← orThrow .jsonException message.files
  if wrongTimes startInterval endInterval then
    pure ()
  else
    insertTimes resPath kind startInterval endInterval files
    setAlarms calendar kind startInterval endInterval

def intervalDelete (kind : MediaKind) (message : Message) : Program Unit := do
  let jsonObject ← orThrow .jsonException message.interval
  let startInterval ← orThrow .jsonException jsonObject.1
  let endInterval ← orThrow .jsonException jsonObject.2
  if wrongTimes startInterval endInterval then
    pure ()
  else
    modify fun d => { d with db := d.db.deleteTime kind startInterval endInterval }
    updateMedia calendar kind fun db now => AdCtrl.updateWhenIntervalDelete db kind now startInterval endInterval

def intervalClear (kind : MediaKind) (message : Message) : Program Unit := do
  let flag ← orThrow .jsonException message.flag
  if flag then
    modify fun d => { d with db := d.db.clearTimeInterval kind }
    updateMedia calendar kind fun db now => AdCtrl.updateWhenStrategyChanged db kind now

/-- `receiveMessage` of the receiver of a kind. -/
def receiveMessage (kind : MediaKind) (message : Message) : Program Unit := do
  modify fun d => { d with mCtrl := Function.update d.mCtrl kind (d.lists kind).isSome }
  if message.indexPath = MessagePath.download kind then catchJson (download kind message)
  else if message.indexPath = MessagePath.delete kind then catchJson (delete calendar kind message)
  else if message.indexPath = MessagePath.intervalAdd kind then catchJson (intervalAdd calendar resPath kind message)
  else if message.indexPath = MessagePath.intervalDelete kind then catchJson (intervalDelete calendar kind message)
  else if message.indexPath = MessagePath.intervalClear kind then catchJson (intervalClear calendar kind message)

def videoReceiveMessage := receiveMessage calendar resPath .video
def imageReceiveMessage := receiveMessage calendar resPath .image

/-- `onDownloadFinished` of the receivers. That of the images counts differently, and does
not look whether there is a controller. -/
def onDownloadFinished (kind : MediaKind) (fileName fullPath : JavaString) : Program Unit := do
  modify fun d => { d with
    db := d.db.insertFile kind fileName fullPath
    mFinishedTaskNum := Function.update d.mFinishedTaskNum kind (d.mFinishedTaskNum kind + 1) }
  let d ← get
  let finished := match kind with
    | .video => decide (d.mFinishedTaskNum kind = d.mDownloadTaskNum kind)
    | .image => decide (d.mDownloadTaskNum kind ≤ d.mFinishedTaskNum kind)
  if finished then
    if d.mCtrl kind then
      updateMedia calendar kind fun db now => AdCtrl.updateWhenStrategyChanged db kind now
    else if kind = .image then throw .nullPointerException
    modify fun d => { d with
      mFinishedTaskNum := Function.update d.mFinishedTaskNum kind 0
      mDownloadTaskNum := Function.update d.mDownloadTaskNum kind 0 }

end Receiver

/-- `TimerAlarmReceiver.onReceive`: only the alarms of intervals do anything, and they need a
controller. -/
def onReceive : Action → Program Unit
  | .intervalStart kind => do
    if ((← get).lists kind).isSome then
      updateMedia calendar kind fun db now _ => AdCtrl.updateWhenAlarmUp db kind now true
    else throw .nullPointerException
  | .intervalEnd kind => do
    if ((← get).lists kind).isSome then
      updateMedia calendar kind fun db now _ => AdCtrl.updateWhenAlarmUp db kind now false
    else throw .nullPointerException
  | .systemVoiceOn => pure ()
  | .systemVoiceOff => pure ()
  | .systemRestart => pure ()

inductive Event where
  | received (kind : MediaKind) (message : Message)
  | downloadFinished (kind : MediaKind) (fileName fullPath : JavaString)
  /-- A controller is created. -/
  | created (kind : MediaKind)
  /-- The `i`-th pending alarm is due and delivered. -/
  | delivered (i : Nat)
  | ticked (time : Int)
  /-- The process starts, again or for the first time. -/
  | started

namespace Device

/-- An exception that the main thread does not catch ends the process. -/
def perform (d : Device) (prog : Program Unit) : Device := { final prog d with thrown := Stateful.thrown prog d }

/-- `Application.onCreate` in a new process. -/
def onCreate (d : Device) : Device :=
  { db := d.db, alarms := d.alarms, now := d.now : Device }.perform (AlarmUtil.initAlarmWhenStartUp calendar)

def step (d : Device) : Event → Option Device
  | .received kind message =>
    if d.thrown = none then some (d.perform (Receiver.receiveMessage calendar resPath kind message)) else none
  | .downloadFinished kind fileName fullPath =>
    if d.thrown = none then some (d.perform (Receiver.onDownloadFinished calendar kind fileName fullPath)) else none
  | .created kind =>
    if d.thrown = none ∧ d.lists kind = none then
      let list := AdCtrl.getListWhenStartUp d.db kind (getCurrentTime (calendar.timeOfDay d.now))
      some { d with lists := Function.update d.lists kind (some list) }
    else none
  | .delivered i => do
    let alarm ← d.alarms[i]?
    if d.thrown = none ∧ alarm.time ≤ d.now then
      some ({ d with alarms := d.alarms.eraseIdx i }.perform (onReceive calendar alarm.action))
    else none
  | .ticked time => if d.now < time then some { d with now := time } else none
  | .started => some (d.onCreate calendar)

section
variable {calendar resPath} {d d' : Device}

@[simp] theorem step_received {kind : MediaKind} {message : Message} :
    d.step calendar resPath (.received kind message) = some d' ↔
      d.thrown = none ∧ d.perform (Receiver.receiveMessage calendar resPath kind message) = d' := by
  simp [step, Option.ite_none_right_eq_some]

@[simp] theorem step_downloadFinished {kind : MediaKind} {fileName fullPath : JavaString} :
    d.step calendar resPath (.downloadFinished kind fileName fullPath) = some d' ↔
      d.thrown = none ∧ d.perform (Receiver.onDownloadFinished calendar kind fileName fullPath) = d' := by
  simp [step, Option.ite_none_right_eq_some]

theorem step_created {kind : MediaKind} (taken : d.step calendar resPath (.created kind) = some d') :
    ∃ lists, d' = { d with lists } := by
  simp only [step, Option.ite_none_right_eq_some, Option.some.injEq] at taken
  exact ⟨_, taken.2.symm⟩

theorem step_delivered {i : Nat} (taken : d.step calendar resPath (.delivered i) = some d') :
    ∃ alarm, d.alarms[i]? = some alarm ∧ d.thrown = none ∧ alarm.time ≤ d.now ∧
      d' = { d with alarms := d.alarms.eraseIdx i }.perform (onReceive calendar alarm.action) := by
  obtain ⟨alarm, pending, taken⟩ := Option.bind_eq_some_iff.mp taken
  simp only [Option.ite_none_right_eq_some, Option.some.injEq] at taken
  exact ⟨alarm, pending, taken.1.1, taken.1.2, taken.2.symm⟩

@[simp] theorem step_ticked {time : Int} :
    d.step calendar resPath (.ticked time) = some d' ↔ d.now < time ∧ { d with now := time } = d' := by
  simp [step, Option.ite_none_right_eq_some]

@[simp] theorem step_started : d.step calendar resPath .started = some d' ↔ d.onCreate calendar = d' := by
  simp [step]

end

end Device

section
variable {calendar} {β : Type} {part : Device → β}

theorem keeps_updateMedia (lists : ∀ (d : Device) list, part { d with lists := list } = part d)
    (kind : MediaKind) (method : FileListMgr → JavaString → List JavaString → List JavaString) :
    Keeps part (updateMedia calendar kind method) :=
  .modify fun d => lists d _

theorem final_catchJson (body : Program Unit) (d : Device) : final (catchJson body) d = final body d := by
  apply final_tryCatch
  intro e
  split
  · exact .pure _
  · exact .throw e

end

/-- The names a loop over an array of strings gets to. -/
def reached (files : List (Option JavaString)) : List JavaString :=
  (files.takeWhile Option.isSome).reduceOption

theorem reached_ne_nil_iff {files : List (Option JavaString)} : reached files ≠ [] ↔ files.head?.join.isSome := by
  cases files with
  | nil => simp [reached]
  | cons file rest =>
    cases file with
    | none => simp [reached]
    | some fileName => simp [reached]

namespace Receiver

section
variable {calendar resPath} {kind : MediaKind} {message : Message} {d : Device}

theorem keeps_setAlarms (kind : MediaKind) (startInterval endInterval : JavaString) :
    Keeps Device.db (setAlarms calendar kind startInterval endInterval) := by
  refine .bind (AlarmUtil.keeps_setChangeTimeBroadcast (fun _ _ => rfl) (fun _ _ => rfl) _ _ _) fun _ => ?_
  refine .bind (AlarmUtil.keeps_setChangeTimeBroadcast (fun _ _ => rfl) (fun _ _ => rfl) _ _ _) fun _ => ?_
  exact keeps_updateMedia (fun _ _ => rfl) _ _

theorem db_insertTimes (kind : MediaKind) (startInterval endInterval : JavaString) (files : List (Option JavaString))
    (d : Device) : (final (insertTimes resPath kind startInterval endInterval files) d).db =
      d.db.insertTimes kind startInterval endInterval
        ((reached files).map fun fileName => (fileName, resPath kind ++ ofString "/" ++ fileName)) := by
  induction files generalizing d with
  | nil => rfl
  | cons file rest ih =>
    cases file with
    | none => rfl
    | some fileName => exact ih _

theorem db_intervalAdd (kind : MediaKind) (message : Message) (d : Device) :
    (final (intervalAdd calendar resPath kind message) d).db =
      match message.startInterval, message.endInterval, message.files with
      | some startInterval, some endInterval, some files =>
        if wrongTimes startInterval endInterval then d.db
        else d.db.insertTimes kind startInterval endInterval
          ((reached files).map fun fileName => (fileName, resPath kind ++ ofString "/" ++ fileName))
      | _, _, _ => d.db := by
  unfold intervalAdd
  cases message.startInterval with
  | none => rfl
  | some startInterval =>
    cases message.endInterval with
    | none => rfl
    | some endInterval =>
      cases message.files with
      | none => rfl
      | some files =>
        change (final (if wrongTimes startInterval endInterval then pure () else _) d).db = _
        by_cases wrong : wrongTimes startInterval endInterval = true
        · simp only [if_pos wrong]
          rfl
        · simp only [if_neg wrong]
          rw [part_final_bind fun _ => keeps_setAlarms _ _ _, db_insertTimes]

/-- A message to add an interval is turned away or fails before its first row, or names its
times and files and passes the guard. -/
theorem intervalAdd_cases (kind : MediaKind) (message : Message) (d : Device) :
    final (intervalAdd calendar resPath kind message) d = d ∨ ∃ startInterval endInterval files,
      message.startInterval = some startInterval ∧ message.endInterval = some endInterval ∧
        message.files = some files ∧ wrongTimes startInterval endInterval = false ∧ files.head? ≠ some none := by
  unfold intervalAdd
  cases starts : message.startInterval with
  | none => exact Or.inl rfl
  | some startInterval =>
    cases ends : message.endInterval with
    | none => exact Or.inl rfl
    | some endInterval =>
      cases listed : message.files with
      | none => exact Or.inl rfl
      | some files =>
        cases wrong : wrongTimes startInterval endInterval with
        | true =>
          simp only [orThrow, pure_bind, wrong, if_true]
          exact Or.inl rfl
        | false =>
          by_cases first : files.head? = some none
          · obtain ⟨rest, rfl⟩ := List.head?_eq_some_iff.mp first
            simp only [orThrow, pure_bind, wrong, Bool.false_eq_true, if_false]
            exact Or.inl rfl
          · exact Or.inr ⟨startInterval, endInterval, files, rfl, rfl, rfl, wrong, first⟩

/-- A message to add an interval is handled by that branch. -/
theorem final_receiveMessage (add : message.indexPath = MessagePath.intervalAdd kind) :
    final (receiveMessage calendar resPath kind message) d = final (intervalAdd calendar resPath kind message)
      { d with mCtrl := Function.update d.mCtrl kind (d.lists kind).isSome } := by
  have download : message.indexPath ≠ MessagePath.download kind := by
    rw [add]
    cases kind <;> decide
  have delete : message.indexPath ≠ MessagePath.delete kind := by
    rw [add]
    cases kind <;> decide
  unfold receiveMessage
  rw [if_neg download, if_neg delete, if_pos add]
  exact final_catchJson _ _

end

end Receiver

/-- Rows are taken away at most, no alarm is set, and no time passes. -/
def Shrinks (d d' : Device) : Prop :=
  (∀ kind, d'.db.times kind ⊆ d.db.times kind) ∧ d'.alarms = d.alarms ∧ d'.now = d.now

instance shrinksPreorder : IsPreorder Device Shrinks where
  refl _ := ⟨fun _ => List.Subset.refl _, rfl, rfl⟩
  trans _ _ _ first second :=
    ⟨fun kind => List.Subset.trans (second.1 kind) (first.1 kind), second.2.1.trans first.2.1,
      second.2.2.trans first.2.2⟩

/-- Deleting from one table takes rows away. -/
theorem shrinks_update {d : Device} {kind : MediaKind} {files : MediaKind → List FileRow} {fewer : List TimeRow}
    (subset : fewer ⊆ d.db.times kind) :
    Shrinks d { d with db := { files, times := Function.update d.db.times kind fewer } } := by
  refine ⟨fun other => ?_, rfl, rfl⟩
  by_cases same : other = kind
  · subst same
    simpa using subset
  · simp [Function.update_of_ne same]

section
variable {calendar resPath} {kind : MediaKind}

theorem shrinks_updateMedia (method : FileListMgr → JavaString → List JavaString → List JavaString) :
    Within Shrinks (updateMedia calendar kind method) :=
  .modify fun _ => ⟨fun _ => List.Subset.refl _, rfl, rfl⟩

/-- An alarm changes the play lists only. -/
theorem shrinks_onReceive (action : Action) : Within Shrinks (onReceive calendar action) := by
  cases action with
  | intervalStart kind =>
    exact .bind .get fun _ => .ite (fun _ => shrinks_updateMedia _) fun _ => .throw _
  | intervalEnd kind =>
    exact .bind .get fun _ => .ite (fun _ => shrinks_updateMedia _) fun _ => .throw _
  | systemVoiceOn => exact .pure _
  | systemVoiceOff => exact .pure _
  | systemRestart => exact .pure _

theorem shrinks_catchJson {body : Program Unit} (shrinks : Within Shrinks body) : Within Shrinks (catchJson body) := by
  intro d
  rw [final_catchJson]
  exact shrinks d

/-- All messages but the one that adds an interval. -/
theorem shrinks_receiveMessage {message : Message} (other : message.indexPath ≠ MessagePath.intervalAdd kind) :
    Within Shrinks (Receiver.receiveMessage calendar resPath kind message) := by
  refine .bind (.modify fun _ => ⟨fun _ => List.Subset.refl _, rfl, rfl⟩) fun _ => ?_
  refine .ite (fun _ => shrinks_catchJson ?_) fun _ => .ite (fun _ => shrinks_catchJson ?_) fun _ =>
    .ite (fun add => absurd add other) fun _ => .ite (fun _ => shrinks_catchJson ?_) fun _ =>
      .ite (fun _ => shrinks_catchJson ?_) fun _ => .pure _
  · exact .bind (.orThrow _ _) fun _ => .modify fun _ => ⟨fun _ => List.Subset.refl _, rfl, rfl⟩
  · refine .bind (.orThrow _ _) fun files => .bind (.forM (fun file => ?_) files) fun _ => shrinks_updateMedia _
    exact .bind (.orThrow _ _) fun _ => .modify fun _ => shrinks_update (List.filter_subset_self _)
  · refine .bind (.orThrow _ _) fun _ => .bind (.orThrow _ _) fun _ => .bind (.orThrow _ _) fun _ => ?_
    refine .ite (fun _ => .pure _) fun _ => .bind (.modify fun _ => ?_) fun _ => shrinks_updateMedia _
    exact shrinks_update (List.filter_subset_self _)
  · refine .bind (.orThrow _ _) fun _ => .ite (fun _ => ?_) fun _ => .pure _
    exact .bind (.modify fun _ => shrinks_update (List.nil_subset _)) fun _ => shrinks_updateMedia _

/-- A finished download adds a file, no interval. -/
theorem shrinks_onDownloadFinished (fileName fullPath : JavaString) :
    Within Shrinks (Receiver.onDownloadFinished calendar kind fileName fullPath) := by
  have frame : ∀ {f : Device → Device},
      (∀ d, (f d).db.times = d.db.times ∧ (f d).alarms = d.alarms ∧ (f d).now = d.now) →
      Within Shrinks (modify f : Program Unit) := by
    intro f same d
    obtain ⟨times, alarms, now⟩ := same d
    exact ⟨fun kind => by simp [final, times], alarms, now⟩
  refine .bind (frame fun _ => ⟨rfl, rfl, rfl⟩) fun _ => .bind .get fun _ => .ite (fun _ => ?_) fun _ => .pure _
  refine .ite (fun _ => .bind (shrinks_updateMedia _) fun _ => frame fun _ => ⟨rfl, rfl, rfl⟩) fun _ => ?_
  refine .ite (fun _ => ?_) fun _ => frame fun _ => ⟨rfl, rfl, rfl⟩
  exact .bind (.throw _) fun _ => frame fun _ => ⟨rfl, rfl, rfl⟩

end

end AdTerminal.Schedule
