import AdTerminal.Library.ListUpdate
import AdTerminal.Schedule.Receivers

/-! The four tables over a whole run of messages. No key of theirs is unique and none refers
to another table, so that each file is there once and each interval is for files that are
there rests on what is inserted. -/

namespace AdTerminal.Schedule
open Strategy JavaString Stateful Transition ListUpdate

/-- `fullPath.substring(fullPath.lastIndexOf('/') + 1)`, the name `onDownloadFinished` inserts. -/
def fileNameOf (fullPath : JavaString) : JavaString := fullPath.rtakeWhile (· ≠ 0x2F)

/-- A finished download is inserted under the name in its path. -/
def Event.Named : Event → Prop
  | .downloadFinished _ fileName fullPath => fileName = fileNameOf fullPath
  | _ => True

instance : DecidablePred Event.Named
  | .downloadFinished _ fileName fullPath => inferInstanceAs (Decidable (fileName = fileNameOf fullPath))
  | .received .. => isTrue trivial
  | .created _ => isTrue trivial
  | .delivered _ => isTrue trivial
  | .ticked _ => isTrue trivial
  | .started => isTrue trivial

namespace FileListMgr

def fileNames (db : FileListMgr) (kind : MediaKind) : List JavaString := (db.files kind).map FileRow.fileName

/-- The times and the file of each row of an interval table. -/
def entries (db : FileListMgr) (kind : MediaKind) : List (JavaString × JavaString × JavaString) :=
  (db.times kind).map fun row => (row.startTime, row.endTime, row.fileName)

/-- Each file is there once, each file of an interval once, and each of these files is there. -/
structure Intact (db : FileListMgr) : Prop where
  files : ∀ kind, (db.fileNames kind).Nodup
  times : ∀ kind, (db.entries kind).Nodup
  stored : ∀ kind, ∀ row ∈ db.times kind, row.fileName ∈ db.fileNames kind

/-- The rows are those the receivers write: a file under the name in its path, and a file of
an interval with the path it is expected at. -/
structure Recorded (resPath : MediaKind → JavaString) (db : FileListMgr) : Prop where
  files : ∀ kind, ∀ row ∈ db.files kind, row.fileName = fileNameOf row.fullPath
  times : ∀ kind, ∀ row ∈ db.times kind, row.fullPath = resPath kind ++ ofString "/" ++ row.fileName

/-- No query used for playback returns a path twice, and none the path of a file that is not held. -/
structure Plays (db : FileListMgr) (held : MediaKind → List JavaString) : Prop where
  allOnce : ∀ kind, (db.getAllFile kind).Nodup
  intervalOnce : ∀ kind startTime endTime, (db.getInInterval kind startTime endTime).Nodup
  allHeld : ∀ kind, ∀ path ∈ db.getAllFile kind, fileNameOf path ∈ held kind
  intervalHeld : ∀ kind startTime endTime, ∀ path ∈ db.getInInterval kind startTime endTime, fileNameOf path ∈ held kind

variable {resPath : MediaKind → JavaString} {db : FileListMgr}

theorem mem_getInInterval {kind : MediaKind} {startTime endTime path : JavaString} :
    path ∈ db.getInInterval kind startTime endTime ↔
      ∃ row ∈ db.times kind, (row.startTime = startTime ∧ row.endTime = endTime) ∧ row.fullPath = path := by
  cases kind <;> simp [getInInterval, and_assoc]

/-- A name with no slash is the one its path is taken for. -/
theorem fileNameOf_append {directory fileName : JavaString} (plain : 0x2F ∉ fileName) :
    fileNameOf (directory ++ ofString "/" ++ fileName) = fileName := by
  have slash : ofString "/" = [0x2F] := rfl
  rw [slash, List.append_assoc, fileNameOf, List.rtakeWhile]
  simp only [List.reverse_append, List.reverse_cons, List.reverse_nil, List.nil_append, List.append_assoc]
  rw [List.takeWhile_append_of_pos]
  · simp
  · intro unit member
    rw [List.mem_reverse] at member
    simpa using ne_of_mem_of_not_mem member plain

theorem slash_notMem_fileNameOf (fullPath : JavaString) : 0x2F ∉ fileNameOf fullPath := by
  intro member
  have plain := List.mem_takeWhile_imp (List.mem_reverse.mp member)
  simp at plain

theorem nodup_eraseDups {α : Type} [BEq α] [LawfulBEq α] : ∀ l : List α, l.eraseDups.Nodup
  | [] => List.nodup_nil
  | a :: l => by
    rw [List.eraseDups_cons, List.nodup_cons]
    exact ⟨by simp, nodup_eraseDups _⟩
termination_by l => l.length
decreasing_by exact Nat.lt_succ_of_le (List.length_filter_le _ _)

/-- In such tables the queries return each path once, and only paths of files that are there. -/
theorem Intact.plays (intact : db.Intact) (recorded : db.Recorded resPath) : db.Plays db.fileNames := by
  have named : ∀ kind, db.fileNames kind = (db.getAllFile kind).map fileNameOf := by
    intro kind
    rw [fileNames, getAllFile, List.map_map]
    exact List.map_congr_left fun row member => recorded.files kind row member
  have known : ∀ kind, ∀ row ∈ db.times kind, fileNameOf row.fullPath = row.fileName := by
    intro kind row member
    rw [recorded.times kind row member]
    apply fileNameOf_append
    have there := intact.stored kind row member
    rw [named, List.mem_map] at there
    obtain ⟨path, -, same⟩ := there
    exact same ▸ slash_notMem_fileNameOf path
  constructor
  · exact fun kind => List.Nodup.of_map fileNameOf (named kind ▸ intact.files kind)
  · intro kind startTime endTime
    cases kind with
    | video => exact nodup_eraseDups _
    | image =>
      have once := (intact.times .image).sublist ((List.filter_sublist (p := fun row =>
        decide (row.startTime = startTime ∧ row.endTime = endTime))).map _)
      refine (List.Nodup.of_map _ once).map_on fun first member second member' same => ?_
      -- Within one interval the names tell the rows apart, and the paths the names.
      have inside := (List.mem_filter.mp member).2
      have inside' := (List.mem_filter.mp member').2
      simp only [decide_eq_true_eq] at inside inside'
      have names : first.fileName = second.fileName := by
        rw [recorded.times .image first (List.mem_of_mem_filter member),
          recorded.times .image second (List.mem_of_mem_filter member')] at same
        exact List.append_cancel_left same
      apply List.inj_on_of_nodup_map once member member'
      rw [inside.1, inside.2, inside'.1, inside'.2, names]
  · intro kind path member
    rw [named]
    exact List.mem_map_of_mem member
  · intro kind startTime endTime path member
    obtain ⟨row, stored, -, rfl⟩ := mem_getInInterval.mp member
    rw [known kind row stored]
    exact intact.stored kind row stored

/-- The tables after a message of each kind, whatever else its handling does or throws. -/
def deleteFiles (db : FileListMgr) (kind : MediaKind) (gone : List JavaString) : FileListMgr :=
  gone.foldl (fun db fileName => db.deleteFile kind fileName) db

def intervalAdded (resPath : MediaKind → JavaString) (db : FileListMgr) (kind : MediaKind) (message : Message) :
    FileListMgr :=
  match message.startInterval, message.endInterval, message.files with
  | some startInterval, some endInterval, some files =>
    if wrongTimes startInterval endInterval then db
    else db.insertTimes kind startInterval endInterval
      ((reached files).map fun fileName => (fileName, resPath kind ++ ofString "/" ++ fileName))
  | _, _, _ => db

def intervalDeleted (db : FileListMgr) (kind : MediaKind) (message : Message) : FileListMgr :=
  match message.interval with
  | some (some startInterval, some endInterval) =>
    if wrongTimes startInterval endInterval then db else db.deleteTime kind startInterval endInterval
  | _ => db

def received (resPath : MediaKind → JavaString) (db : FileListMgr) (kind : MediaKind) (message : Message) :
    FileListMgr :=
  if message.indexPath = MessagePath.delete kind then db.deleteFiles kind (reached (message.files.getD []))
  else if message.indexPath = MessagePath.intervalAdd kind then db.intervalAdded resPath kind message
  else if message.indexPath = MessagePath.intervalDelete kind then db.intervalDeleted kind message
  else if message.indexPath = MessagePath.intervalClear kind ∧ message.flag = some true then db.clearTimeInterval kind
  else db

theorem deleteFiles_eq (db : FileListMgr) (kind : MediaKind) (gone : List JavaString) : db.deleteFiles kind gone =
    { files := Function.update db.files kind ((db.files kind).filter fun row => row.fileName ∉ gone)
      times := Function.update db.times kind ((db.times kind).filter fun row => row.fileName ∉ gone) } := by
  induction gone generalizing db with
  | nil => simp [deleteFiles]
  | cons fileName rest ih =>
    apply (ih (db.deleteFile kind fileName)).trans
    simp [deleteFile, List.filter_filter, Bool.and_comm]

end FileListMgr

namespace Receiver

variable {calendar : Calendar} {resPath : MediaKind → JavaString} {kind : MediaKind} {message : Message} {d : Device}

theorem db_delete (kind : MediaKind) (message : Message) (d : Device) :
    (final (delete calendar kind message) d).db = d.db.deleteFiles kind (reached (message.files.getD [])) := by
  unfold delete
  cases message.files with
  | none => rfl
  | some files =>
    simp only [orThrow, pure_bind, Option.getD_some]
    refine (part_final_bind fun _ => keeps_updateMedia (fun _ _ => rfl) _ _).trans ?_
    induction files generalizing d with
    | nil => rfl
    | cons file rest ih =>
      cases file with
      | none => rfl
      | some fileName => exact ih _

theorem db_intervalDelete (kind : MediaKind) (message : Message) (d : Device) :
    (final (intervalDelete calendar kind message) d).db = d.db.intervalDeleted kind message := by
  unfold intervalDelete FileListMgr.intervalDeleted
  rcases message.interval with _ | ⟨_ | startInterval, _ | endInterval⟩
  · rfl
  · rfl
  · rfl
  · rfl
  · simp only [orThrow, pure_bind]
    by_cases wrong : wrongTimes startInterval endInterval = true
    · simp only [if_pos wrong]
      rfl
    · simp only [if_neg wrong]
      rfl

theorem db_intervalClear (kind : MediaKind) (message : Message) (d : Device) :
    (final (intervalClear calendar kind message) d).db =
      if message.flag = some true then d.db.clearTimeInterval kind else d.db := by
  unfold intervalClear
  cases message.flag with
  | none => rfl
  | some flag => cases flag <;> rfl

/-- A message changes the tables as its kind says, also when its handler throws after that. -/
theorem db_receiveMessage (kind : MediaKind) (message : Message) (d : Device) :
    (final (receiveMessage calendar resPath kind message) d).db = d.db.received resPath kind message := by
  have distinct : ∀ kind, MessagePath.download kind ≠ MessagePath.delete kind ∧
      MessagePath.download kind ≠ MessagePath.intervalAdd kind ∧
      MessagePath.download kind ≠ MessagePath.intervalDelete kind ∧
      MessagePath.download kind ≠ MessagePath.intervalClear kind := by decide
  obtain ⟨notDelete, notAdd, notDeleteInterval, notClear⟩ := distinct kind
  unfold receiveMessage FileListMgr.received
  by_cases download : message.indexPath = MessagePath.download kind
  · rw [if_pos download, download, if_neg notDelete, if_neg notAdd, if_neg notDeleteInterval,
      if_neg fun both => notClear both.1]
    refine (congrArg Device.db (final_catchJson _ _)).trans ?_
    unfold Receiver.download
    cases message.files <;> rfl
  · rw [if_neg download]
    by_cases delete : message.indexPath = MessagePath.delete kind
    · rw [if_pos delete, if_pos delete]
      exact (congrArg Device.db (final_catchJson _ _)).trans (db_delete kind message _)
    · rw [if_neg delete, if_neg delete]
      by_cases add : message.indexPath = MessagePath.intervalAdd kind
      · rw [if_pos add, if_pos add]
        exact (congrArg Device.db (final_catchJson _ _)).trans (db_intervalAdd kind message _)
      · rw [if_neg add, if_neg add]
        by_cases deleteInterval : message.indexPath = MessagePath.intervalDelete kind
        · rw [if_pos deleteInterval, if_pos deleteInterval]
          exact (congrArg Device.db (final_catchJson _ _)).trans (db_intervalDelete kind message _)
        · rw [if_neg deleteInterval, if_neg deleteInterval]
          by_cases clear : message.indexPath = MessagePath.intervalClear kind
          · rw [if_pos clear]
            refine (congrArg Device.db (final_catchJson _ _)).trans ((db_intervalClear kind message _).trans ?_)
            simp [clear]
          · rw [if_neg clear, if_neg fun both => clear both.1]
            rfl

theorem db_onDownloadFinished (kind : MediaKind) (fileName fullPath : JavaString) (d : Device) :
    (final (onDownloadFinished calendar kind fileName fullPath) d).db = d.db.insertFile kind fileName fullPath := by
  refine @part_final_bind _ _ _ _ _ Device.db _ _ _ fun _ => .bind .get fun _ => .ite (fun _ => ?_) fun _ => .pure _
  refine .ite (fun _ => .bind (keeps_updateMedia (fun _ _ => rfl) _ _) fun _ => .modify fun _ => rfl) fun _ => ?_
  refine .ite (fun _ => ?_) fun _ => .modify fun _ => rfl
  exact .bind (.throw _) fun _ => .modify fun _ => rfl

end Receiver

theorem keeps_onReceive {calendar : Calendar} (action : Action) : Keeps Device.db (onReceive calendar action) := by
  cases action with
  | intervalStart kind =>
    exact .bind .get fun _ => .ite (fun _ => keeps_updateMedia (fun _ _ => rfl) _ _) fun _ => .throw _
  | intervalEnd kind =>
    exact .bind .get fun _ => .ite (fun _ => keeps_updateMedia (fun _ _ => rfl) _ _) fun _ => .throw _
  | systemVoiceOn => exact .pure _
  | systemVoiceOff => exact .pure _
  | systemRestart => exact .pure _

/-- The tables after an event. -/
def Event.tables (resPath : MediaKind → JavaString) (db : FileListMgr) : Event → FileListMgr
  | .received kind message => db.received resPath kind message
  | .downloadFinished kind fileName fullPath => db.insertFile kind fileName fullPath
  | _ => db

/-- The files that are held after an event: those downloaded and not deleted since. -/
def Event.held (held : MediaKind → List JavaString) : Event → MediaKind → List JavaString
  | .received kind message =>
    if message.indexPath = MessagePath.delete kind then
      Function.update held kind ((held kind).filter fun fileName => fileName ∉ reached (message.files.getD []))
    else held
  | .downloadFinished kind fileName _ => Function.update held kind (held kind ++ [fileName])
  | _ => held

section
variable {calendar : Calendar} {resPath : MediaKind → JavaString} {d d' : Device} {event : Event}

theorem db_step (taken : d.step calendar resPath event = some d') : d'.db = event.tables resPath d.db := by
  cases event with
  | received kind message =>
    obtain ⟨-, rfl⟩ := Device.step_received.mp taken
    exact Receiver.db_receiveMessage kind message d
  | downloadFinished kind fileName fullPath =>
    obtain ⟨-, rfl⟩ := Device.step_downloadFinished.mp taken
    exact Receiver.db_onDownloadFinished kind fileName fullPath d
  | created kind =>
    obtain ⟨lists, rfl⟩ := Device.step_created taken
    rfl
  | delivered i =>
    obtain ⟨alarm, -, -, -, rfl⟩ := Device.step_delivered taken
    exact keeps_onReceive alarm.action _
  | ticked time =>
    obtain ⟨-, rfl⟩ := Device.step_ticked.mp taken
    rfl
  | started =>
    obtain rfl := Device.step_started.mp taken
    exact @AlarmUtil.keeps_initAlarmWhenStartUp calendar _ Device.db (fun _ _ => rfl) (fun _ _ => rfl) _

theorem fileNames_insertTimes {db : FileListMgr} {kind : MediaKind} {startTime endTime : JavaString}
    {files : List (JavaString × JavaString)} :
    (db.insertTimes kind startTime endTime files).fileNames = db.fileNames := by
  funext other
  rw [FileListMgr.fileNames, FileListMgr.files_insertTimes]
  rfl

theorem fileNames_intervalAdded {db : FileListMgr} {kind : MediaKind} {message : Message} :
    (db.intervalAdded resPath kind message).fileNames = db.fileNames := by
  unfold FileListMgr.intervalAdded
  split
  · split
    · rfl
    · exact fileNames_insertTimes
  · rfl

theorem fileNames_intervalDeleted {db : FileListMgr} {kind : MediaKind} {message : Message} :
    (db.intervalDeleted kind message).fileNames = db.fileNames := by
  unfold FileListMgr.intervalDeleted
  split
  · split <;> rfl
  · rfl

theorem fileNames_deleteFiles {db : FileListMgr} {kind : MediaKind} {gone : List JavaString} :
    (db.deleteFiles kind gone).fileNames =
      Function.update db.fileNames kind ((db.fileNames kind).filter fun fileName => fileName ∉ gone) := by
  funext other
  by_cases same : other = kind
  · subst same
    simp [FileListMgr.fileNames, FileListMgr.deleteFiles_eq, List.filter_map, Function.comp_def]
  · simp [FileListMgr.fileNames, FileListMgr.deleteFiles_eq, Function.update_of_ne same]

/-- The names in the file tables are those that are held, whatever the events are. -/
theorem fileNames_tables (db : FileListMgr) : (event.tables resPath db).fileNames = event.held db.fileNames := by
  cases event with
  | received kind message =>
    simp only [Event.tables, FileListMgr.received, Event.held]
    split
    · exact fileNames_deleteFiles
    · split
      · exact fileNames_intervalAdded
      · split
        · exact fileNames_intervalDeleted
        · split <;> rfl
  | downloadFinished kind fileName fullPath =>
    funext other
    by_cases same : other = kind
    · subst same
      simp [Event.tables, Event.held, FileListMgr.fileNames, FileListMgr.insertFile]
    · simp [Event.tables, Event.held, FileListMgr.fileNames, FileListMgr.insertFile, Function.update_of_ne same]
  | _ => rfl

end

namespace FileListMgr

variable {resPath : MediaKind → JavaString} {db db' : FileListMgr} {kind : MediaKind}

/-- The files of an interval that can be added: each once, each there, and none of them in the
interval already. -/
def Admits (db : FileListMgr) (kind : MediaKind) (startTime endTime : JavaString) (files : List JavaString) : Prop :=
  files.Nodup ∧ ∀ fileName ∈ files, fileName ∈ db.fileNames kind ∧ (startTime, endTime, fileName) ∉ db.entries kind

instance (startTime endTime : JavaString) (files : List JavaString) :
    Decidable (db.Admits kind startTime endTime files) := inferInstanceAs (Decidable (_ ∧ _))

/-- Taking rows away from the interval tables does no harm. -/
theorem Intact.sublist (intact : db.Intact) (files : db'.files = db.files)
    (times : ∀ kind, (db'.times kind).Sublist (db.times kind)) : db'.Intact := by
  have names : db'.fileNames = db.fileNames := by
    funext kind
    rw [fileNames, files]
    rfl
  refine ⟨fun kind => names ▸ intact.files kind, fun kind => (intact.times kind).sublist ((times kind).map _), ?_⟩
  intro kind row member
  rw [names]
  exact intact.stored kind row ((times kind).subset member)

theorem times_deleteFiles_sublist (gone : List JavaString) (other : MediaKind) :
    ((db.deleteFiles kind gone).times other).Sublist (db.times other) := by
  rw [deleteFiles_eq]
  exact sublist_update List.filter_sublist other

theorem files_deleteFiles_sublist (gone : List JavaString) (other : MediaKind) :
    ((db.deleteFiles kind gone).files other).Sublist (db.files other) := by
  rw [deleteFiles_eq]
  exact sublist_update List.filter_sublist other

theorem times_deleteTime_sublist (startTime endTime : JavaString) (other : MediaKind) :
    ((db.deleteTime kind startTime endTime).times other).Sublist (db.times other) :=
  sublist_update List.filter_sublist other

theorem times_clearTimeInterval_sublist (other : MediaKind) :
    ((db.clearTimeInterval kind).times other).Sublist (db.times other) :=
  sublist_update (List.nil_sublist _) other

theorem Intact.deleteFiles (intact : db.Intact) (gone : List JavaString) : (db.deleteFiles kind gone).Intact := by
  constructor
  · exact fun other => (intact.files other).sublist ((files_deleteFiles_sublist gone other).map _)
  · exact fun other => (intact.times other).sublist ((times_deleteFiles_sublist gone other).map _)
  · intro other row member
    rw [fileNames_deleteFiles]
    rw [deleteFiles_eq] at member
    by_cases same : other = kind
    · subst same
      simp only [Function.update_self, List.mem_filter] at member ⊢
      exact ⟨intact.stored other row member.1, member.2⟩
    · simp only [Function.update_of_ne same] at member ⊢
      exact intact.stored other row member

/-- A file may be inserted exactly when it is not there yet. -/
theorem Intact.insertFile_iff (intact : db.Intact) {fileName fullPath : JavaString} :
    (db.insertFile kind fileName fullPath).Intact ↔ fileName ∉ db.fileNames kind := by
  have names : (db.insertFile kind fileName fullPath).fileNames kind = db.fileNames kind ++ [fileName] := by
    simp [fileNames, insertFile]
  have others : ∀ other ≠ kind, (db.insertFile kind fileName fullPath).fileNames other = db.fileNames other := by
    intro other different
    simp [fileNames, insertFile, Function.update_of_ne different]
  constructor
  · intro after present
    have once := after.files kind
    rw [names, List.nodup_append] at once
    exact once.2.2 fileName present fileName List.mem_cons_self rfl
  · intro absent
    refine ⟨fun other => ?_, intact.times, fun other row member => ?_⟩
    · by_cases same : other = kind
      · subst same
        rw [names, ← List.concat_eq_append]
        exact (intact.files other).concat absent
      · rw [others other same]
        exact intact.files other
    · have before := intact.stored other row member
      by_cases same : other = kind
      · subst same
        rw [names]
        exact List.mem_append_left _ before
      · rwa [others other same]

/-- An interval may be added exactly when the tables admit its files. -/
theorem Intact.insertTimes_iff (intact : db.Intact) {startTime endTime : JavaString} {files : List JavaString}
    {path : JavaString → JavaString} :
    (db.insertTimes kind startTime endTime (files.map fun fileName => (fileName, path fileName))).Intact ↔
      db.Admits kind startTime endTime files := by
  have rows : (db.insertTimes kind startTime endTime (files.map fun fileName => (fileName, path fileName))).entries
      kind = db.entries kind ++ files.map fun fileName => (startTime, endTime, fileName) := by
    simp [entries, times_insertTimes, Function.comp_def]
  have injective : Function.Injective fun fileName : JavaString => (startTime, endTime, fileName) := by
    intro first second same
    simpa using same
  constructor
  · intro after
    have once := after.times kind
    rw [rows, List.nodup_append] at once
    refine ⟨(List.nodup_map_iff injective).mp once.2.1, fun fileName member => ⟨?_, fun present => ?_⟩⟩
    · have there := after.stored kind ⟨startTime, endTime, fileName, path fileName⟩
      rw [fileNames_insertTimes, times_insertTimes, List.mem_append, List.mem_map] at there
      exact there (Or.inr ⟨_, List.mem_map_of_mem member, rfl⟩)
    · exact once.2.2 _ present _ (List.mem_map_of_mem member) rfl
  · intro admits
    refine ⟨fun other => ?_, fun other => ?_, fun other row member => ?_⟩
    · rw [fileNames_insertTimes]
      exact intact.files other
    · by_cases same : other = kind
      · subst same
        rw [rows, List.nodup_append]
        refine ⟨intact.times other, (List.nodup_map_iff injective).mpr admits.1, ?_⟩
        rintro entry old _ new rfl
        obtain ⟨fileName, member, rfl⟩ := List.mem_map.mp new
        exact (admits.2 fileName member).2 old
      · rw [entries, times_insertTimes_other same]
        exact intact.times other
    · rw [fileNames_insertTimes]
      by_cases same : other = kind
      · subst same
        rw [times_insertTimes, List.mem_append] at member
        rcases member with old | new
        · exact intact.stored other row old
        · simp only [List.map_map, List.mem_map, Function.comp_apply] at new
          obtain ⟨fileName, member, rfl⟩ := new
          exact (admits.2 fileName member).1
      · rw [times_insertTimes_other same] at member
        exact intact.stored other row member

theorem Intact.intervalDeleted (intact : db.Intact) (message : Message) : (db.intervalDeleted kind message).Intact := by
  unfold FileListMgr.intervalDeleted
  split
  · split
    · exact intact
    · exact intact.sublist rfl (times_deleteTime_sublist _ _)
  · exact intact

theorem Intact.clearTimeInterval (intact : db.Intact) : (db.clearTimeInterval kind).Intact :=
  intact.sublist rfl times_clearTimeInterval_sublist

theorem Recorded.sublist (recorded : db.Recorded resPath) (files : ∀ kind, db'.files kind ⊆ db.files kind)
    (times : ∀ kind, db'.times kind ⊆ db.times kind) : db'.Recorded resPath :=
  ⟨fun kind row member => recorded.files kind row (files kind member),
    fun kind row member => recorded.times kind row (times kind member)⟩

/-- Every event leaves rows of that form. -/
theorem Recorded.tables (recorded : db.Recorded resPath) {event : Event} (named : event.Named) :
    (event.tables resPath db).Recorded resPath := by
  cases event with
  | received kind message =>
    simp only [Event.tables, received]
    split
    · exact recorded.sublist (fun other => (files_deleteFiles_sublist _ other).subset)
        fun other => (times_deleteFiles_sublist _ other).subset
    · split
      · unfold intervalAdded
        split
        · split
          · exact recorded
          · refine ⟨fun other row member => recorded.files other row (files_insertTimes .. ▸ member), ?_⟩
            intro other row member
            by_cases same : other = kind
            · subst same
              rw [times_insertTimes, List.mem_append] at member
              rcases member with old | new
              · exact recorded.times other row old
              · simp only [List.map_map, List.mem_map, Function.comp_apply] at new
                obtain ⟨fileName, -, rfl⟩ := new
                rfl
            · rw [times_insertTimes_other same] at member
              exact recorded.times other row member
        · exact recorded
      · split
        · unfold FileListMgr.intervalDeleted
          split
          · split
            · exact recorded
            · exact recorded.sublist (fun _ => List.Subset.refl _) fun other =>
                (times_deleteTime_sublist _ _ other).subset
          · exact recorded
        · split
          · exact recorded.sublist (fun _ => List.Subset.refl _) fun other =>
              (times_clearTimeInterval_sublist other).subset
          · exact recorded
  | downloadFinished kind fileName fullPath =>
    refine ⟨fun other row member => ?_, recorded.times⟩
    by_cases same : other = kind
    · subst same
      simp only [Event.tables, insertFile, Function.update_self, List.mem_append, List.mem_singleton] at member
      rcases member with old | rfl
      · exact recorded.files other row old
      · exact named
    · simp only [Event.tables, insertFile, Function.update_of_ne same] at member
      exact recorded.files other row member
  | _ => exact recorded

end FileListMgr

/-- What is inserted is new, and an interval is announced for files that are there. -/
def Proper (d : Device) : Event → Prop
  | .downloadFinished kind fileName _ => d.thrown = none → fileName ∉ d.db.fileNames kind
  | .received kind message => d.thrown = none → message.indexPath = MessagePath.intervalAdd kind →
      ∀ startInterval ∈ message.startInterval, ∀ endInterval ∈ message.endInterval, ∀ files ∈ message.files,
        wrongTimes startInterval endInterval = false → d.db.Admits kind startInterval endInterval (reached files)
  | _ => True

instance (d : Device) : ∀ event, Decidable (Proper d event)
  | .downloadFinished kind fileName _ =>
    inferInstanceAs (Decidable (d.thrown = none → fileName ∉ d.db.fileNames kind))
  | .received kind message =>
    inferInstanceAs (Decidable (d.thrown = none → message.indexPath = MessagePath.intervalAdd kind →
      ∀ startInterval ∈ message.startInterval, ∀ endInterval ∈ message.endInterval, ∀ files ∈ message.files,
        wrongTimes startInterval endInterval = false → d.db.Admits kind startInterval endInterval (reached files)))
  | .created _ => isTrue trivial
  | .delivered _ => isTrue trivial
  | .ticked _ => isTrue trivial
  | .started => isTrue trivial

section
variable {calendar : Calendar} {resPath : MediaKind → JavaString} {d : Device} {event : Event}

theorem intact_received_iff (intact : d.db.Intact) (running : d.thrown = none) (kind : MediaKind) (message : Message) :
    (d.db.received resPath kind message).Intact ↔ Proper d (.received kind message) := by
  have distinct : ∀ kind, MessagePath.delete kind ≠ MessagePath.intervalAdd kind := by decide
  unfold FileListMgr.received
  by_cases add : message.indexPath = MessagePath.intervalAdd kind
  · rw [if_neg fun delete => distinct kind (delete.symm.trans add), if_pos add]
    simp only [Proper, running, add, true_imp_iff]
    unfold FileListMgr.intervalAdded
    cases message.startInterval with
    | none => simp [intact]
    | some startInterval =>
      cases message.endInterval with
      | none => simp [intact]
      | some endInterval =>
        cases message.files with
        | none => simp [intact]
        | some files =>
          cases wrong : wrongTimes startInterval endInterval with
          | true => simp [wrong, intact]
          | false => simpa [wrong] using intact.insertTimes_iff
  · refine iff_of_true ?_ fun _ added => absurd added add
    rw [if_neg add]
    split
    · exact intact.deleteFiles _
    · split
      · exact intact.intervalDeleted message
      · split
        · exact intact.clearTimeInterval
        · exact intact

/-- A step keeps intact tables intact exactly when it meets the condition. -/
theorem intact_step_iff (intact : d.db.Intact) :
    (∀ d', d.step calendar resPath event = some d' → d'.db.Intact) ↔ Proper d event := by
  cases event with
  | received kind message =>
    constructor
    · intro kept running
      have taken : d.step calendar resPath (.received kind message) = some _ :=
        Device.step_received.mpr ⟨running, rfl⟩
      have after := kept _ taken
      rw [db_step taken] at after
      exact (intact_received_iff intact running kind message).mp after running
    · intro proper d' taken
      rw [db_step taken]
      exact (intact_received_iff intact (Device.step_received.mp taken).1 kind message).mpr proper
  | downloadFinished kind fileName fullPath =>
    constructor
    · intro kept running
      have taken : d.step calendar resPath (.downloadFinished kind fileName fullPath) = some _ :=
        Device.step_downloadFinished.mpr ⟨running, rfl⟩
      have after := kept _ taken
      rw [db_step taken] at after
      exact intact.insertFile_iff.mp after
    · intro proper d' taken
      rw [db_step taken]
      exact intact.insertFile_iff.mpr (proper (Device.step_downloadFinished.mp taken).1)
  | created kind => exact iff_of_true (fun d' taken => db_step taken ▸ intact) trivial
  | delivered i => exact iff_of_true (fun d' taken => db_step taken ▸ intact) trivial
  | ticked time => exact iff_of_true (fun d' taken => db_step taken ▸ intact) trivial
  | started => exact iff_of_true (fun d' taken => db_step taken ▸ intact) trivial

end

/-- In every state of a run the tables are intact, and what the queries return are the paths,
each once, of files that have been downloaded and not deleted since. -/
def SoundThroughout (calendar : Calendar) (resPath : MediaKind → JavaString) (d : Device) (events : List Event) :
    Prop :=
  ∀ before after, events = before ++ after → ∀ d', run (Device.step calendar resPath) d before = some d' →
    d'.db.Intact ∧ d'.db.Plays (before.foldl Event.held d.db.fileNames)

section
variable {calendar : Calendar} {resPath : MediaKind → JavaString} {d d' : Device} {events : List Event}

theorem fileNames_run (whole : run (Device.step calendar resPath) d events = some d') :
    d'.db.fileNames = events.foldl Event.held d.db.fileNames := by
  induction events generalizing d with
  | nil => exact Option.some.inj whole ▸ rfl
  | cons event rest ih =>
    obtain ⟨u, taken, whole⟩ := run_cons whole
    rw [ih whole, db_step taken, fileNames_tables, List.foldl_cons]

theorem recorded_run (recorded : d.db.Recorded resPath) (named : ∀ event ∈ events, event.Named)
    (whole : run (Device.step calendar resPath) d events = some d') : d'.db.Recorded resPath := by
  have preserved : ∀ (d : Device) (event : Event) (d' : Device), d.db.Recorded resPath → event.Named →
      d.step calendar resPath event = some d' → d'.db.Recorded resPath := by
    intro d event d' recorded named taken
    rw [db_step taken]
    exact recorded.tables named
  exact run_invariant preserved recorded (Steps.of_forall named) whole

/-- From tables in order, any completions and messages of both kinds, any other events between
them: the tables stay so and playback sees each held file once, exactly if every file inserted
is new and every interval is announced, without repetition, for files that are there. -/
theorem soundThroughout_iff (recorded : d.db.Recorded resPath) (intact : d.db.Intact)
    (named : ∀ event ∈ events, event.Named) :
    SoundThroughout calendar resPath d events ↔ Steps (Device.step calendar resPath) Proper d events := by
  have agree : ∀ (d : Device) (event : Event), d.db.Intact →
      ((∀ d', d.step calendar resPath event = some d' → d'.db.Intact) ↔ Proper d event) :=
    fun _ _ intact => intact_step_iff intact
  have all_iff : Throughout (Device.step calendar resPath) (fun d => d.db.Intact) d events ↔
      Steps (Device.step calendar resPath) Proper d events :=
    throughout_iff_self agree intact
  rw [← all_iff]
  constructor
  · exact fun sound before after split d' reached => (sound before after split d' reached).1
  · intro all before after split d' reached
    have intact' := all before after split d' reached
    have named' : ∀ event ∈ before, event.Named := fun event member =>
      named event (split ▸ List.mem_append_left _ member)
    refine ⟨intact', ?_⟩
    rw [← fileNames_run reached]
    exact intact'.plays (recorded_run recorded named' reached)

end

/-- Tables with nothing in them are in order. -/
theorem intact_empty : ({} : FileListMgr).Intact := ⟨by simp [FileListMgr.fileNames], by simp [FileListMgr.entries], by simp⟩

theorem recorded_empty (resPath : MediaKind → JavaString) : ({} : FileListMgr).Recorded resPath := ⟨by simp, by simp⟩

/-- A terminal with empty tables. -/
def emptyTerminal : Device := { now := 1470002400000 }

def cameraPath : MediaKind → JavaString := fun _ => ofString "/sdcard/Camera/"

/-- The download of a video is complete. -/
def videoFinished : Event := .downloadFinished .video (ofString "a.mp4") (ofString "/sdcard/Camera/a.mp4")

/-- The interval of one video. -/
def videoInterval : Event := .received .video
  { indexPath := "AdVideo/TimeInterval", startInterval := some (ofString "08:00:00")
    endInterval := some (ofString "10:00:00"), files := some [some (ofString "a.mp4")] }

def videoDelete : Event := .received .video { indexPath := "AdVideo/Delete", files := some [some (ofString "a.mp4")] }

/-- Downloaded, announced, deleted and downloaded again. -/
theorem inOrder_sound : SoundThroughout (.fixedOffset 28800) cameraPath emptyTerminal
    [videoFinished, videoInterval, videoDelete, videoFinished] :=
  (soundThroughout_iff (recorded_empty cameraPath) intact_empty (by decide +kernel)).mpr (by decide +kernel)

/-- A video downloaded a second time is there twice, and is played twice. -/
theorem finishedTwice_not_sound :
    ¬ SoundThroughout (.fixedOffset 28800) cameraPath emptyTerminal [videoFinished, videoFinished] := by
  intro sound
  have twice : ∃ d, run (Device.step (.fixedOffset 28800) cameraPath) emptyTerminal [videoFinished, videoFinished] =
      some d ∧ d.db.getAllVideoFile = [ofString "/sdcard/Camera/a.mp4", ofString "/sdcard/Camera/a.mp4"] :=
    ⟨_, rfl, by decide +kernel⟩
  obtain ⟨d, reached, paths⟩ := twice
  have once := (sound _ [] (List.append_nil _).symm d reached).2.allOnce .video
  rw [show d.db.getAllFile .video = d.db.getAllVideoFile from rfl, paths] at once
  exact absurd once (by decide)

end AdTerminal.Schedule
