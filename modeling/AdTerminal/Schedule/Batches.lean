import AdTerminal.Library.ListUpdate
import AdTerminal.Schedule.PlayListTables

/-! The downloads the receivers have asked for, and the two static counters that are to tell
when the last of them is complete. The counters are shared by all messages of a kind, and each
message sets the total to its own number of files. -/

namespace AdTerminal.Schedule
open Strategy JavaString Stateful Transition ListUpdate

/-- The terminal with the URLs whose downloads are still to complete. -/
structure Downloading where
  device : Device
  outstanding : MediaKind → List JavaString := fun _ => []

/-- What happens while the process lives. -/
inductive BatchEvent where
  | received (kind : MediaKind) (message : Message)
  /-- The `i`-th outstanding download is complete. -/
  | finished (kind : MediaKind) (i : Nat)
  | created (kind : MediaKind)
  | delivered (i : Nat)
  | ticked (time : Int)

/-- The URLs that a message has downloads started for: those its loop gets to. -/
def requested (kind : MediaKind) (message : Message) : List JavaString :=
  if message.indexPath = MessagePath.download kind then reached (message.files.getD []) else []

/-! `target` is where the file of a URL is stored: under the path of its kind, with the name
guessed from the URL. -/

variable (calendar : Calendar) (resPath : MediaKind → JavaString) (target : MediaKind → JavaString → JavaString)

namespace Downloading

def step (s : Downloading) : BatchEvent → Option Downloading
  | .received kind message => (s.device.step calendar resPath (.received kind message)).map fun device =>
      { device, outstanding := Function.update s.outstanding kind (s.outstanding kind ++ requested kind message) }
  | .finished kind i => do
    let url ← (s.outstanding kind)[i]?
    let fullPath := target kind url
    let device ← s.device.step calendar resPath (.downloadFinished kind (fileNameOf fullPath) fullPath)
    pure { device, outstanding := Function.update s.outstanding kind ((s.outstanding kind).eraseIdx i) }
  | .created kind => (s.device.step calendar resPath (.created kind)).map fun device => { s with device }
  | .delivered i => (s.device.step calendar resPath (.delivered i)).map fun device => { s with device }
  | .ticked time => (s.device.step calendar resPath (.ticked time)).map fun device => { s with device }

end Downloading

namespace Receiver

variable {calendar : Calendar} {kind : MediaKind} {fileName fullPath : JavaString} {d : Device}

/-- `mFinishedTaskNum == mDownloadTaskNum` of the videos and `>=` of the images, once the file
is counted. -/
def LastOne (d : Device) : MediaKind → Prop
  | .video => d.mFinishedTaskNum .video + 1 = d.mDownloadTaskNum .video
  | .image => d.mDownloadTaskNum .image ≤ d.mFinishedTaskNum .image + 1

/-- A file that is not the last one is inserted and counted. -/
theorem run_onDownloadFinished_early (early : ¬ LastOne d kind) :
    (onDownloadFinished calendar kind fileName fullPath).run d = .ok ⟨⟩ { d with
      db := d.db.insertFile kind fileName fullPath
      mFinishedTaskNum := Function.update d.mFinishedTaskNum kind (d.mFinishedTaskNum kind + 1) } := by
  cases kind with
  | video =>
    have unmet : (d.mFinishedTaskNum .video + 1 = d.mDownloadTaskNum .video) = False := eq_false early
    simp [onDownloadFinished, unmet]
  | image =>
    have unmet : (d.mDownloadTaskNum .image ≤ d.mFinishedTaskNum .image + 1) = False := eq_false early
    simp [onDownloadFinished, unmet]

/-- The last one has the play list updated after that, and the counters are zero again. -/
theorem run_onDownloadFinished_last (last : LastOne d kind) (present : d.mCtrl kind = true) :
    (onDownloadFinished calendar kind fileName fullPath).run d = .ok ⟨⟩ { d with
      db := d.db.insertFile kind fileName fullPath
      lists := Function.update d.lists kind ((d.lists kind).map (AdCtrl.updateWhenStrategyChanged
        (d.db.insertFile kind fileName fullPath) kind (getCurrentTime (calendar.timeOfDay d.now))))
      mFinishedTaskNum := Function.update d.mFinishedTaskNum kind 0
      mDownloadTaskNum := Function.update d.mDownloadTaskNum kind 0 } := by
  cases kind with
  | video =>
    have met : (d.mFinishedTaskNum .video + 1 = d.mDownloadTaskNum .video) = True := eq_true last
    simp [onDownloadFinished, updateMedia, met, present]
  | image =>
    have met : (d.mDownloadTaskNum .image ≤ d.mFinishedTaskNum .image + 1) = True := eq_true last
    simp [onDownloadFinished, updateMedia, met, present]

end Receiver

/-- The two counters, which controllers there are and which the receivers have found. -/
def counters (d : Device) : (MediaKind → Nat) × (MediaKind → Nat) × (MediaKind → Bool) × (MediaKind → Bool) :=
  (d.mDownloadTaskNum, d.mFinishedTaskNum, d.mCtrl, fun kind => (d.lists kind).isSome)

section
variable {calendar : Calendar} {resPath : MediaKind → JavaString} {kind : MediaKind} {message : Message} {d : Device}

theorem counters_updateMedia (method : FileListMgr → JavaString → List JavaString → List JavaString) :
    Keeps counters (updateMedia calendar kind method) := by
  refine .modify fun d => ?_
  have same : (fun other => (Function.update d.lists kind ((d.lists kind).map
      (method d.db (getCurrentTime (calendar.timeOfDay d.now)))) other).isSome) = fun other => (d.lists other).isSome := by
    funext other
    by_cases own : other = kind
    · subst own
      simp
    · rw [Function.update_of_ne own]
  simp only [counters, same]

theorem counters_setAlarms (startInterval endInterval : JavaString) :
    Keeps counters (Receiver.setAlarms calendar kind startInterval endInterval) := by
  refine .bind (AlarmUtil.keeps_setChangeTimeBroadcast (fun _ _ => rfl) (fun _ _ => rfl) _ _ _) fun _ => ?_
  refine .bind (AlarmUtil.keeps_setChangeTimeBroadcast (fun _ _ => rfl) (fun _ _ => rfl) _ _ _) fun _ => ?_
  exact counters_updateMedia _

theorem counters_catchJson {body : Program Unit} (keeps : Keeps counters body) : Keeps counters (catchJson body) := by
  intro d
  rw [final_catchJson]
  exact keeps d

/-- Only a download message sets a counter. -/
theorem counters_receiveMessage (other : message.indexPath ≠ MessagePath.download kind) (d : Device) :
    counters (final (Receiver.receiveMessage calendar resPath kind message) d) =
      counters { d with mCtrl := Function.update d.mCtrl kind (d.lists kind).isSome } := by
  have delete : Keeps counters (Receiver.delete calendar kind message) := by
    refine .bind (.orThrow _ _) fun files => .bind (.forM (fun file => ?_) files) fun _ => counters_updateMedia _
    exact .bind (.orThrow _ _) fun _ => .modify fun _ => rfl
  have intervalAdd : Keeps counters (Receiver.intervalAdd calendar resPath kind message) := by
    refine .bind (.orThrow _ _) fun _ => .bind (.orThrow _ _) fun _ => .bind (.orThrow _ _) fun files => ?_
    refine .ite (fun _ => .pure _) fun _ => .bind (.forM (fun file => ?_) files) fun _ => counters_setAlarms _ _
    exact .bind (.orThrow _ _) fun _ => .modify fun _ => rfl
  have intervalDelete : Keeps counters (Receiver.intervalDelete calendar kind message) := by
    refine .bind (.orThrow _ _) fun _ => .bind (.orThrow _ _) fun _ => .bind (.orThrow _ _) fun _ => ?_
    exact .ite (fun _ => .pure _) fun _ => .bind (.modify fun _ => rfl) fun _ => counters_updateMedia _
  have intervalClear : Keeps counters (Receiver.intervalClear calendar kind message) := by
    refine .bind (.orThrow _ _) fun _ => .ite (fun _ => ?_) fun _ => .pure _
    exact .bind (.modify fun _ => rfl) fun _ => counters_updateMedia _
  unfold Receiver.receiveMessage
  rw [if_neg other]
  have rest := Within.ite (fun _ : message.indexPath = MessagePath.delete kind => counters_catchJson delete) fun _ =>
    Within.ite (fun _ : message.indexPath = MessagePath.intervalAdd kind => counters_catchJson intervalAdd) fun _ =>
      Within.ite (fun _ : message.indexPath = MessagePath.intervalDelete kind => counters_catchJson intervalDelete)
        fun _ => Within.ite (fun _ : message.indexPath = MessagePath.intervalClear kind =>
          counters_catchJson intervalClear) fun _ => Within.pure ()
  exact rest _

theorem counters_onReceive (action : Action) : Keeps counters (onReceive calendar action) := by
  cases action with
  | intervalStart kind => exact .bind .get fun _ => .ite (fun _ => counters_updateMedia _) fun _ => .throw _
  | intervalEnd kind => exact .bind .get fun _ => .ite (fun _ => counters_updateMedia _) fun _ => .throw _
  | systemVoiceOn => exact .pure _
  | systemVoiceOff => exact .pure _
  | systemRestart => exact .pure _

/-- A download message sets the total to its number of files, if it has an array. -/
theorem final_download (download : message.indexPath = MessagePath.download kind) (d : Device) :
    final (Receiver.receiveMessage calendar resPath kind message) d =
      { d with
        mCtrl := Function.update d.mCtrl kind (d.lists kind).isSome
        mDownloadTaskNum := match message.files with
          | none => d.mDownloadTaskNum
          | some files => Function.update d.mDownloadTaskNum kind files.length } := by
  unfold Receiver.receiveMessage
  rw [if_pos download]
  refine (final_catchJson _ _).trans ?_
  unfold Receiver.download
  cases message.files <;> rfl

end

namespace Downloading

variable {calendar : Calendar} {resPath : MediaKind → JavaString} {target : MediaKind → JavaString → JavaString}
  {s s' : Downloading} {kind : MediaKind} {event : BatchEvent}

theorem step_received {message : Message}
    (taken : s.step calendar resPath target (.received kind message) = some s') : s.device.thrown = none ∧
      s' = { device := s.device.perform (Receiver.receiveMessage calendar resPath kind message)
             outstanding := Function.update s.outstanding kind (s.outstanding kind ++ requested kind message) } := by
  obtain ⟨device, moved, rfl⟩ := Option.map_eq_some_iff.mp taken
  obtain ⟨running, rfl⟩ := Device.step_received.mp moved
  exact ⟨running, rfl⟩

theorem step_finished {i : Nat} (taken : s.step calendar resPath target (.finished kind i) = some s') :
    ∃ url, (s.outstanding kind)[i]? = some url ∧ s.device.thrown = none ∧
      s' = { device := s.device.perform (Receiver.onDownloadFinished calendar kind (fileNameOf (target kind url))
               (target kind url))
             outstanding := Function.update s.outstanding kind ((s.outstanding kind).eraseIdx i) } := by
  simp only [step, Option.bind_eq_bind, Option.bind_eq_some_iff, Option.pure_def, Option.some.injEq] at taken
  obtain ⟨url, present, device, moved, rfl⟩ := taken
  obtain ⟨running, rfl⟩ := Device.step_downloadFinished.mp moved
  exact ⟨url, present, running, rfl⟩

/-- A controller of the kind exists, and the receiver has found it. -/
def Present (s : Downloading) (kind : MediaKind) : Prop :=
  s.device.mCtrl kind = true ∧ (s.device.lists kind).isSome = true

/-- So it is while downloads are outstanding. -/
def Ready (s : Downloading) : Prop := ∀ kind, s.outstanding kind ≠ [] → s.Present kind

/-- A download message comes as an array of strings, and with the controller of its kind present. -/
def Admitted (s : Downloading) : BatchEvent → Prop
  | .received kind message => message.indexPath = MessagePath.download kind →
      (s.device.lists kind).isSome = true ∧ ∀ files ∈ message.files, ∀ file ∈ files, file.isSome = true
  | _ => True

/-- How a step changes the counters and the outstanding downloads. -/
inductive Counted (s s' : Downloading) : BatchEvent → Prop
  | asked (kind : MediaKind) (message : Message) (files : List (Option JavaString))
      (download : message.indexPath = MessagePath.download kind) (read : message.files = some files)
      (total : s'.device.mDownloadTaskNum = Function.update s.device.mDownloadTaskNum kind files.length)
      (finished : s'.device.mFinishedTaskNum = s.device.mFinishedTaskNum)
      (outstanding : s'.outstanding = Function.update s.outstanding kind (s.outstanding kind ++ reached files)) :
      Counted s s' (.received kind message)
  | early (kind : MediaKind) (i : Nat) (url : JavaString) (present : (s.outstanding kind)[i]? = some url)
      (early : ¬ Receiver.LastOne s.device kind) (total : s'.device.mDownloadTaskNum = s.device.mDownloadTaskNum)
      (finished : s'.device.mFinishedTaskNum =
        Function.update s.device.mFinishedTaskNum kind (s.device.mFinishedTaskNum kind + 1))
      (outstanding : s'.outstanding = Function.update s.outstanding kind ((s.outstanding kind).eraseIdx i)) :
      Counted s s' (.finished kind i)
  | last (kind : MediaKind) (i : Nat) (url : JavaString) (present : (s.outstanding kind)[i]? = some url)
      (last : Receiver.LastOne s.device kind)
      (total : s'.device.mDownloadTaskNum = Function.update s.device.mDownloadTaskNum kind 0)
      (finished : s'.device.mFinishedTaskNum = Function.update s.device.mFinishedTaskNum kind 0)
      (outstanding : s'.outstanding = Function.update s.outstanding kind ((s.outstanding kind).eraseIdx i)) :
      Counted s s' (.finished kind i)
  | unchanged (event : BatchEvent) (finishes : ∀ kind i, event ≠ .finished kind i)
      (asks : ∀ kind message, event = .received kind message → message.indexPath = MessagePath.download kind →
        message.files = none)
      (total : s'.device.mDownloadTaskNum = s.device.mDownloadTaskNum)
      (finished : s'.device.mFinishedTaskNum = s.device.mFinishedTaskNum)
      (outstanding : s'.outstanding = s.outstanding) : Counted s s' event

theorem counted_of_step (ready : s.Ready) (taken : s.step calendar resPath target event = some s') :
    Counted s s' event := by
  cases event with
  | received kind message =>
    obtain ⟨-, rfl⟩ := step_received taken
    by_cases download : message.indexPath = MessagePath.download kind
    · have after : final (Receiver.receiveMessage calendar resPath kind message) s.device = _ :=
        final_download download s.device
      have finished := congrArg Device.mFinishedTaskNum after
      have total := congrArg Device.mDownloadTaskNum after
      cases read : message.files with
      | none =>
        simp only [read] at total
        refine .unchanged _ (fun _ _ => BatchEvent.noConfusion) (fun _ _ same _ => ?_) total finished ?_
        · cases same
          exact read
        · simp [requested, read, reached]
      | some files =>
        simp only [read] at total
        exact .asked kind message files download read total finished (by simp [requested, download, read])
    · have after : counters (final (Receiver.receiveMessage calendar resPath kind message) s.device) = _ :=
        counters_receiveMessage download s.device
      refine .unchanged _ (fun _ _ => BatchEvent.noConfusion) (fun _ _ same asks => ?_) (congrArg Prod.fst after)
        (congrArg (fun all => all.2.1) after) ?_
      · cases same
        exact absurd asks download
      · simp [requested, download]
  | finished kind i =>
    obtain ⟨url, present, -, rfl⟩ := step_finished taken
    have there := ready kind (List.ne_nil_of_mem (List.mem_of_getElem? present))
    by_cases last : Receiver.LastOne s.device kind
    · have ran : final (Receiver.onDownloadFinished calendar kind (fileNameOf (target kind url)) (target kind url))
          s.device = _ := final_of_ok (Receiver.run_onDownloadFinished_last last there.1)
      exact .last kind i url present last (congrArg Device.mDownloadTaskNum ran)
        (congrArg Device.mFinishedTaskNum ran) rfl
    · have ran : final (Receiver.onDownloadFinished calendar kind (fileNameOf (target kind url)) (target kind url))
          s.device = _ := final_of_ok (Receiver.run_onDownloadFinished_early last)
      have total := congrArg Device.mDownloadTaskNum ran
      exact .early kind i url present last total (congrArg Device.mFinishedTaskNum ran) rfl
  | created kind =>
    obtain ⟨device, moved, rfl⟩ := Option.map_eq_some_iff.mp taken
    obtain ⟨lists, rfl⟩ := Device.step_created moved
    exact .unchanged _ (fun _ _ => BatchEvent.noConfusion) (fun _ _ => BatchEvent.noConfusion) rfl rfl rfl
  | delivered i =>
    obtain ⟨device, moved, rfl⟩ := Option.map_eq_some_iff.mp taken
    obtain ⟨alarm, -, -, -, rfl⟩ := Device.step_delivered moved
    have kept : counters (final (onReceive calendar alarm.action) _) = _ :=
      counters_onReceive alarm.action { s.device with alarms := s.device.alarms.eraseIdx i }
    exact .unchanged _ (fun _ _ => BatchEvent.noConfusion) (fun _ _ => BatchEvent.noConfusion)
      (congrArg Prod.fst kept) (congrArg (fun all => all.2.1) kept) rfl
  | ticked time =>
    obtain ⟨device, moved, rfl⟩ := Option.map_eq_some_iff.mp taken
    obtain ⟨-, rfl⟩ := Device.step_ticked.mp moved
    exact .unchanged _ (fun _ _ => BatchEvent.noConfusion) (fun _ _ => BatchEvent.noConfusion) rfl rfl rfl

/-- Which controllers there are, and which the receivers have found, after a message. -/
theorem presence_receiveMessage (kind : MediaKind) (message : Message) (d : Device) :
    (final (Receiver.receiveMessage calendar resPath kind message) d).mCtrl =
        Function.update d.mCtrl kind (d.lists kind).isSome ∧
      ∀ other, ((final (Receiver.receiveMessage calendar resPath kind message) d).lists other).isSome =
        (d.lists other).isSome := by
  by_cases download : message.indexPath = MessagePath.download kind
  · rw [final_download download]
    exact ⟨rfl, fun _ => rfl⟩
  · have after : counters (final (Receiver.receiveMessage calendar resPath kind message) d) = _ :=
      counters_receiveMessage download d
    exact ⟨congrArg (fun all => all.2.2.1) after, congrFun (congrArg (fun all => all.2.2.2) after)⟩

theorem Ready.mono (ready : s.Ready) (found : s'.device.mCtrl = s.device.mCtrl)
    (lists : ∀ kind, (s.device.lists kind).isSome = true → (s'.device.lists kind).isSome = true)
    (fewer : ∀ kind, s'.outstanding kind ≠ [] → s.outstanding kind ≠ []) : s'.Ready := by
  intro kind unfinished
  obtain ⟨before, there⟩ := ready kind (fewer kind unfinished)
  exact ⟨found ▸ before, lists kind there⟩

/-- A download message finds the controller, and no step loses one. -/
theorem ready_step (ready : s.Ready) (admitted : s.Admitted event)
    (taken : s.step calendar resPath target event = some s') : s'.Ready := by
  cases event with
  | received kind message =>
    obtain ⟨-, rfl⟩ := step_received taken
    obtain ⟨found, lists⟩ : (final (Receiver.receiveMessage calendar resPath kind message) s.device).mCtrl = _ ∧ _ :=
      presence_receiveMessage kind message s.device
    intro other unfinished
    have there : (s.device.lists other).isSome = true := by
      by_cases own : other = kind
      · subst own
        by_cases before : s.outstanding other = []
        · simp only [before, List.nil_append, Function.update_self, requested] at unfinished
          split at unfinished
          next download => exact (admitted download).1
          next => exact absurd rfl unfinished
        · exact (ready other before).2
      · simp only [Function.update_of_ne own] at unfinished
        exact (ready other unfinished).2
    refine ⟨?_, (lists other).trans there⟩
    refine (congrFun found other).trans ?_
    by_cases own : other = kind
    · subst own
      rw [Function.update_self, there]
    · simp only [Function.update_of_ne own] at unfinished ⊢
      exact (ready other unfinished).1
  | finished kind i =>
    obtain ⟨url, present, -, rfl⟩ := step_finished taken
    have there := ready kind (List.ne_nil_of_mem (List.mem_of_getElem? present))
    have fewer : ∀ other, Function.update s.outstanding kind ((s.outstanding kind).eraseIdx i) other ≠ [] →
        s.outstanding other ≠ [] := by
      intro other unfinished none
      have shorter := sublist_update (List.eraseIdx_sublist (s.outstanding kind) i) other
      rw [none, List.sublist_nil] at shorter
      exact unfinished shorter
    by_cases last : Receiver.LastOne s.device kind
    · have ran : final (Receiver.onDownloadFinished calendar kind (fileNameOf (target kind url)) (target kind url))
          s.device = _ := final_of_ok (Receiver.run_onDownloadFinished_last last there.1)
      have found := congrArg Device.mCtrl ran
      refine ready.mono found (fun other some => ?_) fewer
      refine (congrArg Option.isSome (congrFun (congrArg Device.lists ran) other)).trans ?_
      exact update_imp (fun list => Option.isSome list = true) (fun own => by simpa using own) some
    · have ran : final (Receiver.onDownloadFinished calendar kind (fileNameOf (target kind url)) (target kind url))
          s.device = _ := final_of_ok (Receiver.run_onDownloadFinished_early last)
      have found := congrArg Device.mCtrl ran
      exact ready.mono found (fun other some =>
        (congrArg Option.isSome (congrFun (congrArg Device.lists ran) other)).trans some) fewer
  | created kind =>
    obtain ⟨device, moved, rfl⟩ := Option.map_eq_some_iff.mp taken
    simp only [Device.step, Option.ite_none_right_eq_some, Option.some.injEq] at moved
    obtain ⟨-, rfl⟩ := moved
    refine ready.mono rfl (fun other some => ?_) fun _ unfinished => unfinished
    exact update_imp (fun list => Option.isSome list = true) (fun _ => rfl) some
  | delivered i =>
    obtain ⟨device, moved, rfl⟩ := Option.map_eq_some_iff.mp taken
    obtain ⟨alarm, -, -, -, rfl⟩ := Device.step_delivered moved
    have kept : counters (final (onReceive calendar alarm.action) _) = _ :=
      counters_onReceive alarm.action { s.device with alarms := s.device.alarms.eraseIdx i }
    exact ready.mono (congrArg (fun all => all.2.2.1) kept)
      (fun other some => (congrFun (congrArg (fun all => all.2.2.2) kept) other).trans some) fun _ unfinished => unfinished
  | ticked time =>
    obtain ⟨device, moved, rfl⟩ := Option.map_eq_some_iff.mp taken
    obtain ⟨-, rfl⟩ := Device.step_ticked.mp moved
    exact ready

/-- Where the counters of a kind stand: enough files are finished or outstanding to reach the
total, for videos exactly so many, and nothing is counted when nothing is outstanding. -/
structure Balanced (s : Downloading) (kind : MediaKind) : Prop where
  covered : s.device.mDownloadTaskNum kind ≤ s.device.mFinishedTaskNum kind + (s.outstanding kind).length
  exact : kind = .video →
    s.device.mDownloadTaskNum kind = s.device.mFinishedTaskNum kind + (s.outstanding kind).length
  idle : s.outstanding kind = [] → s.device.mFinishedTaskNum kind = 0

/-- More videos are finished and outstanding than the total. -/
def Behind (s : Downloading) : Prop :=
  s.device.mDownloadTaskNum .video < s.device.mFinishedTaskNum .video + (s.outstanding .video).length

/-- A download message for videos comes when none is outstanding. -/
def Alone (s : Downloading) : BatchEvent → Prop
  | .received kind message => kind = .video → message.indexPath = MessagePath.download kind →
      message.files.isSome = true → s.outstanding kind = []
  | _ => True

theorem length_reached {files : List (Option JavaString)} (strings : ∀ file ∈ files, file.isSome = true) :
    (reached files).length = files.length := by
  induction files with
  | nil => rfl
  | cons file rest ih =>
    obtain ⟨fileName, rfl⟩ := Option.isSome_iff_exists.mp (strings file List.mem_cons_self)
    have tail := ih fun file member => strings file (List.mem_cons_of_mem _ member)
    simpa [reached] using tail

theorem Balanced.congr (balanced : s.Balanced kind)
    (total : s'.device.mDownloadTaskNum kind = s.device.mDownloadTaskNum kind)
    (finished : s'.device.mFinishedTaskNum kind = s.device.mFinishedTaskNum kind)
    (outstanding : s'.outstanding kind = s.outstanding kind) : s'.Balanced kind :=
  ⟨by rw [total, finished, outstanding]; exact balanced.covered,
    by rw [total, finished, outstanding]; exact balanced.exact, by rw [finished, outstanding]; exact balanced.idle⟩

/-- With one file outstanding the total is reached next. -/
theorem Balanced.lastOne (balanced : s.Balanced kind) (one : (s.outstanding kind).length = 1) :
    Receiver.LastOne s.device kind := by
  have covered := balanced.covered
  cases kind with
  | video =>
    have even := balanced.exact rfl
    change s.device.mFinishedTaskNum .video + 1 = s.device.mDownloadTaskNum .video
    omega
  | image =>
    change s.device.mDownloadTaskNum .image ≤ s.device.mFinishedTaskNum .image + 1
    omega

theorem balanced_step (balanced : ∀ kind, s.Balanced kind) (admitted : s.Admitted event) (alone : s.Alone event)
    (counted : Counted s s' event) : ∀ kind, s'.Balanced kind := by
  intro other
  cases counted with
  | asked kind message files download read total finished outstanding =>
    by_cases own : other = kind
    · subst own
      have length := length_reached ((admitted download).2 files read)
      have before := balanced other
      refine ⟨?_, fun video => ?_, fun none => ?_⟩
      · rw [total, finished, outstanding]
        simp only [Function.update_self, List.length_append, length]
        omega
      · have free : s.outstanding other = [] := alone video download (by rw [read]; rfl)
        have zero := before.idle free
        rw [total, finished, outstanding]
        simp only [Function.update_self, List.length_append, length, free, List.length_nil]
        omega
      · rw [outstanding, Function.update_self, List.append_eq_nil_iff] at none
        rw [finished]
        exact before.idle none.1
    · exact (balanced other).congr (by rw [total, Function.update_of_ne own]) (by rw [finished])
        (by rw [outstanding, Function.update_of_ne own])
  | early kind i url present early total finished outstanding =>
    by_cases own : other = kind
    · subst own
      obtain ⟨bound, -⟩ := List.getElem?_eq_some_iff.mp present
      have before := balanced other
      have covered := before.covered
      refine ⟨?_, fun video => ?_, fun none => ?_⟩
      · rw [total, finished, outstanding]
        simp only [Function.update_self, List.length_eraseIdx_of_lt bound]
        omega
      · have even := before.exact video
        rw [total, finished, outstanding]
        simp only [Function.update_self, List.length_eraseIdx_of_lt bound]
        omega
      · -- With nothing left outstanding the total would have been reached.
        have left := congrArg List.length none
        rw [outstanding, Function.update_self, List.length_eraseIdx_of_lt bound, List.length_nil] at left
        exact absurd (before.lastOne (by omega)) early
    · exact (balanced other).congr (by rw [total]) (by rw [finished, Function.update_of_ne own])
        (by rw [outstanding, Function.update_of_ne own])
  | last kind i url present last total finished outstanding =>
    by_cases own : other = kind
    · subst own
      obtain ⟨bound, -⟩ := List.getElem?_eq_some_iff.mp present
      refine ⟨?_, fun video => ?_, fun _ => ?_⟩
      · rw [total, Function.update_self]
        exact Nat.zero_le _
      · subst video
        have even := (balanced .video).exact rfl
        have reached : s.device.mFinishedTaskNum .video + 1 = s.device.mDownloadTaskNum .video := last
        rw [total, finished, outstanding]
        simp only [Function.update_self, List.length_eraseIdx_of_lt bound]
        omega
      · rw [finished, Function.update_self]
    · exact (balanced other).congr (by rw [total, Function.update_of_ne own])
        (by rw [finished, Function.update_of_ne own]) (by rw [outstanding, Function.update_of_ne own])
  | unchanged event finishes asks total finished outstanding =>
    exact (balanced other).congr (by rw [total]) (by rw [finished]) (by rw [outstanding])

/-- Once behind, the count of the videos never meets the total with nothing left outstanding. -/
theorem behind_step (behind : s.Behind) (admitted : s.Admitted event) (counted : Counted s s' event) : s'.Behind := by
  unfold Behind at behind ⊢
  cases counted with
  | asked kind message files download read total finished outstanding =>
    cases kind with
    | video =>
      have length := length_reached ((admitted download).2 files read)
      rw [total, finished, outstanding]
      simp only [Function.update_self, List.length_append, length]
      omega
    | image => simpa [total, finished, outstanding] using behind
  | early kind i url present early total finished outstanding =>
    cases kind with
    | video =>
      obtain ⟨bound, -⟩ := List.getElem?_eq_some_iff.mp present
      rw [total, finished, outstanding]
      simp only [Function.update_self, List.length_eraseIdx_of_lt bound]
      omega
    | image => simpa [total, finished, outstanding] using behind
  | last kind i url present last total finished outstanding =>
    cases kind with
    | video =>
      obtain ⟨bound, -⟩ := List.getElem?_eq_some_iff.mp present
      have reached : s.device.mFinishedTaskNum .video + 1 = s.device.mDownloadTaskNum .video := last
      rw [total, finished, outstanding]
      simp only [Function.update_self, List.length_eraseIdx_of_lt bound]
      omega
    | image => simpa [total, finished, outstanding] using behind
  | unchanged event finishes asks total finished outstanding => rwa [total, finished, outstanding]

/-- A message that comes while videos are outstanding puts the count behind. -/
theorem behind_of_not_alone (crowded : ¬ s.Alone event) (admitted : s.Admitted event)
    (counted : Counted s s' event) : s'.Behind := by
  cases event with
  | received kind message =>
    simp only [Alone, Classical.not_imp] at crowded
    obtain ⟨rfl, download, readable, unfinished⟩ := crowded
    cases counted with
    | asked _ _ files _ read total finished outstanding =>
      have length := length_reached ((admitted download).2 files read)
      have some := List.length_pos_of_ne_nil unfinished
      rw [Behind, total, finished, outstanding]
      simp only [Function.update_self, List.length_append, length]
      omega
    | unchanged _ finishes asks total finished outstanding =>
      rw [asks _ _ rfl download] at readable
      exact absurd readable (by decide)
  | _ => exact absurd trivial crowded

/-- With the last file of a kind, `updateWhenStrategyChanged` is called after its insertion, and
both counters are zero again. -/
structure Refreshed (calendar : Calendar) (target : MediaKind → JavaString → JavaString) (s s' : Downloading)
    (kind : MediaKind) (i : Nat) : Prop where
  inserted : ∃ url, (s.outstanding kind)[i]? = some url ∧
    s'.device.db = s.device.db.insertFile kind (fileNameOf (target kind url)) (target kind url)
  updated : ∃ list, s.device.lists kind = some list ∧
    s'.device.lists kind = some (AdCtrl.updateWhenStrategyChanged s'.device.db kind
      (getCurrentTime (calendar.timeOfDay s.device.now)) list)
  finished : s'.device.mFinishedTaskNum kind = 0
  total : s'.device.mDownloadTaskNum kind = 0

/-- The step completes no last file, or refreshes the play list. -/
def Refreshes (calendar : Calendar) (resPath : MediaKind → JavaString) (target : MediaKind → JavaString → JavaString)
    (s : Downloading) : BatchEvent → Prop
  | .finished kind i => ∀ s', s.step calendar resPath target (.finished kind i) = some s' →
      s'.outstanding kind = [] → Refreshed calendar target s s' kind i
  | _ => True

/-- Nothing is outstanding or counted. -/
def Fresh (s : Downloading) : Prop :=
  ∀ kind, s.outstanding kind = [] ∧ s.device.mDownloadTaskNum kind = 0 ∧ s.device.mFinishedTaskNum kind = 0

theorem refreshes_of_balanced (ready : s.Ready) (balanced : ∀ kind, s.Balanced kind) :
    s.Refreshes calendar resPath target event := by
  cases event with
  | finished kind i =>
    intro s' taken none
    obtain ⟨url, present, -, rfl⟩ := step_finished taken
    obtain ⟨bound, -⟩ := List.getElem?_eq_some_iff.mp present
    have there := ready kind (List.ne_nil_of_mem (List.mem_of_getElem? present))
    obtain ⟨list, held⟩ := Option.isSome_iff_exists.mp there.2
    have left := congrArg List.length none
    simp only [Function.update_self, List.length_eraseIdx_of_lt bound, List.length_nil] at left
    have last : Receiver.LastOne s.device kind := (balanced kind).lastOne (by omega)
    have ran : final (Receiver.onDownloadFinished calendar kind (fileNameOf (target kind url)) (target kind url))
        s.device = _ := final_of_ok (Receiver.run_onDownloadFinished_last last there.1)
    have inserted := congrArg Device.db ran
    refine ⟨⟨url, present, inserted⟩, ⟨list, held, ?_⟩, ?_, ?_⟩
    · refine (congrFun (congrArg Device.lists ran) kind).trans ?_
      simp only [Device.perform, Function.update_self, held, Option.map_some, inserted]
    · exact (congrFun (congrArg Device.mFinishedTaskNum ran) kind).trans (Function.update_self ..)
    · exact (congrFun (congrArg Device.mDownloadTaskNum ran) kind).trans (Function.update_self ..)
  | _ => trivial

/-- Where every last file refreshes, nothing is counted when nothing is outstanding. -/
theorem idle_step (idle : s.outstanding .video = [] → s.device.mFinishedTaskNum .video = 0)
    (refreshes : s.Refreshes calendar resPath target event)
    (taken : s.step calendar resPath target event = some s') (counted : Counted s s' event) :
    s'.outstanding .video = [] → s'.device.mFinishedTaskNum .video = 0 := by
  intro none
  cases counted with
  | asked kind message files download read total finished outstanding =>
    rw [finished]
    apply idle
    cases kind with
    | video =>
      rw [outstanding, Function.update_self, List.append_eq_nil_iff] at none
      exact none.1
    | image => simpa [outstanding] using none
  | early kind i url present early total finished outstanding =>
    cases kind with
    | video => exact (refreshes s' taken none).finished
    | image =>
      simp only [outstanding, finished, ne_eq, reduceCtorEq, not_false_eq_true, Function.update_of_ne] at none ⊢
      exact idle none
  | last kind i url present last total finished outstanding =>
    cases kind with
    | video => exact (refreshes s' taken none).finished
    | image =>
      simp only [outstanding, finished, ne_eq, reduceCtorEq, not_false_eq_true, Function.update_of_ne] at none ⊢
      exact idle none
  | unchanged event finishes asks total finished outstanding =>
    rw [finished]
    exact idle (outstanding ▸ none)

theorem behind_run {events : List BatchEvent} (ready : s.Ready) (behind : s.Behind)
    (admitted : Steps (step calendar resPath target) Admitted s events)
    (whole : run (step calendar resPath target) s events = some s') : s'.Behind := by
  have preserved : ∀ (s : Downloading) event s', s.Ready ∧ s.Behind → s.Admitted event →
      s.step calendar resPath target event = some s' → s'.Ready ∧ s'.Behind := by
    intro s event s' both admitted taken
    exact ⟨ready_step both.1 admitted taken, behind_step both.2 admitted (counted_of_step both.1 taken)⟩
  exact (run_invariant preserved ⟨ready, behind⟩ admitted whole).2

theorem idle_run {events : List BatchEvent} (ready : s.Ready)
    (idle : s.outstanding .video = [] → s.device.mFinishedTaskNum .video = 0)
    (admitted : Steps (step calendar resPath target) Admitted s events)
    (refreshes : Steps (step calendar resPath target) (Refreshes calendar resPath target) s events)
    (whole : run (step calendar resPath target) s events = some s') :
    s'.outstanding .video = [] → s'.device.mFinishedTaskNum .video = 0 := by
  induction events generalizing s with
  | nil => exact Option.some.inj whole ▸ idle
  | cons event rest ih =>
    obtain ⟨u, taken, whole⟩ := run_cons whole
    have idle' := idle_step idle refreshes.1 taken (counted_of_step ready taken)
    exact ih (ready_step ready admitted.1 taken) idle' (admitted.2 u taken) (refreshes.2 u taken) whole

/-- A run that is not behind at its end had no message while videos were outstanding. -/
theorem alone_run {events : List BatchEvent} (ready : s.Ready)
    (admitted : Steps (step calendar resPath target) Admitted s events)
    (whole : run (step calendar resPath target) s events = some s') (level : ¬ s'.Behind) :
    Steps (step calendar resPath target) Alone s events := by
  induction events generalizing s with
  | nil => trivial
  | cons event rest ih =>
    obtain ⟨u, taken, whole⟩ := run_cons whole
    have ready' := ready_step ready admitted.1 taken
    have later := ih ready' (admitted.2 u taken) whole
    refine Steps.cons ?_ taken later
    by_contra crowded
    have behind := behind_of_not_alone crowded admitted.1 (counted_of_step ready taken)
    exact level (behind_run ready' behind (admitted.2 u taken) whole)

theorem refreshes_run {events : List BatchEvent} (ready : s.Ready) (balanced : ∀ kind, s.Balanced kind)
    (admitted : Steps (step calendar resPath target) Admitted s events)
    (alone : Steps (step calendar resPath target) Alone s events) :
    Steps (step calendar resPath target) (Refreshes calendar resPath target) s events := by
  induction events generalizing s with
  | nil => trivial
  | cons event rest ih =>
    refine ⟨refreshes_of_balanced ready balanced, fun u taken => ?_⟩
    have balanced' := balanced_step balanced admitted.1 alone.1 (counted_of_step ready taken)
    exact ih (ready_step ready admitted.1 taken) balanced' (admitted.2 u taken) (alone.2 u taken)

/-- Over any messages, completions in any order, alarms and time, until all videos asked for
are complete: each last file of a kind refreshes the play list and the counters exactly if
every download message for videos comes when none is outstanding. -/
theorem refreshes_iff {events : List BatchEvent} (fresh : s.Fresh)
    (admitted : Steps (step calendar resPath target) Admitted s events)
    (whole : run (step calendar resPath target) s events = some s') (complete : s'.outstanding .video = []) :
    Steps (step calendar resPath target) (Refreshes calendar resPath target) s events ↔
      Steps (step calendar resPath target) Alone s events := by
  have ready : s.Ready := fun kind unfinished => absurd (fresh kind).1 unfinished
  constructor
  · intro refreshes
    apply alone_run ready admitted whole
    have idle := idle_run ready (fun _ => (fresh .video).2.2) admitted refreshes whole complete
    simp [Behind, complete, idle]
  · intro alone
    have balanced : ∀ kind, s.Balanced kind := by
      intro kind
      obtain ⟨outstanding, total, finished⟩ := fresh kind
      exact ⟨by rw [total]; exact Nat.zero_le _, fun _ => by simp [outstanding, total, finished], fun _ => finished⟩
    exact refreshes_run ready balanced admitted alone

instance (s : Downloading) : DecidablePred s.Admitted
  | .received kind message => inferInstanceAs (Decidable (message.indexPath = MessagePath.download kind →
      (s.device.lists kind).isSome = true ∧ ∀ files ∈ message.files, ∀ file ∈ files, file.isSome = true))
  | .finished .. => isTrue trivial
  | .created _ => isTrue trivial
  | .delivered _ => isTrue trivial
  | .ticked _ => isTrue trivial

instance (s : Downloading) : DecidablePred s.Alone
  | .received kind message => inferInstanceAs (Decidable (kind = .video →
      message.indexPath = MessagePath.download kind → message.files.isSome = true → s.outstanding kind = []))
  | .finished .. => isTrue trivial
  | .created _ => isTrue trivial
  | .delivered _ => isTrue trivial
  | .ticked _ => isTrue trivial

/-- A download message for some files on the server. -/
def downloadMessage (kind : MediaKind) (names : List String) : BatchEvent := .received kind
  { indexPath := MessagePath.download kind
    files := some (names.map fun name => some (ofString ("http://aokai.lymatrix.com/" ++ name))) }

/-- The files keep their names on the terminal. -/
def cameraTarget (_ : MediaKind) (url : JavaString) : JavaString := ofString "/sdcard/Camera/" ++ fileNameOf url

def twoControllers : List BatchEvent := [.created .video, .created .image]

/-- A message for videos after the first is complete, and one for images before. -/
def turns : List BatchEvent := twoControllers ++ [
  downloadMessage .video ["a.mp4", "b.mp4"], downloadMessage .image ["c.png", "d.png"], .finished .video 1,
  .finished .video 0, .finished .image 0, downloadMessage .image ["e.png"], downloadMessage .video ["f.mp4"],
  .finished .image 1, .finished .video 0, .finished .image 0]

theorem turns_refresh : Steps (step (.fixedOffset 28800) cameraPath cameraTarget)
    (Refreshes (.fixedOffset 28800) cameraPath cameraTarget) { device := emptyTerminal } turns := by
  have complete : ∃ s', run (step (.fixedOffset 28800) cameraPath cameraTarget) { device := emptyTerminal } turns =
      some s' ∧ s'.outstanding .video = [] := ⟨_, rfl, by decide +kernel⟩
  obtain ⟨s', whole, complete⟩ := complete
  exact (refreshes_iff (fun kind => ⟨rfl, rfl, rfl⟩) (by decide +kernel) whole complete).mpr (by decide +kernel)

/-- The second message for videos comes when one file of the first is still to complete. -/
def overlapping : List BatchEvent := twoControllers ++ [
  downloadMessage .video ["a.mp4", "b.mp4"], .finished .video 0, downloadMessage .video ["f.mp4"], .finished .video 0]

/-- The total is one by then and the count goes from one to three, past it. -/
theorem overlapping_not_refreshed : ¬ Steps (step (.fixedOffset 28800) cameraPath cameraTarget)
    (Refreshes (.fixedOffset 28800) cameraPath cameraTarget) { device := emptyTerminal }
      (overlapping ++ [.finished .video 0]) := by
  intro refreshes
  have count : ∃ s s', run (step (.fixedOffset 28800) cameraPath cameraTarget) { device := emptyTerminal } overlapping =
      some s ∧ step (.fixedOffset 28800) cameraPath cameraTarget s (.finished .video 0) = some s' ∧
      s'.outstanding .video = [] ∧ s'.device.mFinishedTaskNum .video = 3 :=
    ⟨_, _, rfl, rfl, by decide +kernel, by decide +kernel⟩
  obtain ⟨s, s', reached, taken, complete, three⟩ := count
  have zero := ((refreshes.append.2 s reached).1 s' taken complete).finished
  exact absurd (three.symm.trans zero) (by decide)

end Downloading

end AdTerminal.Schedule
