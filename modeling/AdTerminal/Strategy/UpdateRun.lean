import AdTerminal.Library.ListUpdate
import AdTerminal.Strategy.MediaUpdateReceiver

/-! What one step of an update can do: an inversion lemma for each event, and the facts
about batches, the diff and the delete loop that the results on whole runs share. -/

namespace AdTerminal.Strategy
open Transition ListUpdate FilePath

variable {terminal : Terminal} {w w' : World}

theorem step_polled {scheduleId : String} (taken : step terminal w (.polled scheduleId) = some w') :
    w.MainFree ∧ w' = webRequestHandler w scheduleId := by
  simp only [step, Option.ite_none_right_eq_some, Option.some.injEq] at taken
  exact ⟨taken.1, taken.2.symm⟩

theorem step_fetched {xmlText : String} (taken : step terminal w (.fetched xmlText) = some w') :
    w.MainFree ∧ w' = mediaStrategyUpdateHandler terminal w xmlText := by
  simp only [step, Option.ite_none_right_eq_some, Option.some.injEq] at taken
  exact ⟨taken.1, taken.2.symm⟩

theorem step_saved (taken : step terminal w .saved = some w') :
    ∃ text, w.crashed = false ∧ w.saving = some text ∧
      w' = { w with xmlText := some text, saving := none } := by
  simp only [step, Option.ite_none_left_eq_some, Option.map_eq_some_iff] at taken
  obtain ⟨alive, text, saving, same⟩ := taken
  exact ⟨text, by simpa using alive, saving, same.symm⟩

theorem step_transferred {i n : Nat} {kind : MediaKind}
    (taken : step terminal w (.transferred i kind n) = some w') :
    ∃ receiver download, w.crashed = false ∧ w.receivers[i]? = some receiver ∧
      (receiver.batch kind).transferring[n]? = some download ∧
      w' = { w with
        receivers := w.receivers.set i
          (receiver.setBatch kind ((receiver.batch kind).transferred n download))
        files := insert download.file w.files } := by
  simp only [step, Option.ite_none_left_eq_some, Option.bind_eq_bind, Option.bind_eq_some_iff,
    Option.pure_def, Option.some.injEq] at taken
  obtain ⟨alive, receiver, present, download, under, same⟩ := taken
  exact ⟨receiver, download, by simpa using alive, present, under, same.symm⟩

theorem step_reported {i n : Nat} {kind : MediaKind}
    (taken : step terminal w (.reported i kind n) = some w') :
    ∃ receiver download, w.MainFree ∧ w.receivers[i]? = some receiver ∧
      (receiver.batch kind).arrived[n]? = some download ∧
      w' = onDownloadFinished (downloadFinished terminal kind) kind w i receiver n := by
  simp only [step, Option.ite_none_right_eq_some, Option.bind_eq_bind, Option.bind_eq_some_iff,
    Option.pure_def, Option.some.injEq] at taken
  obtain ⟨free, receiver, present, download, waiting, same⟩ := taken
  refine ⟨receiver, download, free, present, waiting, ?_⟩
  cases kind <;> exact same.symm

theorem handler_of_parsed {xmlText : String} {newMedia oldMedia : AdMediaInfo}
    (parsed : parseXmlFromText terminal.parseText xmlText = .ok (some newMedia))
    (active : w.adMediaInfo = some oldMedia) :
    mediaStrategyUpdateHandler terminal w xmlText = { w with
      receivers := w.receivers ++ [{ newMediaInfo := newMedia, batch := process terminal oldMedia newMedia,
                                     against := w.owner }]
      saving := some xmlText } := by
  simp only [mediaStrategyUpdateHandler, parsed, active]

/-- A text is handled when it parses and a strategy is in force, and else the handler throws. -/
theorem handler_cases (terminal : Terminal) (w : World) (xmlText : String) :
    (∃ newMedia oldMedia, parseXmlFromText terminal.parseText xmlText = .ok (some newMedia) ∧
        w.adMediaInfo = some oldMedia) ∨
      mediaStrategyUpdateHandler terminal w xmlText = { w with crashed := true } := by
  unfold mediaStrategyUpdateHandler
  split
  next newMedia oldMedia parsed active => exact Or.inl ⟨newMedia, oldMedia, parsed, active⟩
  next => exact Or.inr rfl

theorem webRequest_of_active {scheduleId : String} {info : AdMediaInfo} (active : w.adMediaInfo = some info) :
    webRequestHandler w scheduleId =
      { w with adMediaInfo := some { info with resolution := some scheduleId } } := by
  simp only [webRequestHandler, active]

/-- A completion that is not the last one only counts. -/
theorem onDownloadFinished_early {kind : MediaKind} {i n : Nat} {receiver : MediaUpdateReceiver}
    (early : ¬ (receiver.batch kind).totalTaskNum ≤ (receiver.batch kind).finishedNum + 1) :
    onDownloadFinished (downloadFinished terminal kind) kind w i receiver n = { w with
      receivers := w.receivers.set i (receiver.setBatch kind ((receiver.batch kind).reported n)) } := by
  exact if_neg early

/-- The last completion counts, switches the container over and runs the delete loop on
the container it replaced. -/
theorem onDownloadFinished_last {kind : MediaKind} {i n : Nat} {receiver : MediaUpdateReceiver}
    {info : AdMediaInfo} (active : w.adMediaInfo = some info)
    (last : (receiver.batch kind).totalTaskNum ≤ (receiver.batch kind).finishedNum + 1) :
    onDownloadFinished (downloadFinished terminal kind) kind w i receiver n = { w with
      receivers := w.receivers.set i (receiver.setBatch kind ((receiver.batch kind).reported n))
      adMediaInfo := some (info.setContainer kind (receiver.newMediaInfo.container kind))
      owner := Function.update w.owner kind (i + 1)
      files := (deleteFiles terminal info kind (receiver.batch kind).deleteSet w.files).1
      crashed := (deleteFiles terminal info kind (receiver.batch kind).deleteSet w.files).2 } := by
  apply (if_pos last).trans
  simp only [downloadFinished, active, MediaUpdateReceiver.setBatch, Function.update_self, Batch.reported]

/-- After one batch of one receiver has changed, every batch is either that one or the one
it was. -/
theorem batch_after {receivers : List MediaUpdateReceiver} {i j : Nat} {receiver r : MediaUpdateReceiver}
    {kind : MediaKind} {batch : Batch} (present : receivers[i]? = some receiver)
    (found : (receivers.set i (receiver.setBatch kind batch))[j]? = some r) :
    ∃ r₀, receivers[j]? = some r₀ ∧ r.newMediaInfo = r₀.newMediaInfo ∧ r.against = r₀.against ∧
      ∀ k, (j = i ∧ k = kind ∧ r₀ = receiver ∧ r.batch k = batch) ∨
        (¬(j = i ∧ k = kind) ∧ r.batch k = r₀.batch k) := by
  rcases mem_set_cases found with ⟨same, equal⟩ | ⟨different, before⟩
  · subst same equal
    refine ⟨receiver, present, rfl, rfl, fun k => ?_⟩
    by_cases touched : k = kind
    · subst touched
      exact Or.inl ⟨rfl, rfl, rfl, Function.update_self ..⟩
    · exact Or.inr ⟨fun both => touched both.2, Function.update_of_ne touched ..⟩
  · exact ⟨r, before, rfl, rfl, fun k => Or.inr ⟨fun both => different both.1, rfl⟩⟩

namespace Batch

/-- The counters agree with the downloads still to be reported. -/
def Counted (batch : Batch) : Prop :=
  batch.totalTaskNum = batch.downloadSet.length ∧
    batch.finishedNum + batch.transferring.length + batch.arrived.length = batch.totalTaskNum

theorem Counted.transferred {batch : Batch} (counted : batch.Counted) {n : Nat} {download : Download}
    (under : batch.transferring[n]? = some download) : (batch.transferred n download).Counted := by
  obtain ⟨bound, -⟩ := List.getElem?_eq_some_iff.mp under
  refine ⟨counted.1, ?_⟩
  have total := counted.2
  simp only [Batch.transferred, List.length_eraseIdx_of_lt bound, List.length_append, List.length_singleton]
  omega

theorem Counted.reported {batch : Batch} (counted : batch.Counted) {n : Nat} {download : Download}
    (waiting : batch.arrived[n]? = some download) : (batch.reported n).Counted := by
  obtain ⟨bound, -⟩ := List.getElem?_eq_some_iff.mp waiting
  refine ⟨counted.1, ?_⟩
  have total := counted.2
  simp only [Batch.reported, List.length_eraseIdx_of_lt bound]
  omega

/-- A download that waits to be reported keeps the batch from being finished. -/
theorem Counted.pending {batch : Batch} (counted : batch.Counted) {n : Nat} {download : Download}
    (waiting : batch.arrived[n]? = some download) :
    0 < batch.totalTaskNum ∧ batch.finishedNum < batch.totalTaskNum := by
  obtain ⟨bound, -⟩ := List.getElem?_eq_some_iff.mp waiting
  have total := counted.2
  omega

/-- The completion that reaches the total leaves nothing under way. -/
theorem Counted.last {batch : Batch} (counted : batch.Counted) {n : Nat} {download : Download}
    (waiting : batch.arrived[n]? = some download) (last : batch.totalTaskNum ≤ batch.finishedNum + 1) :
    (batch.reported n).Settled := by
  obtain ⟨bound, -⟩ := List.getElem?_eq_some_iff.mp waiting
  have total := counted.2
  refine ⟨List.eq_nil_of_length_eq_zero (by change batch.transferring.length = 0; omega), ?_⟩
  apply List.eq_nil_of_length_eq_zero
  simp only [Batch.reported, List.length_eraseIdx_of_lt bound]
  omega

theorem Counted.finished_of_settled {batch : Batch} (counted : batch.Counted) (settled : batch.Settled) :
    batch.finishedNum = batch.totalTaskNum := by
  have total := counted.2
  simpa only [settled.1, settled.2, List.length_nil, Nat.add_zero] using total

end Batch

theorem process_counted (oldMedia newMedia : AdMediaInfo) (kind : MediaKind) :
    (process terminal oldMedia newMedia kind).Counted :=
  ⟨rfl, by simp [process]⟩

theorem mem_downloadSet {oldMedia newMedia : AdMediaInfo} {kind : MediaKind} {id : Text} :
    id ∈ (process terminal oldMedia newMedia kind).downloadSet ↔
      id ∈ newMedia.ids kind ∧ id ∉ oldMedia.ids kind :=
  mem_getSetDifference

theorem mem_deleteSet {oldMedia newMedia : AdMediaInfo} {kind : MediaKind} {id : Text} :
    id ∈ (process terminal oldMedia newMedia kind).deleteSet ↔
      id ∈ oldMedia.ids kind ∧ id ∉ newMedia.ids kind :=
  mem_getSetDifference

/-- The download started for an id takes the name the strategy gives for it. -/
theorem fileName_startDownload (terminal : Terminal) {newMedia : AdMediaInfo} {kind : MediaKind} {id : Text}
    {name : String} (named : newMedia.file? kind id = some name) :
    Text.shown (startDownload terminal newMedia kind id).fileName = name := by
  obtain ⟨entry, found, shown⟩ := Option.map_eq_some_iff.mp named
  simpa only [startDownload, found, Option.bind_some] using shown

/-- So it writes the file which that name leads to. -/
theorem file_startDownload {newMedia : AdMediaInfo} {kind : MediaKind} {id : Text} {file : Place}
    (named : newMedia.place? terminal kind id = some file) :
    (startDownload terminal newMedia kind id).file = file := by
  obtain ⟨name, listed, rfl⟩ := Option.map_eq_some_iff.mp named
  rw [Download.file, fileName_startDownload terminal listed]
  exact (terminal.place_eq name).symm

/-- A batch has work exactly when the new strategy lists an id the old one lacks. -/
theorem process_total_pos {oldMedia newMedia : AdMediaInfo} {kind : MediaKind} :
    0 < (process terminal oldMedia newMedia kind).totalTaskNum ↔
      ∃ id ∈ newMedia.ids kind, id ∉ oldMedia.ids kind := by
  change 0 < (process terminal oldMedia newMedia kind).downloadSet.length ↔ _
  simp only [List.length_pos_iff_exists_mem, mem_downloadSet]

/-- The delete loop throws exactly when some id of its set is not listed. -/
theorem deleteFiles_throws {info : AdMediaInfo} {kind : MediaKind} {ids : List Text} {files : Finset Place} :
    (deleteFiles terminal info kind ids files).2 = true ↔ ∃ id ∈ ids, id ∉ info.ids kind := by
  induction ids generalizing files with
  | nil => simp [deleteFiles]
  | cons id rest ih =>
    cases named : info.place? terminal kind id with
    | none => simp [deleteFiles, named, AdMediaInfo.place?_eq_none.mp named]
    | some file =>
      have listed : id ∈ info.ids kind := (AdMediaInfo.mem_ids_place terminal).mpr ⟨file, named⟩
      simp [deleteFiles, named, ih, listed]

/-- The delete loop only takes away files its container names under an id of the set. -/
theorem mem_deleteFiles {info : AdMediaInfo} {kind : MediaKind} {ids : List Text} {files : Finset Place}
    {file : Place} (present : file ∈ files) (spared : ∀ id ∈ ids, info.place? terminal kind id ≠ some file) :
    file ∈ (deleteFiles terminal info kind ids files).1 := by
  induction ids generalizing files with
  | nil => exact present
  | cons id rest ih =>
    have others := fun id member => spared id (List.mem_cons_of_mem _ member)
    cases named : info.place? terminal kind id with
    | none => simpa [deleteFiles, named] using present
    | some other =>
      have different : file ≠ other := fun same => spared id List.mem_cons_self (same ▸ named)
      simpa [deleteFiles, named] using ih (Finset.mem_erase.mpr ⟨different, present⟩) others

/-- Every batch of every receiver is counted. -/
def World.Counted (w : World) : Prop :=
  ∀ (j : Nat) (receiver : MediaUpdateReceiver), w.receivers[j]? = some receiver →
    ∀ kind, (receiver.batch kind).Counted

theorem counted_set {i : Nat} {receiver : MediaUpdateReceiver} {kind : MediaKind} {batch : Batch}
    (counted : w.Counted) (present : w.receivers[i]? = some receiver) (new : batch.Counted)
    (receivers : w'.receivers = w.receivers.set i (receiver.setBatch kind batch)) : w'.Counted := by
  intro j r found k
  rw [receivers] at found
  obtain ⟨r₀, before, -, -, batches⟩ := batch_after present found
  rcases batches k with ⟨-, -, -, same⟩ | ⟨-, same⟩
  · exact same ▸ new
  · exact same ▸ counted j r₀ before k

theorem receivers_onDownloadFinished {kind : MediaKind} {i n : Nat} {receiver : MediaUpdateReceiver} :
    (onDownloadFinished (downloadFinished terminal kind) kind w i receiver n).receivers =
      w.receivers.set i (receiver.setBatch kind ((receiver.batch kind).reported n)) := by
  simp only [onDownloadFinished, downloadFinished]
  split
  · split <;> rfl
  · rfl

theorem receivers_handler (terminal : Terminal) (w : World) (xmlText : String) :
    (mediaStrategyUpdateHandler terminal w xmlText).receivers = w.receivers ∨
      ∃ newMedia oldMedia, (mediaStrategyUpdateHandler terminal w xmlText).receivers = w.receivers ++
        [{ newMediaInfo := newMedia, batch := process terminal oldMedia newMedia, against := w.owner }] := by
  unfold mediaStrategyUpdateHandler
  split
  · exact Or.inr ⟨_, _, rfl⟩
  · exact Or.inl rfl

theorem receivers_webRequest {scheduleId : String} :
    (webRequestHandler w scheduleId).receivers = w.receivers := by
  unfold webRequestHandler
  split <;> rfl

theorem receivers_restart {xmlText : Option String} {files : Finset Place} :
    (restart terminal xmlText files).receivers = [] := by
  unfold restart
  split
  · rfl
  · split <;> rfl

theorem xmlText_restart (xmlText : Option String) (files : Finset Place) :
    (restart terminal xmlText files).xmlText = xmlText := by
  cases xmlText with
  | none => rfl
  | some text =>
    simp only [restart]
    split <;> rfl

theorem saving_restart (xmlText : Option String) (files : Finset Place) :
    (restart terminal xmlText files).saving = none := by
  cases xmlText with
  | none => rfl
  | some text =>
    simp only [restart]
    split <;> rfl

theorem counted_restart (xmlText : Option String) (files : Finset Place) :
    (restart terminal xmlText files).Counted := by
  intro j receiver found
  simp [receivers_restart] at found

theorem counted_step {e : Event} (counted : w.Counted) (taken : step terminal w e = some w') :
    w'.Counted := by
  cases e with
  | polled scheduleId =>
    obtain ⟨-, rfl⟩ := step_polled taken
    intro j receiver found
    exact counted j receiver (receivers_webRequest ▸ found)
  | fetched xmlText =>
    obtain ⟨-, rfl⟩ := step_fetched taken
    intro j receiver found
    rcases receivers_handler terminal w xmlText with same | ⟨newMedia, oldMedia, same⟩
    · exact counted j receiver (same ▸ found)
    · rw [same] at found
      rcases mem_append_cases found with old | ⟨-, rfl⟩
      · exact counted j receiver old
      · exact process_counted oldMedia newMedia
  | saved =>
    obtain ⟨text, -, -, rfl⟩ := step_saved taken
    exact counted
  | transferred i kind n =>
    obtain ⟨receiver, download, -, present, under, rfl⟩ := step_transferred taken
    exact counted_set counted present ((counted i receiver present kind).transferred under) rfl
  | reported i kind n =>
    obtain ⟨receiver, download, -, present, waiting, rfl⟩ := step_reported taken
    exact counted_set counted present ((counted i receiver present kind).reported waiting)
      receivers_onDownloadFinished
  | killed =>
    obtain rfl := Option.some.inj taken
    exact counted_restart w.xmlText w.files

/-! Strategy documents with given ids and file names, to run the code on. -/

def fileElement (entry : String × String) : Element :=
  .node "file" [("id", entry.1), ("file", entry.2)] []

def strategyElement (videos images : List (String × String)) : Element :=
  .node "strategy" [] [
    .node "files" [] [.node "media" [] (videos.map fileElement), .node "pic" [] (images.map fileElement)],
    .node "media_play" [] [],
    .node "pic_play" [] []]

/-- A terminal whose parser knows the given texts. -/
def terminalFor (documents : List (String × Element)) : Terminal where
  fileServer := "http://aokai.lymatrix.com/media/"
  mediaPath := "/Ad_Video/"
  parseText := fun text => documents.lookup text
  trailing := ⟨"/Ad_Video", rfl⟩

example : (terminalFor []).place "./x/../a.mp4" = (terminalFor []).place "a.mp4" := by decide

/-- The files that some names lead to. -/
def Terminal.places (terminal : Terminal) (names : List String) : Finset Place :=
  (names.map terminal.place).toFinset

end AdTerminal.Strategy
