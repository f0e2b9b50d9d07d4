import AdTerminal.Strategy.UpdateRun

/-! Losing the process while one strategy is being taken over. The text is stored as soon
as its downloads have been started, so a restart that comes before they are complete
counts every file of the text as already present. -/

namespace AdTerminal.Strategy
open Transition ListUpdate AdMediaInfo FilePath

variable {terminal : Terminal} {w w' : World} {base served info : AdMediaInfo} {xmlText : String}

/-- The server keeps serving one text. -/
def Serves (xmlText : String) : Event → Prop
  | .fetched text => text = xmlText
  | _ => True

/-- The process is not lost while the text is stored and one of its downloads is still
under way. -/
def KilledSafely (xmlText : String) (w : World) : Event → Prop
  | .killed => w.xmlText = some xmlText →
      ∀ receiver ∈ w.receivers, ∀ kind, (receiver.batch kind).transferring = []
  | _ => True

/-- Every file of the strategy is completely present. -/
def AllPresent (terminal : Terminal) (files : Finset Place) (media : AdMediaInfo) : Prop :=
  ∀ kind file, media.LeadsTo terminal kind file → file ∈ files

/-- The strategy the terminal starts from agrees with the served one: the file of an id
both list is present under its served name, and the file of an id only the former lists
is none of the served files. -/
structure Compatible (terminal : Terminal) (files : Finset Place) (base served : AdMediaInfo) : Prop where
  kept : ∀ kind id file, id ∈ base.ids kind → served.place? terminal kind id = some file → file ∈ files
  dropped : ∀ kind id file, base.place? terminal kind id = some file → id ∉ served.ids kind →
    ∀ other, ¬ served.LeadsTo terminal other file

instance (terminal : Terminal) (files : Finset Place) (media : AdMediaInfo) : Decidable (AllPresent terminal files media) :=
  inferInstanceAs (Decidable (∀ kind file, media.LeadsTo terminal kind file → file ∈ files))

/-- A kind of media in force is still that of the start, or the served one with its files. -/
def HeldKind (terminal : Terminal) (info base served : AdMediaInfo) (files : Finset Place) (kind : MediaKind) : Prop :=
  info.container kind = base.container kind ∨
    info.container kind = served.container kind ∧ ∀ file, served.LeadsTo terminal kind file → file ∈ files

/-- What the receiver of a served text still has to bring, and what it may delete. -/
structure ServingBatch (terminal : Terminal) (base served : AdMediaInfo) (files : Finset Place)
    (receiver : MediaUpdateReceiver)
    (kind : MediaKind) : Prop where
  target : receiver.newMediaInfo = served
  fetched : ∀ file, served.LeadsTo terminal kind file →
    file ∈ files ∨ ∃ download ∈ (receiver.batch kind).transferring, download.file = file
  dropped : ∀ id ∈ (receiver.batch kind).deleteSet, id ∉ served.ids kind

/-- The invariant across process losses: whatever the stored text and the strategy in force
count as present is present or still being downloaded in this life of the process. -/
structure Recovering (terminal : Terminal) (base served : AdMediaInfo) (first : Option String) (xmlText : String)
    (w : World) :
    Prop where
  stored : w.xmlText = first ∨ w.xmlText = some xmlText
  saving : ∀ text, w.saving = some text → text = xmlText ∧ w.receivers ≠ []
  kept : ∀ kind id file, id ∈ base.ids kind → served.place? terminal kind id = some file → file ∈ w.files
  active : w.crashed = false → ∃ info, w.adMediaInfo = some info ∧ ∀ kind, HeldKind terminal info base served w.files kind
  receivers : ∀ receiver ∈ w.receivers, ∀ kind, ServingBatch terminal base served w.files receiver kind
  backed : w.xmlText = some xmlText → w.receivers ≠ [] ∨ AllPresent terminal w.files served

theorem ServingBatch.grow {files files' : Finset Place} {receiver : MediaUpdateReceiver} {kind : MediaKind}
    (batch : ServingBatch terminal base served files receiver kind)
    (grown : ∀ k file, served.LeadsTo terminal k file → file ∈ files → file ∈ files') :
    ServingBatch terminal base served files' receiver kind :=
  ⟨batch.target, fun file named => (batch.fetched file named).imp_left (grown kind file named), batch.dropped⟩

theorem HeldKind.grow {files files' : Finset Place} {kind : MediaKind}
    (held : HeldKind terminal info base served files kind)
    (grown : ∀ k file, served.LeadsTo terminal k file → file ∈ files → file ∈ files') :
    HeldKind terminal info base served files' kind :=
  held.imp_right fun both => ⟨both.1, fun file named => grown kind file named (both.2 file named)⟩

theorem servingBatch_process {files : Finset Place} {kind : MediaKind} {receiver : MediaUpdateReceiver}
    (kept : ∀ kind id file, id ∈ base.ids kind → served.place? terminal kind id = some file → file ∈ files)
    (held : HeldKind terminal info base served files kind) (target : receiver.newMediaInfo = served)
    (batches : receiver.batch = process terminal info served) :
    ServingBatch terminal base served files receiver kind := by
  refine ⟨target, ?_, ?_⟩
  · intro file named
    rcases held with same | ⟨-, present⟩
    · obtain ⟨id, found⟩ := named
      by_cases known : id ∈ base.ids kind
      · exact Or.inl (kept kind id file known found)
      · refine Or.inr ⟨startDownload terminal served kind id, ?_, file_startDownload found⟩
        rw [batches]
        apply List.mem_map_of_mem
        exact mem_getSetDifference.mpr ⟨(mem_ids_place terminal).mpr ⟨file, found⟩, ids_congr same ▸ known⟩
    · exact Or.inl (present file named)
  · intro id member
    rw [batches, mem_deleteSet] at member
    exact member.2

/-- A step of one batch that deletes no more and loses no file still to be brought. -/
theorem servingBatch_set {files files' : Finset Place} {i : Nat} {receiver : MediaUpdateReceiver}
    {kind : MediaKind} {batch : Batch} (present : w.receivers[i]? = some receiver)
    (batches : ∀ r ∈ w.receivers, ∀ k, ServingBatch terminal base served files r k)
    (grown : ∀ k file, served.LeadsTo terminal k file → file ∈ files → file ∈ files')
    (arriving : ∀ download ∈ (receiver.batch kind).transferring,
      download.file ∈ files' ∨ download ∈ batch.transferring)
    (deleteSet : batch.deleteSet = (receiver.batch kind).deleteSet) :
    ∀ r ∈ w.receivers.set i (receiver.setBatch kind batch), ∀ k, ServingBatch terminal base served files' r k := by
  intro r member k
  have touched := batches receiver (List.mem_of_getElem? present)
  rcases List.mem_or_eq_of_mem_set member with old | rfl
  · exact (batches r old k).grow grown
  by_cases same : k = kind
  · subst same
    refine ⟨(touched k).target, ?_, ?_⟩
    · intro file named
      simp only [MediaUpdateReceiver.setBatch, Function.update_self]
      rcases (touched k).fetched file named with held | ⟨download, under, rfl⟩
      · exact Or.inl (grown k file named held)
      · exact (arriving download under).imp_right fun still => ⟨download, still, rfl⟩
    · simp only [MediaUpdateReceiver.setBatch, Function.update_self, deleteSet]
      exact (touched k).dropped
  · have other := (touched k).grow grown
    refine ⟨other.target, ?_, ?_⟩
    · simpa only [MediaUpdateReceiver.setBatch, Function.update_of_ne same] using other.fetched
    · simpa only [MediaUpdateReceiver.setBatch, Function.update_of_ne same] using other.dropped

theorem recovering_fetched {first : Option String} (recovering : Recovering terminal base served first xmlText w)
    (parsed : parseXmlFromText terminal.parseText xmlText = .ok (some served))
    (taken : step terminal w (.fetched xmlText) = some w') :
    Recovering terminal base served first xmlText w' := by
  obtain ⟨free, rfl⟩ := step_fetched taken
  obtain ⟨info, active, held⟩ := recovering.active free.1
  rw [handler_of_parsed parsed active]
  refine ⟨recovering.stored, ?_, recovering.kept, fun _ => ⟨info, active, held⟩, ?_, ?_⟩
  · intro text same
    exact ⟨(Option.some.inj same).symm, List.append_ne_nil_of_right_ne_nil _ (List.cons_ne_nil _ _)⟩
  · intro receiver member k
    rcases List.mem_append.mp member with old | new
    · exact recovering.receivers receiver old k
    · obtain rfl := List.mem_singleton.mp new
      exact servingBatch_process recovering.kept (held k) rfl rfl
  · exact fun _ => Or.inl (List.append_ne_nil_of_right_ne_nil _ (List.cons_ne_nil _ _))

theorem recovering_transferred {first : Option String} {i n : Nat} {kind : MediaKind}
    (recovering : Recovering terminal base served first xmlText w)
    (taken : step terminal w (.transferred i kind n) = some w') :
    Recovering terminal base served first xmlText w' := by
  obtain ⟨receiver, download, alive, present, under, rfl⟩ := step_transferred taken
  have grown : ∀ file, file ∈ w.files → file ∈ insert download.file w.files :=
    fun file held => Finset.mem_insert_of_mem held
  have nonempty := set_ne_nil (b := receiver.setBatch kind ((receiver.batch kind).transferred n download)) present
  have arriving : ∀ d ∈ (receiver.batch kind).transferring, d.file ∈ insert download.file w.files ∨
      d ∈ ((receiver.batch kind).transferred n download).transferring := by
    intro d member
    rcases mem_of_erased under member with rfl | still
    · exact Or.inl (Finset.mem_insert_self _ _)
    · exact Or.inr still
  refine ⟨recovering.stored, ?_, ?_, ?_, ?_, fun _ => Or.inl nonempty⟩
  · exact fun text same => ⟨(recovering.saving text same).1, nonempty⟩
  · exact fun k id file known found => grown file (recovering.kept k id file known found)
  · intro _
    obtain ⟨info, active, held⟩ := recovering.active alive
    exact ⟨info, active, fun k => (held k).grow fun _ file _ => grown file⟩
  · exact servingBatch_set present recovering.receivers (fun _ file _ => grown file) arriving rfl

/-- The delete loop spares the served files: an id it looks up is not served, so in the old
container it has a dropped file and in the served one it is not found at all. -/
theorem served_spared {receiver : MediaUpdateReceiver} {kind : MediaKind} {files : Finset Place}
    (apart : ∀ kind id file, base.place? terminal kind id = some file → id ∉ served.ids kind →
      ∀ other, ¬ served.LeadsTo terminal other file)
    (held : HeldKind terminal info base served files kind) (batch : ServingBatch terminal base served files receiver kind)
    (k : MediaKind) (file : Place) (named : served.LeadsTo terminal k file) (present : file ∈ files) :
    file ∈ (deleteFiles terminal info kind (receiver.batch kind).deleteSet files).1 := by
  apply mem_deleteFiles present
  intro id member found
  have unserved := batch.dropped id member
  rcases held with same | ⟨same, -⟩
  · exact apart kind id file (place?_congr same id ▸ found) unserved k named
  · rw [place?_congr same, place?_eq_none.mpr unserved] at found
    cases found

theorem recovering_reported {first : Option String} {i n : Nat} {kind : MediaKind}
    (recovering : Recovering terminal base served first xmlText w) (counted : w.Counted)
    (apart : ∀ kind id file, base.place? terminal kind id = some file → id ∉ served.ids kind →
      ∀ other, ¬ served.LeadsTo terminal other file)
    (taken : step terminal w (.reported i kind n) = some w') :
    Recovering terminal base served first xmlText w' := by
  obtain ⟨receiver, download, free, present, waiting, rfl⟩ := step_reported taken
  obtain ⟨info, active, held⟩ := recovering.active free.1
  have nonempty := set_ne_nil (b := receiver.setBatch kind ((receiver.batch kind).reported n)) present
  by_cases last : (receiver.batch kind).totalTaskNum ≤ (receiver.batch kind).finishedNum + 1
  · have batch := recovering.receivers receiver (List.mem_of_getElem? present) kind
    have spared := served_spared apart (held kind) batch
    have finished : (receiver.batch kind).transferring = [] :=
      ((counted i receiver present kind).last waiting last).1
    rw [onDownloadFinished_last active last]
    refine ⟨recovering.stored, ?_, ?_, ?_, ?_, fun _ => Or.inl nonempty⟩
    · exact fun text same => ⟨(recovering.saving text same).1, nonempty⟩
    · exact fun k id file known found => spared k file ⟨id, found⟩ (recovering.kept k id file known found)
    · intro _
      refine ⟨_, rfl, fun k => ?_⟩
      by_cases switched : k = kind
      · subst switched
        refine Or.inr ⟨by rw [container_setContainer_self, batch.target], fun file named => ?_⟩
        apply spared k file named
        rcases batch.fetched file named with held | ⟨d, member, -⟩
        · exact held
        · simp [finished] at member
      · have same := container_setContainer_other info switched (receiver.newMediaInfo.container kind)
        rcases (held k).grow spared with old | ⟨new, all⟩
        · exact Or.inl (same.trans old)
        · exact Or.inr ⟨same.trans new, all⟩
    · exact servingBatch_set present recovering.receivers spared (fun d member => Or.inr member) rfl
  · rw [onDownloadFinished_early last]
    refine ⟨recovering.stored, ?_, recovering.kept, fun _ => ⟨info, active, held⟩, ?_, fun _ => Or.inl nonempty⟩
    · exact fun text same => ⟨(recovering.saving text same).1, nonempty⟩
    · exact servingBatch_set present recovering.receivers (fun _ _ _ held => held)
        (fun d member => Or.inr member) rfl

theorem restart_some {text : String} {files : Finset Place} {media : AdMediaInfo}
    (parsed : parseXmlFromText terminal.parseText text = .ok (some media)) :
    restart terminal (some text) files = { adMediaInfo := some media, xmlText := some text, files } := by
  simp only [restart, parsed]

/-- Whether a terminal comes up again does not depend on the files it finds. -/
theorem restart_files (xmlText : Option String) (files files' : Finset Place) :
    restart terminal xmlText files' = { restart terminal xmlText files with files := files' } := by
  cases xmlText with
  | none => rfl
  | some text =>
    simp only [restart]
    split <;> rfl

/-- A restart finds the start again, or the served strategy with all its files. -/
theorem recovering_killed {first : Option String} (recovering : Recovering terminal base served first xmlText w)
    (parsed : parseXmlFromText terminal.parseText xmlText = .ok (some served))
    (boot : (restart terminal first w.files).crashed = false ∧
      (restart terminal first w.files).adMediaInfo = some base)
    (complete : w.xmlText = some xmlText → ∀ receiver ∈ w.receivers, ∀ kind,
      (receiver.batch kind).transferring = []) :
    Recovering terminal base served first xmlText (restart terminal w.xmlText w.files) := by
  have files : (restart terminal w.xmlText w.files).files = w.files := by
    rw [restart_files w.xmlText ∅ w.files]
  have all : w.xmlText = some xmlText → AllPresent terminal w.files served := by
    intro stored
    rcases recovering.backed stored with nonempty | all
    · obtain ⟨receiver, member⟩ := List.exists_mem_of_ne_nil _ nonempty
      intro kind file named
      rcases (recovering.receivers receiver member kind).fetched file named with held | ⟨d, under, -⟩
      · exact held
      · simp [complete stored receiver member kind] at under
    · exact all
  refine ⟨by rw [xmlText_restart]; exact recovering.stored, by simp [saving_restart], ?_, ?_, ?_, ?_⟩
  · rw [files]
    exact recovering.kept
  · intro _
    rw [files]
    rcases recovering.stored with start | stored
    · rw [start]
      exact ⟨base, boot.2, fun kind => Or.inl rfl⟩
    · rw [stored, restart_some parsed]
      exact ⟨served, rfl, fun kind => Or.inr ⟨rfl, all stored kind⟩⟩
  · simp [receivers_restart]
  · rw [xmlText_restart, files]
    exact fun stored => Or.inr (all stored)

theorem recovering_step {first : Option String} {files : Finset Place} {e : Event}
    (inv : Recovering terminal base served first xmlText w ∧ w.Counted)
    (ok : Serves xmlText e ∧ KilledSafely xmlText w e)
    (parsed : parseXmlFromText terminal.parseText xmlText = .ok (some served))
    (boot : (restart terminal first files).crashed = false ∧
      (restart terminal first files).adMediaInfo = some base)
    (compatible : Compatible terminal files base served) (taken : step terminal w e = some w') :
    Recovering terminal base served first xmlText w' ∧ w'.Counted := by
  obtain ⟨recovering, counted⟩ := inv
  refine ⟨?_, counted_step counted taken⟩
  cases e with
  | polled scheduleId =>
    obtain ⟨free, rfl⟩ := step_polled taken
    obtain ⟨info, active, held⟩ := recovering.active free.1
    rw [webRequest_of_active active]
    refine ⟨recovering.stored, recovering.saving, recovering.kept, fun _ => ⟨_, rfl, ?_⟩,
      recovering.receivers, recovering.backed⟩
    intro kind
    rw [HeldKind, container_resolution]
    exact held kind
  | fetched text =>
    obtain rfl : text = xmlText := ok.1
    exact recovering_fetched recovering parsed taken
  | saved =>
    obtain ⟨text, alive, saving, rfl⟩ := step_saved taken
    obtain ⟨rfl, nonempty⟩ := recovering.saving text saving
    exact ⟨Or.inr rfl, fun _ absent => (nomatch absent), recovering.kept, recovering.active,
      recovering.receivers, fun _ => Or.inl nonempty⟩
  | transferred i kind n => exact recovering_transferred recovering taken
  | reported i kind n => exact recovering_reported recovering counted compatible.dropped taken
  | killed =>
    obtain rfl := Option.some.inj taken
    apply recovering_killed recovering parsed ?_ ok.2
    rw [restart_files first files w.files]
    exact boot

/-- A server with one strategy of one video and one image. -/
def servingTerminal : Terminal := terminalFor [("served", strategyElement [("1", "a.mp4")] [("2", "b.png")])]

def emptyTerminal : World := restart servingTerminal none ∅

/-- A terminal with neither a stored text nor any file is compatible with every strategy. -/
theorem compatible_empty (files : Finset Place) (served : AdMediaInfo) : Compatible terminal files {} served where
  kept kind id file listed _ := by cases kind <;> exact absurd listed List.not_mem_nil
  dropped kind id file found := by cases kind <;> cases found

end AdTerminal.Strategy
