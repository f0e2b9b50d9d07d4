import AdTerminal.Strategy.UpdateRun

/-! Updates one after another, and the files of the strategy in force. What is downloaded
and what is deleted is decided by ids, what is played by file names; the files stay
present as long as the two agree on each update. -/

namespace AdTerminal.Strategy
open Transition ListUpdate AdMediaInfo FilePath

variable {terminal : Terminal} {w w' : World} {oldMedia newMedia info : AdMediaInfo}

/-- Every file the strategy in force names has been downloaded and not been deleted since. -/
def World.FilesPresent (terminal : Terminal) (w : World) : Prop :=
  ∀ info, w.adMediaInfo = some info → ∀ kind file, info.LeadsTo terminal kind file → file ∈ w.files

instance (terminal : Terminal) (w : World) : Decidable (w.FilesPresent terminal) :=
  match active : w.adMediaInfo with
  | none => isTrue fun _ other => nomatch active.symm.trans other
  | some info => decidable_of_iff (∀ kind file, info.LeadsTo terminal kind file → file ∈ w.files) (by
      simp only [World.FilesPresent, active, Option.some.injEq, forall_eq'])

/-- The update has something to download for that kind, and will therefore switch it over. -/
def Adds (oldMedia newMedia : AdMediaInfo) (kind : MediaKind) : Prop :=
  ∃ id ∈ newMedia.ids kind, id ∉ oldMedia.ids kind

/-- When ids and file names agree on an update, for each kind it will switch over: a file
the new strategy names is on disk or belongs to an id that is downloaded, and the file of
an id that is dropped is named neither by the new strategy for that kind, nor for the
other kind by the old strategy or by the new one if that kind is switched over as well. -/
def Coherent (terminal : Terminal) (files : Finset Place) (oldMedia newMedia : AdMediaInfo) : Prop :=
  ∀ kind, Adds oldMedia newMedia kind →
    (∀ file, newMedia.LeadsTo terminal kind file →
      file ∈ files ∨ ∃ id, id ∉ oldMedia.ids kind ∧ newMedia.place? terminal kind id = some file) ∧
    ∀ id file, oldMedia.place? terminal kind id = some file → id ∉ newMedia.ids kind →
      ¬ newMedia.LeadsTo terminal kind file ∧ ∀ other, other ≠ kind → ¬ oldMedia.LeadsTo terminal other file ∧
        (Adds oldMedia newMedia other → ¬ newMedia.LeadsTo terminal other file)

instance (oldMedia newMedia : AdMediaInfo) (kind : MediaKind) : Decidable (Adds oldMedia newMedia kind) :=
  inferInstanceAs (Decidable (∃ id ∈ newMedia.ids kind, id ∉ oldMedia.ids kind))

/-- Updates run one after another, each to an arbitrary strategy and without losing the process. -/
def OneByOne (terminal : Terminal) (w : World) : Event → Prop
  | .fetched xmlText => w.Settled ∧ ∃ newMedia, parseXmlFromText terminal.parseText xmlText = .ok (some newMedia)
  | .killed => False
  | _ => True

/-- The update a fetched text starts is coherent with the strategy in force. -/
def StartsCoherent (terminal : Terminal) (w : World) : Event → Prop
  | .fetched xmlText => ∀ oldMedia newMedia, w.adMediaInfo = some oldMedia →
      parseXmlFromText terminal.parseText xmlText = .ok (some newMedia) → Coherent terminal w.files oldMedia newMedia
  | _ => True

/-- What an open batch relies on until it is reported, with `info` the strategy in force. -/
structure OpenBatch (terminal : Terminal) (info : AdMediaInfo) (files : Finset Place) (receiver : MediaUpdateReceiver)
    (kind : MediaKind) : Prop where
  dropped : ∀ id ∈ (receiver.batch kind).deleteSet, id ∈ info.ids kind
  fetched : ∀ file, receiver.newMediaInfo.LeadsTo terminal kind file →
    file ∈ files ∨ ∃ download ∈ (receiver.batch kind).transferring, download.file = file
  unnamed : ∀ id ∈ (receiver.batch kind).deleteSet, ∀ file, info.place? terminal kind id = some file →
    ¬ receiver.newMediaInfo.LeadsTo terminal kind file
  elsewhere : ∀ id ∈ (receiver.batch kind).deleteSet, ∀ file, info.place? terminal kind id = some file →
    ∀ other, other ≠ kind → ¬ info.LeadsTo terminal other file ∧
      (¬ (receiver.batch other).Settled → ¬ receiver.newMediaInfo.LeadsTo terminal other file)

/-- The invariant of updates run one after another: the active files are present, and the
one receiver that may be open has batches that keep them so. -/
structure Keeping (terminal : Terminal) (w : World) : Prop where
  alive : w.crashed = false
  counted : w.Counted
  active : ∃ info, w.adMediaInfo = some info ∧ (∀ kind file, info.LeadsTo terminal kind file → file ∈ w.files) ∧
    ∀ (j : Nat) (r : MediaUpdateReceiver), w.receivers[j]? = some r →
      ∀ kind, ¬ (r.batch kind).Settled → OpenBatch terminal info w.files r kind
  single : ∀ (j k : Nat) (r r' : MediaUpdateReceiver), w.receivers[j]? = some r → w.receivers[k]? = some r' →
    ∀ kind kind', ¬ (r.batch kind).Settled → ¬ (r'.batch kind').Settled → j = k

theorem Keeping.filesPresent (keeping : Keeping terminal w) : w.FilesPresent terminal := by
  obtain ⟨info, active, present, -⟩ := keeping.active
  intro info' active' kind file named
  obtain rfl := Option.some.inj (active.symm.trans active')
  exact present kind file named

/-- An open batch survives a step that keeps its containers, its delete set and its target,
opens no batch and takes away no file but by a download that arrives. -/
theorem OpenBatch.mono {files files' : Finset Place} {info' : AdMediaInfo} {r r' : MediaUpdateReceiver}
    {kind : MediaKind} (open_ : OpenBatch terminal info files r kind)
    (same : ∀ k, info'.container k = info.container k) (grown : files ⊆ files')
    (target : r'.newMediaInfo = r.newMediaInfo)
    (deleteSet : (r'.batch kind).deleteSet = (r.batch kind).deleteSet)
    (arriving : ∀ download ∈ (r.batch kind).transferring,
      download.file ∈ files' ∨ download ∈ (r'.batch kind).transferring)
    (opened : ∀ other, ¬ (r'.batch other).Settled → ¬ (r.batch other).Settled) :
    OpenBatch terminal info' files' r' kind where
  dropped id member := ids_congr (same kind) ▸ open_.dropped id (deleteSet ▸ member)
  fetched file named := by
    rcases open_.fetched file (target ▸ named) with present | ⟨download, member, rfl⟩
    · exact Or.inl (grown present)
    · exact (arriving download member).imp_right fun still => ⟨download, still, rfl⟩
  unnamed id member file found := by
    rw [target]
    exact open_.unnamed id (deleteSet ▸ member) file (place?_congr (same kind) id ▸ found)
  elsewhere id member file found other different := by
    rw [leadsTo_congr (same other), target]
    have apart := open_.elsewhere id (deleteSet ▸ member) file (place?_congr (same kind) id ▸ found) other different
    exact ⟨apart.1, fun unsettled => apart.2 (opened other unsettled)⟩

theorem process_settled_iff {kind : MediaKind} :
    ¬ (process terminal oldMedia newMedia kind).Settled ↔ Adds oldMedia newMedia kind := by
  have work : 0 < (process terminal oldMedia newMedia kind).totalTaskNum ↔ Adds oldMedia newMedia kind :=
    process_total_pos
  rw [← work]
  simp [Batch.Settled, process, Nat.pos_iff_ne_zero]

/-- The batches of a coherent update rely on what holds when it starts. -/
theorem openBatch_of_coherent {files : Finset Place} {receiver : MediaUpdateReceiver} {kind : MediaKind}
    (coherent : Coherent terminal files oldMedia newMedia) (target : receiver.newMediaInfo = newMedia)
    (batches : receiver.batch = process terminal oldMedia newMedia)
    (open_ : ¬ (receiver.batch kind).Settled) :
    OpenBatch terminal oldMedia files receiver kind := by
  subst target
  rw [batches, process_settled_iff] at open_
  obtain ⟨named, dropped⟩ := coherent kind open_
  refine ⟨?_, ?_, ?_, ?_⟩
  · intro id member
    rw [batches, mem_deleteSet] at member
    exact member.1
  · intro file names
    refine (named file names).imp_right fun found => ?_
    obtain ⟨id, fresh, found⟩ := found
    have listed := (AdMediaInfo.mem_ids_place terminal).mpr ⟨file, found⟩
    rw [batches]
    refine ⟨startDownload terminal receiver.newMediaInfo kind id, ?_, file_startDownload found⟩
    exact List.mem_map_of_mem (mem_getSetDifference.mpr ⟨listed, fresh⟩)
  · intro id member file found
    rw [batches, mem_deleteSet] at member
    exact (dropped id file found member.2).1
  · intro id member file found other different
    rw [batches, mem_deleteSet] at member
    rw [batches, process_settled_iff]
    exact (dropped id file found member.2).2 other different

theorem keeping_fetched {xmlText : String} (keeping : Keeping terminal w) (settled : w.Settled)
    (parsed : parseXmlFromText terminal.parseText xmlText = .ok (some newMedia))
    (coherent : ∀ oldMedia, w.adMediaInfo = some oldMedia → Coherent terminal w.files oldMedia newMedia)
    (taken : step terminal w (.fetched xmlText) = some w') : Keeping terminal w' := by
  have counted' := counted_step keeping.counted taken
  obtain ⟨-, rfl⟩ := step_fetched taken
  obtain ⟨info, active, present, -⟩ := keeping.active
  rw [handler_of_parsed parsed active] at counted' ⊢
  have earlier : ∀ (j : Nat) (r : MediaUpdateReceiver), w.receivers[j]? = some r → ∀ kind,
      (r.batch kind).Settled := fun j r found => settled.2 r (List.mem_of_getElem? found)
  refine ⟨keeping.alive, counted', ⟨info, active, present, ?_⟩, ?_⟩
  · intro j r found kind open_
    rcases mem_append_cases found with before | ⟨-, rfl⟩
    · exact absurd (earlier j r before kind) open_
    · exact openBatch_of_coherent (coherent info active) rfl rfl open_
  · intro j k r r' found found' kind kind' open_ open'
    rcases mem_append_cases found with before | ⟨rfl, -⟩
    · exact absurd (earlier j r before kind) open_
    · rcases mem_append_cases found' with before | ⟨rfl, -⟩
      · exact absurd (earlier k r' before kind') open'
      · rfl

/-- A step of one batch opens no batch, if the one it touches was open. -/
theorem opened_before {receiver r r₀ : MediaUpdateReceiver} {kind : MediaKind} {batch : Batch}
    (open_ : ¬ (receiver.batch kind).Settled) {i j : Nat}
    (batches : ∀ k, (j = i ∧ k = kind ∧ r₀ = receiver ∧ r.batch k = batch) ∨
      (¬(j = i ∧ k = kind) ∧ r.batch k = r₀.batch k))
    (k : MediaKind) (unsettled : ¬ (r.batch k).Settled) : ¬ (r₀.batch k).Settled := by
  rcases batches k with ⟨-, rfl, rfl, -⟩ | ⟨-, same⟩
  · exact open_
  · exact same ▸ unsettled

theorem single_set {i : Nat} {receiver : MediaUpdateReceiver} {kind : MediaKind} {batch : Batch}
    (keeping : Keeping terminal w) (present : w.receivers[i]? = some receiver)
    (open_ : ¬ (receiver.batch kind).Settled) (j k : Nat) (r r' : MediaUpdateReceiver)
    (found : (w.receivers.set i (receiver.setBatch kind batch))[j]? = some r)
    (found' : (w.receivers.set i (receiver.setBatch kind batch))[k]? = some r') (kind₁ kind₂ : MediaKind)
    (unsettled : ¬ (r.batch kind₁).Settled) (unsettled' : ¬ (r'.batch kind₂).Settled) : j = k := by
  obtain ⟨r₀, before, -, -, batches⟩ := batch_after present found
  obtain ⟨r₁, before', -, -, batches'⟩ := batch_after present found'
  exact keeping.single j k r₀ r₁ before before' kind₁ kind₂ (opened_before open_ batches kind₁ unsettled)
    (opened_before open_ batches' kind₂ unsettled')

theorem keeping_transferred {i n : Nat} {kind : MediaKind} (keeping : Keeping terminal w)
    (taken : step terminal w (.transferred i kind n) = some w') : Keeping terminal w' := by
  have counted' := counted_step keeping.counted taken
  obtain ⟨receiver, download, -, present, under, rfl⟩ := step_transferred taken
  obtain ⟨info, active, files, opens⟩ := keeping.active
  have open_ : ¬ (receiver.batch kind).Settled := by
    intro settled
    simp [settled.1] at under
  have grown : w.files ⊆ insert download.file w.files := Finset.subset_insert _ _
  refine ⟨keeping.alive, counted', ⟨info, active, fun k file named => grown (files k file named), ?_⟩,
    single_set keeping present open_⟩
  intro j r found k unsettled
  obtain ⟨r₀, before, target, -, batches⟩ := batch_after present found
  have opened := opened_before open_ batches
  have sets : (r.batch k).deleteSet = (r₀.batch k).deleteSet ∧
      ∀ d ∈ (r₀.batch k).transferring, d.file ∈ insert download.file w.files ∨ d ∈ (r.batch k).transferring := by
    rcases batches k with ⟨-, rfl, rfl, same⟩ | ⟨-, same⟩
    · rw [same]
      refine ⟨rfl, fun d member => ?_⟩
      rcases mem_of_erased under member with rfl | still
      · exact Or.inl (Finset.mem_insert_self _ _)
      · exact Or.inr still
    · rw [same]
      exact ⟨rfl, fun d member => Or.inr member⟩
  exact (opens j r₀ before k (opened k unsettled)).mono (fun _ => rfl) grown target sets.1 sets.2 opened

theorem names_of_setContainer_self {kind : MediaKind} {file : Place} :
    (info.setContainer kind (newMedia.container kind)).LeadsTo terminal kind file ↔ newMedia.LeadsTo terminal kind file :=
  leadsTo_congr (AdMediaInfo.container_setContainer_self ..) file

/-- The last completion of a batch switches its kind over. What the delete loop takes away
is named by no strategy then in force, and not by the batch that may still be open. -/
theorem keeping_switch {i n : Nat} {kind : MediaKind} {receiver : MediaUpdateReceiver} {download : Download}
    (keeping : Keeping terminal w) (present : w.receivers[i]? = some receiver)
    (waiting : (receiver.batch kind).arrived[n]? = some download) (active : w.adMediaInfo = some info)
    (last : (receiver.batch kind).totalTaskNum ≤ (receiver.batch kind).finishedNum + 1)
    (counted' : (onDownloadFinished (downloadFinished terminal kind) kind w i receiver n).Counted) :
    Keeping terminal (onDownloadFinished (downloadFinished terminal kind) kind w i receiver n) := by
  obtain ⟨info', active', files, opens⟩ := keeping.active
  obtain rfl := Option.some.inj (active.symm.trans active')
  have open_ : ¬ (receiver.batch kind).Settled := by
    intro settled
    simp [settled.2] at waiting
  have batch := opens i receiver present kind open_
  have finished := (keeping.counted i receiver present kind).last waiting last
  have spared : ∀ file, file ∈ w.files → (∀ id ∈ (receiver.batch kind).deleteSet,
      info.place? terminal kind id ≠ some file) →
      file ∈ (deleteFiles terminal info kind (receiver.batch kind).deleteSet w.files).1 :=
    fun file held kept => mem_deleteFiles held kept
  rw [onDownloadFinished_last active last] at counted' ⊢
  refine ⟨?_, counted', ⟨_, rfl, ?_, ?_⟩, single_set keeping present open_⟩
  · rw [← Bool.not_eq_true, deleteFiles_throws]
    intro found
    obtain ⟨id, member, absent⟩ := found
    exact absent (batch.dropped id member)
  · intro k file named
    by_cases switched : k = kind
    · subst switched
      rw [names_of_setContainer_self] at named
      apply spared file
      · rcases batch.fetched file named with held | ⟨d, member, -⟩
        · exact held
        · have none_left : (receiver.batch k).transferring = [] := finished.1
          simp [none_left] at member
      · exact fun id member found => batch.unnamed id member file found named
    · rw [leadsTo_congr (AdMediaInfo.container_setContainer_other info switched _)] at named
      apply spared file (files k file named)
      exact fun id member found => (batch.elsewhere id member file found k switched).1 named
  · intro j r found k unsettled
    obtain ⟨r₀, before, target, -, batches⟩ := batch_after present found
    have unsettled₀ := opened_before open_ batches k unsettled
    obtain rfl := keeping.single j i r₀ receiver before present k kind unsettled₀ open_
    obtain rfl := Option.some.inj (before.symm.trans present)
    -- Only the other kind can still be open: this one has just been settled.
    rcases batches k with ⟨-, rfl, -, same⟩ | ⟨untouched, same⟩
    · exact absurd (same ▸ finished) unsettled
    have different : k ≠ kind := fun both => untouched ⟨rfl, both⟩
    have rest := opens j r₀ before k unsettled₀
    have kept := AdMediaInfo.container_setContainer_other info different (r₀.newMediaInfo.container kind)
    refine ⟨?_, ?_, ?_, ?_⟩
    · intro id member
      rw [ids_congr kept]
      exact rest.dropped id (same ▸ member)
    · intro file named
      rw [target] at named
      rw [same]
      apply (rest.fetched file named).imp_left
      intro held
      apply spared file held
      exact fun id member found => (batch.elsewhere id member file found k different).2 unsettled₀ named
    · intro id member file found
      rw [target]
      exact rest.unnamed id (same ▸ member) file (place?_congr kept id ▸ found)
    · intro id member file found other unequal
      rw [target]
      have apart := rest.elsewhere id (same ▸ member) file (place?_congr kept id ▸ found) other unequal
      refine ⟨?_, fun unsettled' => apart.2 (opened_before open_ batches other unsettled')⟩
      have switched : other = kind := MediaKind.eq_of_ne unequal different.symm
      subst switched
      rw [names_of_setContainer_self]
      exact apart.2 open_

theorem keeping_reported {i n : Nat} {kind : MediaKind} (keeping : Keeping terminal w)
    (taken : step terminal w (.reported i kind n) = some w') : Keeping terminal w' := by
  have counted' := counted_step keeping.counted taken
  obtain ⟨receiver, download, -, present, waiting, rfl⟩ := step_reported taken
  obtain ⟨info, active, files, opens⟩ := keeping.active
  by_cases last : (receiver.batch kind).totalTaskNum ≤ (receiver.batch kind).finishedNum + 1
  · exact keeping_switch keeping present waiting active last counted'
  have open_ : ¬ (receiver.batch kind).Settled := by
    intro settled
    simp [settled.2] at waiting
  rw [onDownloadFinished_early last] at counted' ⊢
  refine ⟨keeping.alive, counted', ⟨info, active, files, ?_⟩, single_set keeping present open_⟩
  intro j r found k unsettled
  obtain ⟨r₀, before, target, -, batches⟩ := batch_after present found
  have opened := opened_before open_ batches
  have sets : (r.batch k).deleteSet = (r₀.batch k).deleteSet ∧
      (r.batch k).transferring = (r₀.batch k).transferring := by
    rcases batches k with ⟨-, rfl, rfl, same⟩ | ⟨-, same⟩ <;> rw [same] <;> exact ⟨rfl, rfl⟩
  exact (opens j r₀ before k (opened k unsettled)).mono (fun _ => rfl) (Finset.Subset.refl _) target sets.1
    (fun d member => Or.inr (sets.2 ▸ member)) opened

theorem keeping_step {e : Event} (keeping : Keeping terminal w)
    (ok : OneByOne terminal w e ∧ StartsCoherent terminal w e)
    (taken : step terminal w e = some w') : Keeping terminal w' := by
  cases e with
  | polled scheduleId =>
    obtain ⟨-, rfl⟩ := step_polled taken
    obtain ⟨info, active, files, opens⟩ := keeping.active
    rw [webRequest_of_active active]
    have same : ∀ k, ({ info with resolution := some scheduleId } : AdMediaInfo).container k = info.container k :=
      info.container_resolution (some scheduleId)
    refine ⟨keeping.alive, keeping.counted, ⟨_, rfl, ?_, ?_⟩, keeping.single⟩
    · intro k file named
      exact files k file ((leadsTo_congr (same k) file).mp named)
    · intro j r found k unsettled
      exact (opens j r found k unsettled).mono same (Finset.Subset.refl _) rfl rfl
        (fun d member => Or.inr member) (fun _ open_ => open_)
  | fetched xmlText =>
    obtain ⟨settled, newMedia, parsed⟩ := ok.1
    exact keeping_fetched keeping settled parsed (fun oldMedia active => ok.2 oldMedia newMedia active parsed) taken
  | saved =>
    obtain ⟨text, -, -, rfl⟩ := step_saved taken
    exact ⟨keeping.alive, keeping.counted, keeping.active, keeping.single⟩
  | transferred i kind n => exact keeping_transferred keeping taken
  | reported i kind n => exact keeping_reported keeping taken
  | killed => exact ok.1.elim

theorem keeping_start (alive : w.crashed = false) (settled : w.Settled) (counted : w.Counted)
    (active : w.adMediaInfo = some info) (present : w.FilesPresent terminal) : Keeping terminal w := by
  have closed : ∀ (j : Nat) (r : MediaUpdateReceiver), w.receivers[j]? = some r → ∀ kind,
      (r.batch kind).Settled := fun j r found => settled.2 r (List.mem_of_getElem? found)
  refine ⟨alive, counted, ⟨info, active, present info active, ?_⟩, ?_⟩
  · intro j r found kind open_
    exact absurd (closed j r found kind) open_
  · intro j k r r' found found' kind kind' open_
    exact absurd (closed j r found kind) open_

/-- A server whose second strategy keeps an id under another file name, and whose third
keeps what it has and adds a video. -/
def renamingTerminal : Terminal := terminalFor [
  ("old", strategyElement [("1", "a.mp4")] [("7", "p.png")]),
  ("renamed", strategyElement [("1", "b.mp4"), ("2", "c.mp4")] [("7", "p.png")]),
  ("extended", strategyElement [("1", "a.mp4"), ("2", "c.mp4")] [("7", "p.png")])]

def renamingStart : World := restart renamingTerminal (some "old") (renamingTerminal.places ["a.mp4", "p.png"])

end AdTerminal.Strategy
