import AdTerminal.Strategy.Convergence

/-! Which files one update deletes. The delete loops go by the ids that a kind of media has lost,
whatever the new strategy names under other ids or as the other kind. -/

namespace AdTerminal.Strategy
open Transition AdMediaInfo FilePath

variable {terminal : Terminal} {w w' : World} {oldMedia newMedia : AdMediaInfo} {file : Place}

/-- The step does not take the file away. -/
def Keeps (terminal : Terminal) (file : Place) (w : World) (e : Event) : Prop :=
  file ∈ w.files → ∀ w', step terminal w e = some w' → file ∈ w'.files

/-- Some step of the run takes the file away. -/
def Deleted (terminal : Terminal) (w : World) (es : List Event) (file : Place) : Prop :=
  ¬ Steps (step terminal) (Keeps terminal file) w es

/-- The strategy names the file for one of the two kinds. -/
def Named (terminal : Terminal) (info : AdMediaInfo) (file : Place) : Prop := ∃ kind, info.LeadsTo terminal kind file

/-- An id that its kind has lost names the file. -/
def Withdrawn (terminal : Terminal) (oldMedia newMedia : AdMediaInfo) (file : Place) : Prop :=
  ∃ kind id, id ∉ newMedia.ids kind ∧ oldMedia.place? terminal kind id = some file

/-- No file of a lost id is in the new strategy, and a file of a kept id that is not in it
belongs to a lost id as well. -/
def NamesFollowIds (terminal : Terminal) (oldMedia newMedia : AdMediaInfo) : Prop :=
  ∀ kind id file, oldMedia.place? terminal kind id = some file →
    (id ∉ newMedia.ids kind → ¬ Named terminal newMedia file) ∧
    (id ∈ newMedia.ids kind → Named terminal newMedia file ∨ Withdrawn terminal oldMedia newMedia file)

theorem deleteFiles_subset {info : AdMediaInfo} {kind : MediaKind} {ids : List Text} {files : Finset Place} :
    (deleteFiles terminal info kind ids files).1 ⊆ files := by
  induction ids generalizing files with
  | nil => exact Finset.Subset.refl files
  | cons id rest ih =>
    simp only [deleteFiles]
    split
    next => exact Finset.Subset.refl files
    next other _ => exact ih.trans (Finset.erase_subset other files)

/-- A delete loop that does not throw takes away the files of all its ids. -/
theorem not_mem_deleteFiles {info : AdMediaInfo} {kind : MediaKind} {ids : List Text} {files : Finset Place}
    (listed : ∀ id ∈ ids, id ∈ info.ids kind) {id : Text} (member : id ∈ ids)
    (named : info.place? terminal kind id = some file) :
    file ∉ (deleteFiles terminal info kind ids files).1 := by
  induction ids generalizing files with
  | nil => cases member
  | cons first rest ih =>
    obtain ⟨other, found⟩ := (mem_ids_place terminal).mp (listed first List.mem_cons_self)
    simp only [deleteFiles, found]
    rcases List.mem_cons.mp member with rfl | later
    · obtain rfl := Option.some.inj (named.symm.trans found)
      exact fun present => Finset.notMem_erase _ _ (deleteFiles_subset present)
    · exact ih (fun id inside => listed id (List.mem_cons_of_mem _ inside)) later

/-- What a completion does to the files while the update runs: the last one of its kind runs
the delete loop on the old container, and the others do nothing. -/
theorem files_reported {i j n : Nat} {kind : MediaKind} (updating : Updating oldMedia newMedia i w)
    (taken : step terminal w (.reported j kind n) = some w') :
    ∃ receiver, w.receivers[i]? = some receiver ∧
      w'.receivers[i]? = some (receiver.setBatch kind ((receiver.batch kind).reported n)) ∧
      (¬ ((receiver.batch kind).reported n).Finished ∧ w'.files = w.files ∨
        ∃ info, info.container kind = oldMedia.container kind ∧
          w'.files = (deleteFiles terminal info kind (receiver.batch kind).deleteSet w.files).1) := by
  obtain ⟨alive, counted, others, receiver, info, present, target, active, sets⟩ := updating
  obtain ⟨r, download, -, found, waiting, rfl⟩ := step_reported taken
  have same : j = i := by
    by_contra different
    exact not_settled_of_arrived waiting (others j r found different kind)
  subst same
  obtain rfl := Option.some.inj (present.symm.trans found)
  obtain ⟨positive, below⟩ := (counted j receiver present kind).pending waiting
  have inside := (List.getElem?_eq_some_iff.mp present).1
  by_cases last : (receiver.batch kind).totalTaskNum ≤ (receiver.batch kind).finishedNum + 1
  · rw [onDownloadFinished_last active last]
    refine ⟨receiver, present, List.getElem?_set_self inside, Or.inr ⟨info, ?_, rfl⟩⟩
    rw [(sets kind).2.2, if_neg]
    rintro ⟨-, reached⟩
    omega
  · rw [onDownloadFinished_early last]
    exact ⟨receiver, present, List.getElem?_set_self inside, Or.inl ⟨fun finished => last finished.2, rfl⟩⟩

/-- The delete set of the receiver, by the two strategies. -/
theorem deleteSet_of_updating {i : Nat} {receiver : MediaUpdateReceiver} (updating : Updating oldMedia newMedia i w)
    (present : w.receivers[i]? = some receiver) (kind : MediaKind) :
    (receiver.batch kind).deleteSet = getSetDifference (oldMedia.ids kind) (newMedia.ids kind) := by
  obtain ⟨-, -, -, own, info, found, -, -, sets⟩ := updating
  obtain rfl := Option.some.inj (found.symm.trans present)
  exact (sets kind).2.1

theorem updating_keeps {i : Nat} {e : Event} (updating : Updating oldMedia newMedia i w) (continues : e.Continues)
    (remains : ¬ Withdrawn terminal oldMedia newMedia file) : Keeps terminal file w e := by
  intro present w' taken
  cases e with
  | polled scheduleId =>
    obtain ⟨-, rfl⟩ := step_polled taken
    unfold webRequestHandler
    split <;> exact present
  | saved =>
    obtain ⟨text, -, -, rfl⟩ := step_saved taken
    exact present
  | transferred j kind n =>
    obtain ⟨receiver, download, -, -, -, rfl⟩ := step_transferred taken
    exact Finset.mem_insert_of_mem present
  | reported j kind n =>
    obtain ⟨receiver, found, -, same⟩ := files_reported updating taken
    rcases same with ⟨-, same⟩ | ⟨info, held, same⟩
    · rwa [same]
    · rw [same]
      refine mem_deleteFiles present fun id member named => remains ⟨kind, id, ?_⟩
      rw [deleteSet_of_updating updating found kind, mem_getSetDifference] at member
      exact ⟨member.2, place?_congr held id ▸ named⟩
  | fetched xmlText => exact continues.elim
  | killed => exact continues.elim

/-- The batch of the kind is not finished yet. -/
def Unfinished (i : Nat) (kind : MediaKind) (w : World) : Prop :=
  ∃ receiver, w.receivers[i]? = some receiver ∧ ¬ (receiver.batch kind).Finished

/-- A step that finishes the batch of a kind takes the files of its lost ids away. -/
theorem unfinished_step {i : Nat} {e : Event} {kind : MediaKind} {id : Text}
    (updating : Updating oldMedia newMedia i w) (continues : e.Continues) (lost : id ∉ newMedia.ids kind)
    (named : oldMedia.place? terminal kind id = some file) (unfinished : Unfinished i kind w)
    (taken : step terminal w e = some w') (kept : file ∈ w'.files) : Unfinished i kind w' := by
  obtain ⟨receiver, present, early⟩ := unfinished
  cases e with
  | polled scheduleId =>
    obtain ⟨-, rfl⟩ := step_polled taken
    exact ⟨receiver, by rwa [receivers_webRequest], early⟩
  | saved =>
    obtain ⟨text, -, -, rfl⟩ := step_saved taken
    exact ⟨receiver, present, early⟩
  | transferred j k n =>
    obtain ⟨r, download, -, found, -, rfl⟩ := step_transferred taken
    by_cases same : j = i
    · subst same
      obtain rfl := Option.some.inj (present.symm.trans found)
      refine ⟨_, List.getElem?_set_self (List.getElem?_eq_some_iff.mp present).1, ?_⟩
      by_cases touched : kind = k
      · subst touched
        simp only [MediaUpdateReceiver.setBatch, Function.update_self]
        exact early
      · simpa only [MediaUpdateReceiver.setBatch, Function.update_of_ne touched] using early
    · exact ⟨receiver, (List.getElem?_set_ne same).trans present, early⟩
  | reported j k n =>
    obtain ⟨r, found, next, same⟩ := files_reported updating taken
    obtain rfl := Option.some.inj (present.symm.trans found)
    refine ⟨_, next, ?_⟩
    by_cases touched : kind = k
    · subst touched
      simp only [MediaUpdateReceiver.setBatch, Function.update_self]
      rcases same with ⟨early, -⟩ | ⟨info, held, same⟩
      · exact early
      · have member : id ∈ (receiver.batch kind).deleteSet := by
          rw [deleteSet_of_updating updating found kind, mem_getSetDifference]
          exact ⟨(mem_ids_place terminal).mpr ⟨file, named⟩, lost⟩
        have listed : ∀ id ∈ (receiver.batch kind).deleteSet, id ∈ info.ids kind := by
          intro id member
          rw [deleteSet_of_updating updating found kind, mem_getSetDifference] at member
          exact ids_congr held ▸ member.1
        rw [same] at kept
        exact absurd kept (not_mem_deleteFiles listed member (place?_congr held id ▸ named))
    · simpa only [MediaUpdateReceiver.setBatch, Function.update_of_ne touched] using early
  | fetched xmlText => exact continues.elim
  | killed => exact continues.elim

theorem finished_of_settled {i : Nat} {kind : MediaKind} (updating : Updating oldMedia newMedia i w) (settled : w.Settled)
    (work : ∃ id ∈ newMedia.ids kind, id ∉ oldMedia.ids kind) : ¬ Unfinished i kind w := by
  rintro ⟨receiver, present, early⟩
  obtain ⟨-, counted, -, own, info, found, -, -, sets⟩ := updating
  obtain rfl := Option.some.inj (found.symm.trans present)
  obtain ⟨total, _⟩ := counted i own present kind
  have reached := (counted i own present kind).finished_of_settled (settled.2 own (List.mem_of_getElem? present) kind)
  refine early ⟨?_, reached.ge⟩
  rw [total, (sets kind).1, List.length_pos_iff_exists_mem]
  simpa only [mem_getSetDifference] using work

/-- Over an update in which both kinds have a download, the files that are deleted are those of
the ids that are lost. -/
theorem deleted_iff {i : Nat} {done : World} {es : List Event} (updating : Updating oldMedia newMedia i w)
    (continues : ∀ e ∈ es, e.Continues) (whole : run (step terminal) w es = some done) (settled : done.Settled)
    (work : ∀ kind, ∃ id ∈ newMedia.ids kind, id ∉ oldMedia.ids kind) (fresh : ∀ kind, Unfinished i kind w)
    (stored : ∀ kind file, oldMedia.LeadsTo terminal kind file → file ∈ w.files) :
    Deleted terminal w es file ↔ Withdrawn terminal oldMedia newMedia file := by
  have steps : Steps (step terminal) (fun _ e => e.Continues) w es := Steps.of_forall continues
  constructor
  · intro deleted
    by_contra remains
    have enough : ∀ s e, Updating oldMedia newMedia i s → e.Continues → Keeps terminal file s e :=
      fun s e updating continues => updating_keeps updating continues remains
    exact deleted (Steps.of_invariant enough (fun s e t inv ok next => updating_step inv ok next) updating steps)
  · rintro ⟨kind, id, lost, named⟩ keeps
    have preserved : ∀ s e t, (Updating oldMedia newMedia i s ∧ file ∈ s.files ∧ Unfinished i kind s) →
        (e.Continues ∧ Keeps terminal file s e) → step terminal s e = some t →
        Updating oldMedia newMedia i t ∧ file ∈ t.files ∧ Unfinished i kind t := by
      intro s e t inv ok taken
      have kept := ok.2 inv.2.1 t taken
      exact ⟨updating_step inv.1 ok.1 taken, kept, unfinished_step inv.1 ok.1 lost named inv.2.2 taken kept⟩
    obtain ⟨last, -, unfinished⟩ := run_invariant preserved ⟨updating, stored kind file ⟨id, named⟩, fresh kind⟩
      (steps.and keeps) whole
    exact finished_of_settled last settled (work kind) unfinished

/-- Going by ids deletes the right files exactly when the names follow the ids. -/
theorem withdrawn_iff :
    (∀ file, Withdrawn terminal oldMedia newMedia file ↔ Named terminal oldMedia file ∧ ¬ Named terminal newMedia file) ↔
    NamesFollowIds terminal oldMedia newMedia := by
  constructor
  · intro agree kind id file named
    refine ⟨fun lost => ((agree file).mp ⟨kind, id, lost, named⟩).2, fun _ => ?_⟩
    by_cases known : Named terminal newMedia file
    · exact Or.inl known
    · exact Or.inr ((agree file).mpr ⟨⟨kind, id, named⟩, known⟩)
  · intro follow file
    constructor
    · rintro ⟨kind, id, lost, named⟩
      exact ⟨⟨kind, id, named⟩, (follow kind id file named).1 lost⟩
    · rintro ⟨⟨kind, id, named⟩, unknown⟩
      by_cases lost : id ∈ newMedia.ids kind
      · exact ((follow kind id file named).2 lost).resolve_left unknown
      · exact ⟨kind, id, lost, named⟩

instance (info : AdMediaInfo) (file : Place) : Decidable (Named terminal info file) :=
  inferInstanceAs (Decidable (∃ kind, info.LeadsTo terminal kind file))

instance (oldMedia newMedia : AdMediaInfo) (file : Place) : Decidable (Withdrawn terminal oldMedia newMedia file) :=
  inferInstanceAs (Decidable (∃ kind id, id ∉ newMedia.ids kind ∧ oldMedia.place? terminal kind id = some file))

instance (oldMedia newMedia : AdMediaInfo) : Decidable (NamesFollowIds terminal oldMedia newMedia) :=
  inferInstanceAs (Decidable (∀ kind id file, oldMedia.place? terminal kind id = some file →
    (id ∉ newMedia.ids kind → ¬ Named terminal newMedia file) ∧
    (id ∈ newMedia.ids kind → Named terminal newMedia file ∨ Withdrawn terminal oldMedia newMedia file)))

/-- Each kind gets another file, under another id; "renamed" is the same video under another id. -/
def threeStrategies : Terminal := terminalFor [
  ("old", strategyElement [("1", "a.mp4")] [("3", "c.png")]),
  ("replaced", strategyElement [("2", "b.mp4")] [("4", "d.png")]),
  ("renamed", strategyElement [("2", "a.mp4")] [("4", "d.png")])]

def replacementStart : World := restart threeStrategies (some "old") (threeStrategies.places ["a.mp4", "c.png"])

def replacement : List Event :=
  [.saved, .transferred 0 .video 0, .transferred 0 .image 0, .reported 0 .image 0, .reported 0 .video 0]

end AdTerminal.Strategy
