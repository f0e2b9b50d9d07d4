import AdTerminal.Strategy.UpdateRun

/-! Updates that overlap. Every poll starts a receiver of its own while earlier ones may still
be downloading, and all of them write the one strategy in force: when a later update has
already taken over, a late completion rolls it back, and its delete loop searches a
container that is no longer the one it was computed from. -/

namespace AdTerminal.Strategy
open Transition ListUpdate AdMediaInfo

variable {terminal : Terminal} {w w' : World} {base info : AdMediaInfo}

/-- The process lives on and every fetched text is a strategy. -/
def LivesOn (terminal : Terminal) : Event → Prop
  | .fetched xmlText => ∃ newMedia, parseXmlFromText terminal.parseText xmlText = .ok (some newMedia)
  | .killed => False
  | _ => True

instance (terminal : Terminal) : DecidablePred (LivesOn terminal)
  | .fetched xmlText =>
    match parsed : parseXmlFromText terminal.parseText xmlText with
    | .ok (some newMedia) => isTrue ⟨newMedia, parsed⟩
    | .ok none => isFalse fun ⟨_, other⟩ => nomatch parsed.symm.trans other
    | .error _ => isFalse fun ⟨_, other⟩ => nomatch parsed.symm.trans other
  | .killed => isFalse id
  | .polled _ | .saved | .transferred .. | .reported .. => isTrue trivial

/-- The `n`-th arrived download of receiver `i` can be reported, as the last of its kind. -/
def ReportsLast (w : World) (i : Nat) (kind : MediaKind) (n : Nat) (receiver : MediaUpdateReceiver) : Prop :=
  w.MainFree ∧ w.receivers[i]? = some receiver ∧ (∃ download, (receiver.batch kind).arrived[n]? = some download) ∧
    (receiver.batch kind).totalTaskNum ≤ (receiver.batch kind).finishedNum + 1

/-- The last completion of a receiver comes before that of every receiver started later. -/
def ReportsInOrder (kind : MediaKind) (w : World) : Event → Prop
  | .reported i k n => k = kind → ∀ receiver, ReportsLast w i kind n receiver →
      ∀ (j : Nat) (later : MediaUpdateReceiver), i < j → w.receivers[j]? = some later →
        ¬ (later.batch kind).Finished
  | _ => True

/-- The container in force is that of the latest receiver whose batch is finished. -/
structure LatestInForce (kind : MediaKind) (w : World) : Prop where
  counted : w.Counted
  active : ∃ info, w.adMediaInfo = some info
  upper : ∀ (j : Nat) (r : MediaUpdateReceiver), w.receivers[j]? = some r → (r.batch kind).Finished →
    j + 1 ≤ w.owner kind
  reached : w.owner kind = 0 ∨ ∃ (j : Nat) (r : MediaUpdateReceiver), w.owner kind = j + 1 ∧
    w.receivers[j]? = some r ∧ (r.batch kind).Finished

theorem process_not_finished (oldMedia newMedia : AdMediaInfo) (kind : MediaKind) :
    ¬ (process terminal oldMedia newMedia kind).Finished :=
  fun finished => absurd (Nat.lt_of_lt_of_le finished.1 finished.2) (Nat.lt_irrefl 0)

/-- A step that changes neither the owner nor which batches are finished. -/
theorem LatestInForce.of_same {kind : MediaKind} (latest : LatestInForce kind w) (counted : w'.Counted)
    (active : ∃ info, w'.adMediaInfo = some info) (owner : w'.owner kind = w.owner kind)
    (same : ∀ (j : Nat), (∃ r, w'.receivers[j]? = some r ∧ (r.batch kind).Finished) ↔
      ∃ r, w.receivers[j]? = some r ∧ (r.batch kind).Finished) : LatestInForce kind w' where
  counted := counted
  active := active
  upper j r found finished := by
    obtain ⟨r₀, before, finished₀⟩ := (same j).mp ⟨r, found, finished⟩
    exact owner ▸ latest.upper j r₀ before finished₀
  reached := by
    rcases latest.reached with none | ⟨j, r, equal, found, finished⟩
    · exact Or.inl (owner.trans none)
    · obtain ⟨r', found', finished'⟩ := (same j).mpr ⟨r, found, finished⟩
      exact Or.inr ⟨j, r', owner.trans equal, found', finished'⟩

/-- Changing one batch keeps which batches are finished, if it keeps it for that batch. -/
theorem finished_set {receivers : List MediaUpdateReceiver} {i : Nat} {receiver : MediaUpdateReceiver}
    {kind k : MediaKind} {batch : Batch} (present : receivers[i]? = some receiver)
    (same : k = kind → (batch.Finished ↔ (receiver.batch kind).Finished)) (j : Nat) :
    (∃ r, (receivers.set i (receiver.setBatch kind batch))[j]? = some r ∧ (r.batch k).Finished) ↔
      ∃ r, receivers[j]? = some r ∧ (r.batch k).Finished := by
  have inside := (List.getElem?_eq_some_iff.mp present).1
  by_cases at_i : j = i
  · subst at_i
    rw [List.getElem?_set_self inside, present]
    by_cases touched : k = kind
    · subst touched
      simp [MediaUpdateReceiver.setBatch, same rfl]
    · simp [MediaUpdateReceiver.setBatch, Function.update_of_ne touched]
  · rw [List.getElem?_set_ne (Ne.symm at_i)]

theorem owner_handler {xmlText : String} :
    (mediaStrategyUpdateHandler terminal w xmlText).owner = w.owner := by
  unfold mediaStrategyUpdateHandler
  split <;> rfl

theorem owner_webRequest {scheduleId : String} : (webRequestHandler w scheduleId).owner = w.owner := by
  unfold webRequestHandler
  split <;> rfl

/-- Only the last completion of a kind changes its owner. -/
theorem owner_step (kind : MediaKind) {e : Event} (active : ∃ info, w.adMediaInfo = some info)
    (admitted : LivesOn terminal e) (taken : step terminal w e = some w') :
    (w'.owner kind = w.owner kind ∧ ∀ i n receiver, e = .reported i kind n → ¬ ReportsLast w i kind n receiver) ∨
      ∃ i n receiver, e = .reported i kind n ∧ ReportsLast w i kind n receiver ∧ w'.owner kind = i + 1 := by
  cases e with
  | polled scheduleId =>
    obtain ⟨-, rfl⟩ := step_polled taken
    exact Or.inl ⟨by rw [owner_webRequest], by simp⟩
  | fetched xmlText =>
    obtain ⟨-, rfl⟩ := step_fetched taken
    exact Or.inl ⟨by rw [owner_handler], by simp⟩
  | saved =>
    obtain ⟨text, -, -, rfl⟩ := step_saved taken
    exact Or.inl ⟨rfl, by simp⟩
  | transferred i k n =>
    obtain ⟨receiver, download, -, -, -, rfl⟩ := step_transferred taken
    exact Or.inl ⟨rfl, by simp⟩
  | killed => exact admitted.elim
  | reported i k n =>
    obtain ⟨receiver, download, free, present, waiting, rfl⟩ := step_reported taken
    obtain ⟨info, active⟩ := active
    by_cases last : (receiver.batch k).totalTaskNum ≤ (receiver.batch k).finishedNum + 1
    · rw [onDownloadFinished_last active last]
      by_cases same : k = kind
      · subst same
        exact Or.inr ⟨i, n, receiver, rfl, ⟨free, present, ⟨download, waiting⟩, last⟩, Function.update_self ..⟩
      · refine Or.inl ⟨Function.update_of_ne (Ne.symm same) .., fun _ _ _ equal => ?_⟩
        cases equal
        exact absurd rfl same
    · rw [onDownloadFinished_early last]
      refine Or.inl ⟨rfl, fun i' n' r equal reports => ?_⟩
      cases equal
      obtain rfl := Option.some.inj (present.symm.trans reports.2.1)
      exact last reports.2.2.2

theorem reported_enabled {i n : Nat} {kind : MediaKind} {receiver : MediaUpdateReceiver} {download : Download}
    (free : w.MainFree) (present : w.receivers[i]? = some receiver)
    (waiting : (receiver.batch kind).arrived[n]? = some download) :
    step terminal w (.reported i kind n) =
      some (onDownloadFinished (downloadFinished terminal kind) kind w i receiver n) := by
  simp only [step, if_pos free, present, waiting, Option.bind_eq_bind, Option.bind_some, Option.pure_def]
  cases kind <;> rfl

theorem owner_reportsLast {i n : Nat} {kind : MediaKind} {receiver : MediaUpdateReceiver}
    (active : ∃ info, w.adMediaInfo = some info) (last : ReportsLast w i kind n receiver) :
    ∃ t, step terminal w (.reported i kind n) = some t ∧ t.owner kind = i + 1 := by
  obtain ⟨info, active⟩ := active
  obtain ⟨free, present, ⟨download, waiting⟩, reaches⟩ := last
  refine ⟨_, reported_enabled free present waiting, ?_⟩
  rw [onDownloadFinished_last active reaches]
  exact Function.update_self ..

theorem latestInForce_fetched {kind : MediaKind} {xmlText : String} (latest : LatestInForce kind w)
    (admitted : LivesOn terminal (.fetched xmlText)) (taken : step terminal w (.fetched xmlText) = some w') :
    LatestInForce kind w' := by
  have counted' := counted_step latest.counted taken
  obtain ⟨-, rfl⟩ := step_fetched taken
  obtain ⟨info, active⟩ := latest.active
  obtain ⟨newMedia, parsed⟩ := admitted
  rw [handler_of_parsed parsed active] at counted' ⊢
  refine latest.of_same counted' ⟨info, active⟩ rfl fun j => ?_
  constructor
  · intro both
    obtain ⟨r, found, finished⟩ := both
    rcases mem_append_cases found with before | ⟨-, rfl⟩
    · exact ⟨r, before, finished⟩
    · exact absurd finished (process_not_finished info newMedia kind)
  · intro both
    obtain ⟨r, found, finished⟩ := both
    have inside := (List.getElem?_eq_some_iff.mp found).1
    exact ⟨r, (List.getElem?_append_left inside).trans found, finished⟩

/-- The last completion of a kind puts its receiver's container in force, and no later
receiver has one of its own there yet. -/
theorem latestInForce_switch {kind k : MediaKind} {i n : Nat} {receiver : MediaUpdateReceiver}
    (latest : LatestInForce kind w) (ordered : ReportsInOrder kind w (.reported i k n))
    (active : w.adMediaInfo = some info) (last : ReportsLast w i k n receiver)
    (counted' : (onDownloadFinished (downloadFinished terminal k) k w i receiver n).Counted) :
    LatestInForce kind (onDownloadFinished (downloadFinished terminal k) k w i receiver n) := by
  have ⟨_, present, ⟨download, waiting⟩, reaches⟩ := last
  rw [onDownloadFinished_last active reaches] at counted' ⊢
  by_cases same : k = kind
  · subst same
    have own := (List.getElem?_set_self (a := receiver.setBatch k ((receiver.batch k).reported n))
      (List.getElem?_eq_some_iff.mp present).1)
    refine ⟨counted', ⟨_, rfl⟩, ?_, Or.inr ⟨i, _, Function.update_self .., own, ?_⟩⟩
    · intro j r found finished
      change j + 1 ≤ Function.update w.owner k (i + 1) k
      rw [Function.update_self]
      obtain ⟨r₀, before, -, -, batches⟩ := batch_after present found
      rcases batches k with ⟨rfl, -, -, -⟩ | ⟨-, unchanged⟩
      · exact Nat.le_refl _
      · have notLater := ordered rfl receiver last j r₀
        by_contra above
        exact notLater (by omega) before (unchanged ▸ finished)
    · simp only [MediaUpdateReceiver.setBatch, Function.update_self]
      exact ⟨((latest.counted i receiver present k).pending waiting).1, reaches⟩
  · exact latest.of_same counted' ⟨_, rfl⟩ (Function.update_of_ne (Ne.symm same) ..)
      (finished_set present fun equal => absurd equal.symm same)

theorem latestInForce_step {kind : MediaKind} {e : Event} (latest : LatestInForce kind w)
    (admitted : LivesOn terminal e) (ordered : ReportsInOrder kind w e)
    (taken : step terminal w e = some w') :
    LatestInForce kind w' := by
  have counted' := counted_step latest.counted taken
  cases e with
  | polled scheduleId =>
    obtain ⟨-, rfl⟩ := step_polled taken
    obtain ⟨info, active⟩ := latest.active
    rw [webRequest_of_active active] at counted' ⊢
    exact latest.of_same counted' ⟨_, rfl⟩ rfl fun _ => Iff.rfl
  | fetched xmlText => exact latestInForce_fetched latest admitted taken
  | saved =>
    obtain ⟨text, -, -, rfl⟩ := step_saved taken
    exact latest.of_same counted' latest.active rfl fun _ => Iff.rfl
  | transferred i k n =>
    obtain ⟨receiver, download, -, present, -, rfl⟩ := step_transferred taken
    exact latest.of_same counted' latest.active rfl (finished_set present fun same => same ▸ Iff.rfl)
  | killed => exact admitted.elim
  | reported i k n =>
    obtain ⟨receiver, download, free, present, waiting, rfl⟩ := step_reported taken
    obtain ⟨info, active⟩ := latest.active
    by_cases last : (receiver.batch k).totalTaskNum ≤ (receiver.batch k).finishedNum + 1
    · exact latestInForce_switch latest ordered active ⟨free, present, ⟨download, waiting⟩, last⟩ counted'
    · rw [onDownloadFinished_early last] at counted' ⊢
      refine latest.of_same counted' ⟨info, active⟩ rfl (finished_set present fun same => ?_)
      subst same
      exact iff_of_false (fun finished => last finished.2) fun finished => last (finished.2.trans (Nat.le_succ _))

/-- A step rolls the container back exactly when it is a last completion that comes after
one of a later receiver. -/
theorem owner_le_iff {kind : MediaKind} {e : Event} (latest : LatestInForce kind w)
    (admitted : LivesOn terminal e) :
    (∀ t, step terminal w e = some t → w.owner kind ≤ t.owner kind) ↔ ReportsInOrder kind w e := by
  constructor
  · intro upward
    cases e with
    | reported i k n =>
      intro same receiver last j later after found finished
      subst same
      obtain ⟨t, taken, owner⟩ := owner_reportsLast latest.active last
      have below := upward t taken
      have above := latest.upper j later found finished
      omega
    | _ => trivial
  · intro ordered t taken
    rcases owner_step kind latest.active admitted taken with ⟨same, -⟩ | ⟨i, n, receiver, rfl, last, owner⟩
    · exact same.ge
    · rcases latest.reached with none | ⟨j, r, equal, found, finished⟩
      · omega
      · by_contra below
        exact ordered rfl receiver last j r (by omega) found finished

theorem owner_restart (xmlText : Option String) (files : Finset FilePath.Place) :
    (restart terminal xmlText files).owner = fun _ => 0 := by
  unfold restart
  split
  · rfl
  · split <;> rfl

/-- From a start of the terminal on, the container in force never goes back to that of an
earlier strategy exactly when the receivers report their last completions in the order in
which they were started. -/
theorem owner_neverDecreases_iff {kind : MediaKind} {first : Option String} {files : Finset FilePath.Place}
    {es : List Event} (boot : (restart terminal first files).adMediaInfo = some base)
    (lives : ∀ e ∈ es, LivesOn terminal e) :
    NeverDecreases (step terminal) (fun w => w.owner kind) (restart terminal first files) es ↔
      Steps (step terminal) (ReportsInOrder kind) (restart terminal first files) es := by
  have start : LatestInForce kind (restart terminal first files) := by
    refine ⟨counted_restart first files, ⟨base, boot⟩, ?_, Or.inl (by rw [owner_restart])⟩
    intro j r found
    simp [receivers_restart] at found
  have events : Steps (step terminal) (fun _ e => LivesOn terminal e) (restart terminal first files) es :=
    Steps.of_forall lives
  rw [neverDecreases_iff]
  have agree : ∀ w e, LatestInForce kind w → LivesOn terminal e →
      ((∀ t, step terminal w e = some t → w.owner kind ≤ t.owner kind) ↔ ReportsInOrder kind w e) :=
    fun _ _ latest admitted => owner_le_iff latest admitted
  refine steps_congr agree ?_ start events
  intro s e t latest admitted upward taken
  exact latestInForce_step latest admitted ((owner_le_iff latest admitted).mp upward) taken

/-- A server whose second strategy adds a short video where the first adds a long one. -/
def racingTerminal : Terminal := terminalFor [
  ("base", strategyElement [("1", "a.mp4")] []),
  ("long", strategyElement [("1", "a.mp4"), ("2", "long.mp4")] []),
  ("short", strategyElement [("1", "a.mp4"), ("3", "short.mp4")] [])]

def racingStart : World := restart racingTerminal (some "base") (racingTerminal.places ["a.mp4"])

/-- Both updates start before either is done, and the later one finishes first. -/
def overtaking : List Event :=
  [.fetched "long", .saved, .fetched "short", .saved, .transferred 1 .video 0, .reported 1 .video 0]

def lateCompletion : List Event := [.transferred 0 .video 0, .reported 0 .video 0]

/-- So far the only last completion reported is that of the latest receiver. -/
theorem overtaking_never_decreases :
    NeverDecreases (step racingTerminal) (fun w => w.owner .video) racingStart overtaking := by
  refine (owner_neverDecreases_iff rfl (by decide)).mpr ?_
  apply Steps.cons trivial rfl
  apply Steps.cons trivial rfl
  apply Steps.cons trivial rfl
  apply Steps.cons trivial rfl
  apply Steps.cons trivial rfl
  refine .cons ?_ rfl trivial
  intro _ _ _ j later above found
  have inside : j < 2 := (List.getElem?_eq_some_iff.mp found).1
  omega

/-- The earlier update then puts its own container back in force. -/
theorem late_completion_rolls_back :
    ¬ NeverDecreases (step racingTerminal) (fun w => w.owner .video) racingStart (overtaking ++ lateCompletion) ∧
    (∃ w info, run (step racingTerminal) racingStart overtaking = some w ∧ w.adMediaInfo = some info ∧
      info.ids .video = [some "3", some "1"]) ∧
    ∃ w info, run (step racingTerminal) racingStart (overtaking ++ lateCompletion) = some w ∧
      w.adMediaInfo = some info ∧ info.ids .video = [some "2", some "1"] := by
  refine ⟨fun monotone => ?_, ⟨_, _, rfl, rfl, by decide⟩, ⟨_, _, rfl, rfl, by decide⟩⟩
  have below := monotone overtaking lateCompletion [] rfl _ _ rfl rfl
  exact absurd below (by decide)

/-- The strategy whose container object an owner stands for. -/
def sourceAt (base : AdMediaInfo) (receivers : List MediaUpdateReceiver) : Nat → Option AdMediaInfo
  | 0 => some base
  | j + 1 => receivers[j]?.map MediaUpdateReceiver.newMediaInfo

/-- At the last completion of a receiver, the strategy in force still lists every id that the
strategy it was compared with lists and its own does not. The strategy in force and the one
compared with are the same unless another receiver has switched the kind over in between. -/
def NotOvertaken (base : AdMediaInfo) (w : World) : Event → Prop
  | .reported i kind n => ∀ receiver, ReportsLast w i kind n receiver → ∀ compared inForce,
      sourceAt base w.receivers (receiver.against kind) = some compared →
      sourceAt base w.receivers (w.owner kind) = some inForce →
      ∀ id ∈ compared.ids kind, id ∉ receiver.newMediaInfo.ids kind → id ∈ inForce.ids kind
  | _ => True

/-- The containers in force and the delete sets come from the strategies recorded for them. -/
structure Tracked (base : AdMediaInfo) (w : World) : Prop where
  alive : w.crashed = false
  active : ∃ info, w.adMediaInfo = some info ∧ ∀ kind, ∃ source,
    sourceAt base w.receivers (w.owner kind) = some source ∧ info.container kind = source.container kind
  computed : ∀ (j : Nat) (r : MediaUpdateReceiver), w.receivers[j]? = some r → ∀ kind, ∃ source,
    sourceAt base w.receivers (r.against kind) = some source ∧
    ∀ id, id ∈ (r.batch kind).deleteSet ↔ id ∈ source.ids kind ∧ id ∉ r.newMediaInfo.ids kind

theorem sourceAt_set {receivers : List MediaUpdateReceiver} {i : Nat} {receiver : MediaUpdateReceiver}
    {kind : MediaKind} {batch : Batch} (present : receivers[i]? = some receiver) (owner : Nat) :
    sourceAt base (receivers.set i (receiver.setBatch kind batch)) owner = sourceAt base receivers owner := by
  cases owner with
  | zero => rfl
  | succ j =>
    simp only [sourceAt]
    by_cases same : j = i
    · subst same
      rw [List.getElem?_set_self (List.getElem?_eq_some_iff.mp present).1, present]
      rfl
    · rw [List.getElem?_set_ne (Ne.symm same)]

theorem sourceAt_append {receivers more : List MediaUpdateReceiver} {owner : Nat} {source : AdMediaInfo}
    (recorded : sourceAt base receivers owner = some source) :
    sourceAt base (receivers ++ more) owner = some source := by
  cases owner with
  | zero => exact recorded
  | succ j =>
    simp only [sourceAt, Option.map_eq_some_iff] at recorded ⊢
    obtain ⟨r, found, same⟩ := recorded
    exact ⟨r, (List.getElem?_append_left (List.getElem?_eq_some_iff.mp found).1).trans found, same⟩

/-- A step that changes one batch, but not what it is to delete. -/
theorem Tracked.computed_set {i : Nat} {receiver : MediaUpdateReceiver} {kind : MediaKind} {batch : Batch}
    (tracked : Tracked base w) (present : w.receivers[i]? = some receiver)
    (deleteSet : batch.deleteSet = (receiver.batch kind).deleteSet) (j : Nat) (r : MediaUpdateReceiver)
    (found : (w.receivers.set i (receiver.setBatch kind batch))[j]? = some r) (k : MediaKind) :
    ∃ source, sourceAt base (w.receivers.set i (receiver.setBatch kind batch)) (r.against k) = some source ∧
      ∀ id, id ∈ (r.batch k).deleteSet ↔ id ∈ source.ids k ∧ id ∉ r.newMediaInfo.ids k := by
  obtain ⟨r₀, before, target, against, batches⟩ := batch_after present found
  rw [sourceAt_set present, target, against]
  have same : (r.batch k).deleteSet = (r₀.batch k).deleteSet := by
    rcases batches k with ⟨-, rfl, rfl, new⟩ | ⟨-, unchanged⟩
    · rw [new, deleteSet]
    · rw [unchanged]
  rw [same]
  exact tracked.computed j r₀ before k

theorem tracked_fetched {xmlText : String} (tracked : Tracked base w)
    (admitted : LivesOn terminal (.fetched xmlText)) (taken : step terminal w (.fetched xmlText) = some w') :
    Tracked base w' := by
  obtain ⟨-, rfl⟩ := step_fetched taken
  obtain ⟨info, active, sources⟩ := tracked.active
  obtain ⟨newMedia, parsed⟩ := admitted
  rw [handler_of_parsed parsed active]
  refine ⟨tracked.alive, ⟨info, active, fun kind => ?_⟩, fun j r found kind => ?_⟩
  · obtain ⟨source, recorded, container⟩ := sources kind
    exact ⟨source, sourceAt_append recorded, container⟩
  · rcases mem_append_cases found with before | ⟨-, rfl⟩
    · obtain ⟨source, recorded, sets⟩ := tracked.computed j r before kind
      exact ⟨source, sourceAt_append recorded, sets⟩
    · obtain ⟨source, recorded, container⟩ := sources kind
      refine ⟨source, sourceAt_append recorded, fun id => ?_⟩
      rw [← ids_congr container]
      exact mem_deleteSet

theorem tracked_switch {i n : Nat} {kind : MediaKind} {receiver : MediaUpdateReceiver}
    (tracked : Tracked base w)
    (active : w.adMediaInfo = some info) (last : ReportsLast w i kind n receiver)
    (alive : (onDownloadFinished (downloadFinished terminal kind) kind w i receiver n).crashed = false) :
    Tracked base (onDownloadFinished (downloadFinished terminal kind) kind w i receiver n) := by
  obtain ⟨-, present, -, reaches⟩ := last
  rw [onDownloadFinished_last active reaches] at alive ⊢
  refine ⟨alive, ⟨_, rfl, fun k => ?_⟩, tracked.computed_set present rfl⟩
  rw [sourceAt_set present]
  by_cases same : k = kind
  · subst same
    refine ⟨receiver.newMediaInfo, ?_, container_setContainer_self ..⟩
    simp only [Function.update_self, sourceAt, present, Option.map_some]
  · obtain ⟨info', active', sources⟩ := tracked.active
    obtain rfl := Option.some.inj (active.symm.trans active')
    obtain ⟨source, recorded, container⟩ := sources k
    refine ⟨source, ?_, (container_setContainer_other info same _).trans container⟩
    change sourceAt base w.receivers (Function.update w.owner kind (i + 1) k) = some source
    rw [Function.update_of_ne same]
    exact recorded

theorem tracked_step {e : Event} (tracked : Tracked base w) (admitted : LivesOn terminal e)
    (taken : step terminal w e = some w') (alive : w'.crashed = false) : Tracked base w' := by
  cases e with
  | polled scheduleId =>
    obtain ⟨-, rfl⟩ := step_polled taken
    obtain ⟨info, active, sources⟩ := tracked.active
    rw [webRequest_of_active active]
    refine ⟨tracked.alive, ⟨_, rfl, fun kind => ?_⟩, tracked.computed⟩
    simpa only [container_resolution] using sources kind
  | fetched xmlText => exact tracked_fetched tracked admitted taken
  | saved =>
    obtain ⟨text, -, -, rfl⟩ := step_saved taken
    exact ⟨tracked.alive, tracked.active, tracked.computed⟩
  | transferred i k n =>
    obtain ⟨receiver, download, -, present, -, rfl⟩ := step_transferred taken
    refine ⟨alive, ?_, tracked.computed_set present rfl⟩
    obtain ⟨info, active, sources⟩ := tracked.active
    exact ⟨info, active, fun kind => by rw [sourceAt_set present]; exact sources kind⟩
  | killed => exact admitted.elim
  | reported i k n =>
    obtain ⟨receiver, download, free, present, waiting, rfl⟩ := step_reported taken
    obtain ⟨info, active, sources⟩ := tracked.active
    by_cases last : (receiver.batch k).totalTaskNum ≤ (receiver.batch k).finishedNum + 1
    · exact tracked_switch tracked active ⟨free, present, ⟨download, waiting⟩, last⟩ alive
    · rw [onDownloadFinished_early last] at alive ⊢
      refine ⟨alive, ⟨info, active, fun kind => ?_⟩, tracked.computed_set present rfl⟩
      rw [sourceAt_set present]
      exact sources kind

/-- The delete loop of a last completion throws exactly when an id it is to delete is no
longer listed. -/
theorem switch_alive_iff {i n : Nat} {kind : MediaKind} {receiver : MediaUpdateReceiver}
    (tracked : Tracked base w) (last : ReportsLast w i kind n receiver) :
    (onDownloadFinished (downloadFinished terminal kind) kind w i receiver n).crashed = false ↔
      ∀ compared inForce, sourceAt base w.receivers (receiver.against kind) = some compared →
        sourceAt base w.receivers (w.owner kind) = some inForce →
        ∀ id ∈ compared.ids kind, id ∉ receiver.newMediaInfo.ids kind → id ∈ inForce.ids kind := by
  obtain ⟨-, present, -, reaches⟩ := last
  obtain ⟨info, active, sources⟩ := tracked.active
  obtain ⟨inForce, owned, container⟩ := sources kind
  obtain ⟨compared, recorded, sets⟩ := tracked.computed i receiver present kind
  have alive : (deleteFiles terminal info kind (receiver.batch kind).deleteSet w.files).2 = false ↔
      ∀ id ∈ compared.ids kind, id ∉ receiver.newMediaInfo.ids kind → id ∈ inForce.ids kind := by
    rw [← Bool.not_eq_true, deleteFiles_throws, ids_congr container]
    simp only [sets, not_exists, not_and, not_not, and_imp]
  rw [onDownloadFinished_last active reaches]
  refine alive.trans ?_
  constructor
  · intro listed compared' inForce' recorded' owned'
    obtain rfl := Option.some.inj (recorded.symm.trans recorded')
    obtain rfl := Option.some.inj (owned.symm.trans owned')
    exact listed
  · exact fun listed => listed compared inForce recorded owned

theorem alive_iff {e : Event} (tracked : Tracked base w) (admitted : LivesOn terminal e) :
    (∀ t, step terminal w e = some t → t.crashed = false) ↔ NotOvertaken base w e := by
  obtain ⟨info, active, sources⟩ := tracked.active
  cases e with
  | polled scheduleId =>
    refine iff_of_true (fun t taken => ?_) trivial
    obtain ⟨-, rfl⟩ := step_polled taken
    rw [webRequest_of_active active]
    exact tracked.alive
  | fetched xmlText =>
    refine iff_of_true (fun t taken => ?_) trivial
    exact (tracked_fetched tracked admitted taken).alive
  | saved =>
    refine iff_of_true (fun t taken => ?_) trivial
    obtain ⟨text, alive, -, rfl⟩ := step_saved taken
    exact alive
  | transferred i k n =>
    refine iff_of_true (fun t taken => ?_) trivial
    obtain ⟨receiver, download, alive, -, -, rfl⟩ := step_transferred taken
    exact alive
  | killed => exact admitted.elim
  | reported i k n =>
    constructor
    · intro survives receiver last
      have ⟨free, present, ⟨download, waiting⟩, _⟩ := last
      exact (switch_alive_iff tracked last).mp (survives _ (reported_enabled free present waiting))
    · intro listed t taken
      obtain ⟨receiver, download, free, present, waiting, rfl⟩ := step_reported taken
      by_cases last : (receiver.batch k).totalTaskNum ≤ (receiver.batch k).finishedNum + 1
      · have reports : ReportsLast w i k n receiver := ⟨free, present, ⟨download, waiting⟩, last⟩
        exact (switch_alive_iff tracked reports).mpr (listed receiver reports)
      · rw [onDownloadFinished_early last]
        exact tracked.alive

theorem tracked_restart {first : Option String} {files : Finset FilePath.Place}
    (boot : (restart terminal first files).adMediaInfo = some base) :
    Tracked base (restart terminal first files) := by
  refine ⟨?_, ⟨base, boot, fun kind => ⟨base, by rw [owner_restart]; rfl, rfl⟩⟩, ?_⟩
  · unfold restart at boot ⊢
    split at boot
    · rfl
    · split at boot
      · cases boot
      · rfl
  · intro j r found
    simp [receivers_restart] at found

/-- From a start of the terminal on, no completion callback throws exactly when every last
completion finds the ids it is to delete still listed by the strategy in force. -/
theorem never_crashes_iff {first : Option String} {files : Finset FilePath.Place} {es : List Event}
    (boot : (restart terminal first files).adMediaInfo = some base) (lives : ∀ e ∈ es, LivesOn terminal e) :
    Throughout (step terminal) (fun w => w.crashed = false) (restart terminal first files) es ↔
      Steps (step terminal) (NotOvertaken base) (restart terminal first files) es := by
  have start := tracked_restart boot
  have events : Steps (step terminal) (fun _ e => LivesOn terminal e) (restart terminal first files) es :=
    Steps.of_forall lives
  have agree : ∀ w e, Tracked base w → LivesOn terminal e →
      ((∀ t, step terminal w e = some t → t.crashed = false) ↔ NotOvertaken base w e) :=
    fun _ _ tracked admitted => alive_iff tracked admitted
  refine throughout_congr agree ?_ start start.alive events
  intro s e t tracked admitted _ survives taken
  exact tracked_step tracked admitted taken survives

/-- A server that replaces its only video. -/
def replacingTerminal : Terminal := terminalFor [
  ("base", strategyElement [("1", "a.mp4")] []),
  ("next", strategyElement [("2", "b.mp4")] [])]

def replacingStart : World := restart replacingTerminal (some "base") (replacingTerminal.places ["a.mp4"])

def replacing : List Event := [.fetched "next", .saved, .transferred 0 .video 0, .reported 0 .video 0]

theorem replacing_never_crashes :
    Throughout (step replacingTerminal) (fun w => w.crashed = false) replacingStart replacing := by
  refine (never_crashes_iff rfl (by decide)).mpr ?_
  apply Steps.cons trivial rfl
  apply Steps.cons trivial rfl
  apply Steps.cons trivial rfl
  refine .cons ?_ rfl trivial
  intro receiver last compared inForce recorded owned id listed _
  obtain rfl := Option.some.inj last.2.1
  obtain rfl := Option.some.inj recorded
  obtain rfl := Option.some.inj owned
  exact listed

/-- The next poll comes while the video is still downloading and starts a second receiver.
Its delete loop looks up the old video when the first receiver has already replaced it. -/
theorem second_receiver_throws : ∃ w, run (step replacingTerminal) replacingStart
    [.fetched "next", .saved, .fetched "next", .saved, .transferred 0 .video 0, .transferred 1 .video 0,
      .reported 0 .video 0, .reported 1 .video 0] = some w ∧ w.crashed = true :=
  ⟨_, rfl, by decide⟩

end AdTerminal.Strategy
