import AdTerminal.Strategy.CrashRecovery

/-! Responses that are no strategy. `parseXmlFromText` returns null for a text that is not
XML and throws for a document that lacks an element, and the handler passes on whatever it
gets, so anything but a complete strategy ends the process. -/

namespace AdTerminal.Strategy
open Transition

/-- The document has all elements a strategy consists of. -/
structure Complete (root : Element) : Prop where
  files : ∃ files, root.element "files" = some files ∧ (files.element "media").isSome ∧ (files.element "pic").isSome
  media_play : (root.element "media_play").isSome
  pic_play : (root.element "pic_play").isSome

/-- The text is a complete strategy. -/
def CompleteText (parseText : String → Option Element) (xmlText : String) : Prop :=
  ∃ root, parseText xmlText = some root ∧ Complete root

theorem dereference_ok {α : Type} {reference : Option α} {object : α}
    (found : dereference reference = .ok object) : reference = some object := by
  cases reference with
  | none => cases found
  | some other => exact congrArg some (Except.ok.inj found)

theorem dereference_bind {α β : Type} (object : α) (next : α → Except Thrown β) :
    (do let x ← dereference (some object); next x) = next object := rfl

/-- The peeling of one step off a computation that may throw. -/
theorem bind_ok {α β : Type} {first : Except Thrown α} {next : α → Except Thrown β} {result : β}
    (whole : (do let x ← first; next x) = .ok result) : ∃ x, first = .ok x ∧ next x = .ok result := by
  cases first with
  | error thrown => cases whole
  | ok x => exact ⟨x, rfl, whole⟩

theorem bind_of_ok {α β : Type} {first : Except Thrown α} {x : α} (ok : first = .ok x) (next : α → Except Thrown β) :
    (do let y ← first; next y) = next x := by
  rw [ok]
  rfl

theorem complete_of_parseXml {root : Element} {info : AdMediaInfo} (parsed : parseXml root = .ok info) :
    Complete root := by
  obtain ⟨files, filesFound, parsed⟩ := bind_ok parsed
  obtain ⟨media, mediaFound, parsed⟩ := bind_ok parsed
  obtain ⟨pic, picFound, parsed⟩ := bind_ok parsed
  obtain ⟨media_play, videoFound, parsed⟩ := bind_ok parsed
  obtain ⟨pic_play, imageFound, -⟩ := bind_ok parsed
  refine ⟨⟨files, dereference_ok filesFound, ?_, ?_⟩, ?_, ?_⟩
  · exact Option.isSome_iff_exists.mpr ⟨media, dereference_ok mediaFound⟩
  · exact Option.isSome_iff_exists.mpr ⟨pic, dereference_ok picFound⟩
  · exact Option.isSome_iff_exists.mpr ⟨media_play, dereference_ok videoFound⟩
  · exact Option.isSome_iff_exists.mpr ⟨pic_play, dereference_ok imageFound⟩

theorem parseXml_of_complete {root : Element} (complete : Complete root) : ∃ info, parseXml root = .ok info := by
  obtain ⟨⟨files, filesFound, media, pic⟩, media_play, pic_play⟩ := complete
  obtain ⟨mediaElement, mediaFound⟩ := Option.isSome_iff_exists.mp media
  obtain ⟨pictureElement, picFound⟩ := Option.isSome_iff_exists.mp pic
  obtain ⟨videoInterval, videoFound⟩ := Option.isSome_iff_exists.mp media_play
  obtain ⟨imageInterval, imageFound⟩ := Option.isSome_iff_exists.mp pic_play
  simp only [parseXml, filesFound, videoFound, imageFound, dereference_bind, mediaFound, picFound]
  exact ⟨_, rfl⟩

/-- Only a complete strategy is parsed. -/
theorem parsed_iff_complete {parseText : String → Option Element} {xmlText : String} :
    (∃ info, parseXmlFromText parseText xmlText = .ok (some info)) ↔ CompleteText parseText xmlText := by
  unfold parseXmlFromText CompleteText
  cases parseText xmlText with
  | none => simp
  | some root =>
    constructor
    · rintro ⟨info, parsed⟩
      cases outcome : parseXml root with
      | error thrown => simp [outcome, Except.map] at parsed
      | ok media => exact ⟨root, rfl, complete_of_parseXml outcome⟩
    · rintro ⟨root', same, complete⟩
      obtain rfl := Option.some.inj same
      obtain ⟨info, parsed⟩ := parseXml_of_complete complete
      exact ⟨info, by simp [parsed, Except.map]⟩

/-- `savaXmlMediaStrategy`. -/
def savaXmlMediaStrategy (w : World) (xmlText : String) : World := { w with xmlText := some xmlText, saving := none }

/-- `dispatchMessage` on `QUEST_FileServer_SUCCESS`, as a whole: an exception leaves it
before the text is stored. -/
def dispatchMessage (terminal : Terminal) (w : World) (xmlText : String) : World :=
  let handled := mediaStrategyUpdateHandler terminal w xmlText
  if handled.crashed then handled else savaXmlMediaStrategy handled xmlText

section
variable {terminal : Terminal} {w w' : World} {xmlText : String}

/-- A text that is no complete strategy makes `process` throw, or already the parser. -/
theorem handler_of_incomplete (incomplete : ¬ CompleteText terminal.parseText xmlText) :
    mediaStrategyUpdateHandler terminal w xmlText = { w with crashed := true } := by
  unfold mediaStrategyUpdateHandler
  split
  next newMedia oldMedia parsed active => exact absurd (parsed_iff_complete.mp ⟨newMedia, parsed⟩) incomplete
  next => rfl

/-- The message handled as a whole is a run of its two events, or of the first when it throws. -/
theorem run_dispatchMessage (free : w.MainFree) :
    run (step terminal) w (if (mediaStrategyUpdateHandler terminal w xmlText).crashed then [.fetched xmlText]
      else [.fetched xmlText, .saved]) = some (dispatchMessage terminal w xmlText) := by
  have fetched : step terminal w (.fetched xmlText) = some (mediaStrategyUpdateHandler terminal w xmlText) :=
    if_pos free
  by_cases thrown : (mediaStrategyUpdateHandler terminal w xmlText).crashed = true
  · simp only [dispatchMessage, if_pos thrown, run, fetched, Option.bind_some]
  · simp only [dispatchMessage, if_neg thrown]
    have saving : (mediaStrategyUpdateHandler terminal w xmlText).saving = some xmlText := by
      unfold mediaStrategyUpdateHandler at thrown ⊢
      split
      next => rfl
      next unparsed => simp at thrown
    have saved : step terminal (mediaStrategyUpdateHandler terminal w xmlText) .saved =
        some (savaXmlMediaStrategy (mediaStrategyUpdateHandler terminal w xmlText) xmlText) := by
      simp only [step, if_neg thrown, saving, Option.map_some, savaXmlMediaStrategy]
    simp only [run, fetched, saved, Option.bind_some]

/-- Everything stored is complete, so the manager has a strategy as long as the process lives. -/
structure Known (terminal : Terminal) (w : World) : Prop where
  stored : ∀ text, w.xmlText = some text → CompleteText terminal.parseText text
  saving : ∀ text, w.saving = some text → CompleteText terminal.parseText text
  active : w.crashed = false → w.adMediaInfo.isSome

theorem known_restart {stored : Option String}
    (complete : ∀ text, stored = some text → CompleteText terminal.parseText text)
    (files : Finset FilePath.Place) : Known terminal (restart terminal stored files) := by
  refine ⟨by rwa [xmlText_restart], by simp [saving_restart], fun _ => ?_⟩
  cases stored with
  | none => rfl
  | some text =>
    obtain ⟨info, parsed⟩ := parsed_iff_complete.mpr (complete text rfl)
    rw [restart_some parsed]
    rfl

theorem known_handler (known : Known terminal w) (free : w.MainFree) :
    Known terminal (mediaStrategyUpdateHandler terminal w xmlText) := by
  obtain ⟨oldMedia, active⟩ := Option.isSome_iff_exists.mp (known.active free.1)
  by_cases complete : CompleteText terminal.parseText xmlText
  · obtain ⟨newMedia, parsed⟩ := parsed_iff_complete.mpr complete
    rw [handler_of_parsed parsed active]
    exact ⟨known.stored, fun text same => Option.some.inj same ▸ complete, known.active⟩
  · rw [handler_of_incomplete complete]
    exact ⟨known.stored, known.saving, by simp⟩

theorem known_reported {i n : Nat} {kind : MediaKind} {receiver : MediaUpdateReceiver} (known : Known terminal w)
    (free : w.MainFree) :
    Known terminal (onDownloadFinished (downloadFinished terminal kind) kind w i receiver n) := by
  obtain ⟨info, active⟩ := Option.isSome_iff_exists.mp (known.active free.1)
  by_cases last : (receiver.batch kind).totalTaskNum ≤ (receiver.batch kind).finishedNum + 1
  · rw [onDownloadFinished_last active last]
    exact ⟨known.stored, known.saving, fun _ => rfl⟩
  · rw [onDownloadFinished_early last]
    exact ⟨known.stored, known.saving, known.active⟩

theorem known_step {event : Event} (known : Known terminal w) (taken : step terminal w event = some w') :
    Known terminal w' := by
  cases event with
  | polled scheduleId =>
    obtain ⟨free, rfl⟩ := step_polled taken
    obtain ⟨info, active⟩ := Option.isSome_iff_exists.mp (known.active free.1)
    rw [webRequest_of_active active]
    exact ⟨known.stored, known.saving, fun _ => rfl⟩
  | fetched text =>
    obtain ⟨free, rfl⟩ := step_fetched taken
    exact known_handler known free
  | saved =>
    obtain ⟨text, -, saving, rfl⟩ := step_saved taken
    exact ⟨fun other same => Option.some.inj same ▸ known.saving text saving, by simp, known.active⟩
  | transferred i kind n =>
    obtain ⟨receiver, download, -, -, -, rfl⟩ := step_transferred taken
    exact ⟨known.stored, known.saving, known.active⟩
  | reported i kind n =>
    obtain ⟨receiver, download, free, -, -, rfl⟩ := step_reported taken
    exact known_reported known free
  | killed =>
    obtain rfl := Option.some.inj taken
    exact known_restart known.stored w.files

/-- The text is a complete strategy, its receiver has started the missing downloads against
the strategy in force, and it is stored. -/
structure Processed (terminal : Terminal) (w : World) (xmlText : String) (w' : World) : Prop where
  complete : CompleteText terminal.parseText xmlText
  processed : ∃ newMedia oldMedia, parseXmlFromText terminal.parseText xmlText = .ok (some newMedia) ∧
    w.adMediaInfo = some oldMedia ∧ w'.receivers = w.receivers ++
      [{ newMediaInfo := newMedia, batch := process terminal oldMedia newMedia, against := w.owner }]
  saved : w'.xmlText = some xmlText
  alive : w'.crashed = false

/-- No exception, no download, and neither the strategy in force nor the stored text changed. -/
structure Unchanged (w w' : World) : Prop where
  alive : w'.crashed = false
  receivers : w'.receivers = w.receivers
  adMediaInfo : w'.adMediaInfo = w.adMediaInfo
  xmlText : w'.xmlText = w.xmlText

theorem processed_of_complete (known : Known terminal w) (free : w.MainFree)
    (complete : CompleteText terminal.parseText xmlText) :
    Processed terminal w xmlText (dispatchMessage terminal w xmlText) := by
  obtain ⟨oldMedia, active⟩ := Option.isSome_iff_exists.mp (known.active free.1)
  obtain ⟨newMedia, parsed⟩ := parsed_iff_complete.mpr complete
  have alive : ¬ (mediaStrategyUpdateHandler terminal w xmlText).crashed = true := by
    rw [handler_of_parsed parsed active]
    simp [free.1]
  simp only [dispatchMessage, if_neg alive, savaXmlMediaStrategy]
  refine ⟨complete, ⟨newMedia, oldMedia, parsed, active, ?_⟩, rfl, Bool.eq_false_iff.mpr alive⟩
  rw [handler_of_parsed parsed active]

theorem thrown_of_incomplete (incomplete : ¬ CompleteText terminal.parseText xmlText) :
    (dispatchMessage terminal w xmlText).crashed = true := by
  simp only [dispatchMessage, handler_of_incomplete incomplete, if_true]

end

/-- In every state a terminal without a stored text can come to, after whatever responses,
downloads and losses of the process: a response is either processed and stored, or changes
nothing, exactly when it is a complete strategy. Any other text ends the process. -/
theorem response_harmless_iff {terminal : Terminal} {files : Finset FilePath.Place} {es : List Event} {w : World}
    (reached : run (step terminal) (restart terminal none files) es = some w) (free : w.MainFree) (xmlText : String) :
    Processed terminal w xmlText (dispatchMessage terminal w xmlText) ∨
      Unchanged w (dispatchMessage terminal w xmlText) ↔ CompleteText terminal.parseText xmlText := by
  have start : Known terminal (restart terminal none files) := known_restart (by simp) files
  have known : Known terminal w := run_invariant (fun _ _ _ inv _ taken => known_step inv taken) start Steps.any reached
  constructor
  · rintro (processed | unchanged)
    · exact processed.complete
    · by_contra incomplete
      have alive := unchanged.alive
      simp [thrown_of_incomplete incomplete] at alive
  · exact fun complete => Or.inl (processed_of_complete known free complete)

theorem served_response_harmless :
    Processed servingTerminal emptyTerminal "served" (dispatchMessage servingTerminal emptyTerminal "served") ∨
      Unchanged emptyTerminal (dispatchMessage servingTerminal emptyTerminal "served") := by
  have reached : run (step servingTerminal) (restart servingTerminal none ∅) [] = some emptyTerminal := rfl
  exact (response_harmless_iff reached ⟨rfl, rfl⟩ "served").mpr (parsed_iff_complete.mp ⟨_, rfl⟩)

/-- An error page of the server, which is no XML, ends the process. -/
theorem errorPage_throws :
    (dispatchMessage servingTerminal emptyTerminal "502 Bad Gateway").crashed = true ∧
      ¬ (Processed servingTerminal emptyTerminal "502 Bad Gateway"
          (dispatchMessage servingTerminal emptyTerminal "502 Bad Gateway") ∨
        Unchanged emptyTerminal (dispatchMessage servingTerminal emptyTerminal "502 Bad Gateway")) := by
  refine ⟨rfl, ?_⟩
  rintro (processed | unchanged)
  · cases processed.alive
  · cases unchanged.alive

end AdTerminal.Strategy
