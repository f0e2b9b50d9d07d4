import AdTerminal.Camera.UVCCameraEnumerator
import AdTerminal.Camera.UVCCameraVideoCapturer
import AdTerminal.Library.Stateful

/-! Starts that fail. An operation of the camera may throw, for instance because no camera is
connected. The runnable of a start shows a message then; the handler stays set. An operation may
also return without effect: a camera that has been destroyed takes the call and does not preview. -/

namespace AdTerminal.Capture.FailedStart
open Transition Stateful

/-- The operations of the camera on the camera thread. A start calls each of them once at most. -/
inductive Operation where
  | setUVCPreviewTexture
  | setUVCPreviewSizeRate
  | stopUVCPreview
  | setUVCCameraFrameCallback (frameCallback : Bool)
  | startUVCPreview
  deriving DecidableEq, Repr

inductive Outcome where
  | throws
  | returns
  | takesEffect
  deriving DecidableEq, Repr

abbrev Program := EStateM Thrown UVCCameraVideoCapturer

section
variable (outcome : Operation → Outcome)

/-- An operation throws, returns as if it had not been called, or does what it does to the camera. -/
def perform (operation : Operation) (effect : UVCCameraInterface → UVCCameraInterface) : Program Unit :=
  match outcome operation with
  | .throws => throw .runtimeException
  | .returns => pure ()
  | .takesEffect => modify fun s => { s with mUVCCamera := effect s.mUVCCamera }

/-- A stop that returns has left no preview: without a camera, or on a closed one, there is none. -/
def stopUVCPreview : Program Unit := do
  if outcome .stopUVCPreview = .throws then throw .runtimeException
  else modify fun s => { s with mUVCCamera := s.mUVCCamera.stopUVCPreview }

/-- The preview in an earlier format is stopped. -/
def stopEarlierPreview (captureFormat : Option CaptureFormat) : Program Unit :=
  if captureFormat.isSome then do
    stopUVCPreview outcome
    perform outcome (.setUVCCameraFrameCallback false) (·.setUVCCameraFrameCallback false)
  else pure ()

def startPreviewOnCameraThread (_width _height _framerate : Int) : Program Unit := do
  let s ← get
  if s.mCameraThreadHandler = false then pure ()
  else if some previewFormat = s.captureFormat then pure ()
  else
    perform outcome .setUVCPreviewSizeRate (·.setUVCPreviewSizeRate previewFormat)
    stopEarlierPreview outcome s.captureFormat
    modify fun s => { s with captureFormat := some previewFormat }
    perform outcome (.setUVCCameraFrameCallback true) (·.setUVCCameraFrameCallback true)
    perform outcome .startUVCPreview (·.startUVCPreview)

def startCaptureOnCameraThread (session : Nat) (width height framerate : Int) (frameObserver : Nat) :
    Program Unit := do
  let s ← get
  if s.mCameraThreadHandler = false then pure ()
  else
    modify fun s => { s with frameObserver := some frameObserver }
    let helper ← orThrow .runtimeException s.mSurfaceHelper
    perform outcome .setUVCPreviewTexture (·.setUVCPreviewTexture helper)
    startPreviewOnCameraThread outcome width height framerate
    modify fun s => { s with
      calls := s.calls ++ [(frameObserver, .onCapturerStarted true)]
      started := some session }

/-- What the runnable of a start leaves: its exceptions are caught, and a message is shown. -/
def started (session : Nat) (width height framerate : Int) (frameObserver : Nat) (s : UVCCameraVideoCapturer) :
    UVCCameraVideoCapturer :=
  final (tryCatch (startCaptureOnCameraThread outcome session width height framerate frameObserver) fun _ => pure ()) s

/-- The other runnables catch nothing, and an exception ends the process. -/
def run : Runnable → UVCCameraVideoCapturer → Option UVCCameraVideoCapturer
  | .startCapture session width height framerate frameObserver, s =>
    some (started outcome session width height framerate frameObserver s)
  | .stopCapture, s => if outcome .stopUVCPreview = .throws then none else some (stopCaptureOnCameraThread s)
  | .changeCaptureFormat width height framerate, s =>
    match (startPreviewOnCameraThread outcome width height framerate).run s with
    | .ok _ t => some t
    | .error _ _ => none
  | runnable, s => runnable.run s

end

/-- `startCapture`. `postAtTime` may fail, with the handler set before. -/
def startCapture (width height framerate : Int) (surfaceTextureHelper : Option Nat) (applicationContext : Bool)
    (frameObserver : Nat) (posts : Bool) (s : UVCCameraVideoCapturer) : Except Thrown UVCCameraVideoCapturer :=
  match surfaceTextureHelper with
  | none => .ok { s with calls := s.calls ++ [(frameObserver, .onCapturerStarted false)] }
  | some helper =>
    if applicationContext = false then .error .illegalArgumentException
    else if s.mCameraThreadHandler then .error .runtimeException
    else
      let s := { s with mCameraThreadHandler := true, mSurfaceHelper := some helper, session := s.session + 1 }
      if posts then .ok (maybePostOnCameraThread (.startCapture s.session width height framerate frameObserver) s)
      else .ok { s with calls := s.calls ++ [(frameObserver, .onCapturerStarted false)] }

/-- Calls of `startCapture`, runnables with how the operations in them end, and the other events. -/
inductive Event where
  | startCapture (width height framerate : Int) (surfaceTextureHelper : Option Nat) (applicationContext : Bool)
      (frameObserver : Nat) (posts : Bool)
  | run (outcome : Operation → Outcome)
  | other (event : Capture.Event)

/-- Neither a start nor a runnable. -/
def isOther : Capture.Event → Bool
  | .startCapture .. => false
  | .run => false
  | _ => true

def step (s : UVCCameraVideoCapturer) : Event → Option UVCCameraVideoCapturer
  | .startCapture width height framerate surfaceTextureHelper applicationContext frameObserver posts =>
    let started := startCapture width height framerate surfaceTextureHelper applicationContext frameObserver posts s
    some (started.toOption.getD s)
  | .run outcome =>
    match s.capturing, s.queue with
    | none, runnable :: rest => run outcome runnable { s with queue := rest }
    | _, _ => none
  | .other event => if isOther event then Capture.step s event else none

/-- `startCapture` can be called without throwing. -/
def Startable (s : UVCCameraVideoCapturer) : Prop :=
  ∀ width height framerate helper frameObserver posts,
    ∃ t, startCapture width height framerate (some helper) true frameObserver posts s = .ok t

/-- The observer is called once: with true only if the preview runs, and after false the capturer
can be started. -/
def Reports (frameObserver : Nat) (s t : UVCCameraVideoCapturer) : Prop :=
  ∃ success, t.calls = s.calls ++ [(frameObserver, .onCapturerStarted success)] ∧
    (success = true → t.mUVCCamera.previewing = true) ∧ (success = false → Startable t)

/-- The calls that report a start. -/
def reports (s : UVCCameraVideoCapturer) : List (Nat × Bool) :=
  s.calls.filterMap fun call =>
    match call.2 with
    | .onCapturerStarted success => some (call.1, success)
    | _ => none

/-- A start is reported. Its call reports a failure, or leaves the report to the runnable that it
posts; that one reports when it is run. No other runnable or event reports anything. -/
def Reported (s : UVCCameraVideoCapturer) : Event → Prop
  | .startCapture width height framerate surfaceTextureHelper applicationContext frameObserver posts =>
    s.mCameraThreadHandler = false →
      ∃ t, startCapture width height framerate surfaceTextureHelper applicationContext frameObserver posts s = .ok t ∧
        (Reports frameObserver s t ∨ t.calls = s.calls ∧
          t.queue = s.queue ++ [.startCapture t.session width height framerate frameObserver])
  | .run outcome => ∀ t, step s (.run outcome) = some t →
      match s.queue with
      | .startCapture _ _ _ _ frameObserver :: _ => Reports frameObserver s t
      | _ => reports t = reports s
  | .other event => ∀ t, step s (.other event) = some t → reports t = reports s

/-- A start has a context and is posted, no format is kept from an earlier one, no operation that it
gets to throws, and the camera is open, so that it previews when it is told to. -/
def Succeeds (s : UVCCameraVideoCapturer) : Event → Prop
  | .startCapture _ _ _ surfaceTextureHelper applicationContext _ posts =>
    s.mCameraThreadHandler = false → surfaceTextureHelper.isSome → applicationContext = true ∧ posts = true
  | .run outcome => ∀ session width height framerate frameObserver rest, s.capturing = none →
      s.queue = .startCapture session width height framerate frameObserver :: rest → s.captureFormat = none ∧
        (∀ operation ∈ [.setUVCPreviewTexture, .setUVCPreviewSizeRate, .setUVCCameraFrameCallback true],
          outcome operation ≠ .throws) ∧ outcome .startUVCPreview = .takesEffect
  | .other _ => True

variable {outcome : Operation → Outcome} {session : Nat} {width height framerate : Int} {frameObserver : Nat}
  {s t : UVCCameraVideoCapturer}

theorem run_perform (operation : Operation) (effect : UVCCameraInterface → UVCCameraInterface) :
    (perform outcome operation effect).run s = match outcome operation with
      | .throws => .error .runtimeException s
      | .returns => .ok () s
      | .takesEffect => .ok () { s with mUVCCamera := effect s.mUVCCamera } := by
  unfold perform
  cases outcome operation <;> rfl

theorem run_stopUVCPreview : (stopUVCPreview outcome).run s =
    if outcome .stopUVCPreview = .throws then .error .runtimeException s
    else .ok () { s with mUVCCamera := s.mUVCCamera.stopUVCPreview } := by
  unfold stopUVCPreview
  split <;> rfl

theorem keeps_perform {β : Type} {part : UVCCameraVideoCapturer → β}
    (camera : ∀ (s : UVCCameraVideoCapturer) camera, part { s with mUVCCamera := camera } = part s)
    (operation : Operation) (effect : UVCCameraInterface → UVCCameraInterface) :
    Keeps part (perform outcome operation effect) := by
  unfold perform
  cases outcome operation with
  | throws => exact .throw _
  | returns => exact .pure _
  | takesEffect => exact .modify fun s => camera s _

theorem keeps_stopUVCPreview {β : Type} {part : UVCCameraVideoCapturer → β}
    (camera : ∀ (s : UVCCameraVideoCapturer) camera, part { s with mUVCCamera := camera } = part s) :
    Keeps part (stopUVCPreview outcome) :=
  .ite (fun _ => .throw _) fun _ => .modify fun s => camera s _

/-- A preview changes the camera and the format only. -/
theorem keeps_startPreviewOnCameraThread {β : Type} {part : UVCCameraVideoCapturer → β}
    (camera : ∀ (s : UVCCameraVideoCapturer) camera, part { s with mUVCCamera := camera } = part s)
    (format : ∀ (s : UVCCameraVideoCapturer) format, part { s with captureFormat := format } = part s) :
    Keeps part (startPreviewOnCameraThread outcome width height framerate) := by
  have performs := @keeps_perform outcome β part camera
  refine .bind .get fun s => .ite (fun _ => .pure _) fun _ => .ite (fun _ => .pure _) fun _ => ?_
  refine .bind (performs _ _) fun _ => .bind (.ite (fun _ => .bind (keeps_stopUVCPreview camera) fun _ => performs _ _)
    fun _ => .pure _) fun _ => ?_
  exact .bind (.modify fun s => format s _) fun _ => .bind (performs _ _) fun _ => performs _ _

theorem formatted_perform (operation : Operation) (effect : UVCCameraInterface → UVCCameraInterface) :
    Preserves Formatted (perform outcome operation effect) := by
  unfold perform
  cases outcome operation with
  | throws => exact .throw _
  | returns => exact .pure _
  | takesEffect => exact .modify fun _ => id

theorem formatted_startPreviewOnCameraThread :
    Preserves Formatted (startPreviewOnCameraThread outcome width height framerate) := by
  have performs := @formatted_perform outcome
  have stops : Preserves Formatted (stopUVCPreview outcome) := .ite (fun _ => .throw _) fun _ => .modify fun _ => id
  refine .bind .get fun s => .ite (fun _ => .pure _) fun _ => .ite (fun _ => .pure _) fun _ => ?_
  refine .bind (performs _ _) fun _ => .bind (.ite (fun _ => .bind stops fun _ => performs _ _)
    fun _ => .pure _) fun _ => ?_
  exact .bind (.modify fun _ _ => Or.inr rfl) fun _ => .bind (performs _ _) fun _ => performs _ _

/-- The runnable of a start leaves the handler and what is queued after it. -/
theorem keeps_startCaptureOnCameraThread :
    Keeps (fun s => (s.mCameraThreadHandler, s.queue))
      (startCaptureOnCameraThread outcome session width height framerate frameObserver) := by
  refine .bind .get fun s => .ite (fun _ => .pure _) fun _ => .bind (.modify fun _ => rfl) fun _ => ?_
  refine .bind (.orThrow _ _) fun _ => .bind (keeps_perform (fun _ _ => rfl) _ _) fun _ => ?_
  exact .bind (keeps_startPreviewOnCameraThread (fun _ _ => rfl) fun _ _ => rfl) fun _ => .modify fun _ => rfl

theorem formatted_startCaptureOnCameraThread :
    Preserves Formatted (startCaptureOnCameraThread outcome session width height framerate frameObserver) := by
  refine .bind .get fun s => .ite (fun _ => .pure _) fun _ => .bind (.modify fun _ => id) fun _ => ?_
  refine .bind (.orThrow _ _) fun _ => .bind (formatted_perform _ _) fun _ => ?_
  exact .bind formatted_startPreviewOnCameraThread fun _ => .modify fun _ => id

theorem final_started (s : UVCCameraVideoCapturer) : started outcome session width height framerate frameObserver s =
    final (startCaptureOnCameraThread outcome session width height framerate frameObserver) s :=
  final_tryCatch (fun _ => .pure _) s

/-- In the format it has, a preview is not started again. -/
theorem run_startPreview_formatted (format : s.captureFormat = some previewFormat) :
    (startPreviewOnCameraThread outcome width height framerate).run s = .ok () s := by
  unfold startPreviewOnCameraThread
  rw [EStateM.run_bind, EStateM.run_get]
  by_cases handler : s.mCameraThreadHandler = false
  · simp [handler]
  · simp [handler, format]

/-- Without a format the preview is started, unless an operation throws or the last has no effect. -/
theorem startPreview_unformatted (handler : s.mCameraThreadHandler = true) (unformatted : s.captureFormat = none)
    (stopped : s.mUVCCamera.previewing = false) :
    thrown (startPreviewOnCameraThread outcome width height framerate) s = none ∧
        (final (startPreviewOnCameraThread outcome width height framerate) s).mUVCCamera.previewing = true ↔
      outcome .setUVCPreviewSizeRate ≠ .throws ∧ outcome (.setUVCCameraFrameCallback true) ≠ .throws ∧
        outcome .startUVCPreview = .takesEffect := by
  unfold thrown final startPreviewOnCameraThread stopEarlierPreview
  cases rate : outcome .setUVCPreviewSizeRate with
  | throws => simp [run_perform, handler, unformatted, rate]
  | returns | takesEffect =>
    cases callback : outcome (.setUVCCameraFrameCallback true) with
    | throws => simp [run_perform, handler, unformatted, rate, callback]
    | returns | takesEffect =>
      cases start : outcome .startUVCPreview with
      | throws => simp [run_perform, handler, unformatted, rate, callback, start]
      | returns =>
        simp [run_perform, handler, unformatted, rate, callback, start, stopped,
          UVCCameraInterface.setUVCPreviewSizeRate, UVCCameraInterface.setUVCCameraFrameCallback]
      | takesEffect =>
        simp [run_perform, handler, unformatted, rate, callback, start, UVCCameraInterface.startUVCPreview]

/-- The capturer as a start hands it to its preview. -/
def textured (outcome : Operation → Outcome) (frameObserver helper : Nat) (s : UVCCameraVideoCapturer) :
    UVCCameraVideoCapturer :=
  final (perform outcome .setUVCPreviewTexture (·.setUVCPreviewTexture helper))
    { s with frameObserver := some frameObserver }

theorem keeps_textured {β : Type} {part : UVCCameraVideoCapturer → β} {helper : Nat}
    (observer : ∀ (s : UVCCameraVideoCapturer) frameObserver, part { s with frameObserver := frameObserver } = part s)
    (camera : ∀ (s : UVCCameraVideoCapturer) camera, part { s with mUVCCamera := camera } = part s)
    (s : UVCCameraVideoCapturer) : part (textured outcome frameObserver helper s) = part s :=
  (keeps_perform camera _ _ _).trans (observer s _)

theorem previewing_textured {helper : Nat} (s : UVCCameraVideoCapturer) :
    (textured outcome frameObserver helper s).mUVCCamera.previewing = s.mUVCCamera.previewing := by
  unfold textured final
  rw [run_perform]
  cases outcome .setUVCPreviewTexture <;> rfl

/-- A start reports its success, or leaves the calls as they are when an operation throws. -/
theorem start_cases {helper : Nat} (handler : s.mCameraThreadHandler = true) (set : s.mSurfaceHelper = some helper) :
    let t := final (startCaptureOnCameraThread outcome session width height framerate frameObserver) s
    let preview := startPreviewOnCameraThread outcome width height framerate
    t.calls = s.calls ∧
        (outcome .setUVCPreviewTexture = .throws ∨ thrown preview (textured outcome frameObserver helper s) ≠ none) ∨
      t.calls = s.calls ++ [(frameObserver, .onCapturerStarted true)] ∧
        t.mUVCCamera = (final preview (textured outcome frameObserver helper s)).mUVCCamera ∧
          outcome .setUVCPreviewTexture ≠ .throws ∧ thrown preview (textured outcome frameObserver helper s) = none := by
  intro t preview
  have calls : (final preview (textured outcome frameObserver helper s)).calls = s.calls :=
    (keeps_startPreviewOnCameraThread (fun _ _ => rfl) (fun _ _ => rfl) _).trans
      (keeps_textured (fun _ _ => rfl) (fun _ _ => rfl) s)
  by_cases texture : outcome .setUVCPreviewTexture = .throws
  · refine .inl ⟨?_, .inl texture⟩
    simp [t, final, startCaptureOnCameraThread, handler, set, orThrow, run_perform, texture]
  · have through : (startCaptureOnCameraThread outcome session width height framerate frameObserver).run s =
        (preview >>= fun _ => modify fun s : UVCCameraVideoCapturer =>
          { s with calls := s.calls ++ [(frameObserver, .onCapturerStarted true)], started := some session }).run
            (textured outcome frameObserver helper s) := by
      cases set' : outcome .setUVCPreviewTexture with
      | throws => exact absurd set' texture
      | returns | takesEffect =>
        simp [startCaptureOnCameraThread, handler, set, orThrow, run_perform, set', preview, textured, final]
    cases ran : preview.run (textured outcome frameObserver helper s) with
    | error e u =>
      refine .inl ⟨?_, .inr ?_⟩
      · rw [final_of_error ran] at calls
        simp only [t, final, through, EStateM.run_bind, ran, calls]
      · simp [thrown, ran]
    | ok x u =>
      refine .inr ⟨?_, ?_, texture, ?_⟩
      · rw [final_of_ok ran] at calls
        simp only [t, final, through, EStateM.run_bind, ran]
        show u.calls ++ _ = _
        rw [calls]
      · rw [final_of_ok ran]
        simp only [t, final, through, EStateM.run_bind, ran]
        rfl
      · simp [thrown, ran]

theorem startable_iff : Startable s ↔ s.mCameraThreadHandler = false := by
  constructor
  · intro startable
    obtain ⟨t, starts⟩ := startable 0 0 0 0 0 true
    by_contra set
    have handler := Bool.eq_true_of_not_eq_false set
    simp [startCapture, handler] at starts
  · intro handler width height framerate helper frameObserver posts
    cases posts <;> simp [startCapture, handler]

/-- A start reports exactly if nothing throws and it starts a first preview. -/
theorem start_reports_iff {helper : Nat} {rest : List Runnable} (handler : s.mCameraThreadHandler = true)
    (set : s.mSurfaceHelper = some helper) (stopped : s.mUVCCamera.previewing = false) (format : Formatted s) :
    Reports frameObserver s (started outcome session width height framerate frameObserver { s with queue := rest }) ↔
      s.captureFormat = none ∧ outcome .setUVCPreviewTexture ≠ .throws ∧ outcome .setUVCPreviewSizeRate ≠ .throws ∧
        outcome (.setUVCCameraFrameCallback true) ≠ .throws ∧ outcome .startUVCPreview = .takesEffect := by
  let u := textured outcome frameObserver helper { s with queue := rest }
  have handler' : u.mCameraThreadHandler = true := (keeps_textured (fun _ _ => rfl) (fun _ _ => rfl) _).trans handler
  have format' : u.captureFormat = s.captureFormat := keeps_textured (fun _ _ => rfl) (fun _ _ => rfl) _
  have stopped' : u.mUVCCamera.previewing = false := (previewing_textured _).trans stopped
  have starts := fun unformatted : s.captureFormat = none =>
    @startPreview_unformatted outcome width height framerate u handler' (format'.trans unformatted) stopped'
  rw [final_started]
  rcases @start_cases outcome session width height framerate frameObserver { s with queue := rest } helper handler set
    with ⟨silent, failed⟩ | ⟨called, camera, texture, returned⟩
  · refine iff_of_false ?_ ?_
    · rintro ⟨success, called, -⟩
      have longer := congrArg List.length (silent.symm.trans called)
      simp at longer
    · rintro ⟨unformatted, texture, operations⟩
      exact failed.elim texture fun throws => throws ((starts unformatted).mpr operations).1
  · rcases format with unformatted | formatted
    · constructor
      · rintro ⟨success, called', previews, -⟩
        have same := List.append_cancel_left (called.symm.trans called')
        obtain rfl : true = success := by simpa using same
        exact ⟨unformatted, texture, (starts unformatted).mp ⟨returned, camera ▸ previews rfl⟩⟩
      · rintro ⟨-, -, operations⟩
        refine ⟨true, called, fun _ => ?_, fun success => by cases success⟩
        rw [camera]
        exact ((starts unformatted).mpr operations).2
    · refine iff_of_false ?_ ?_
      · rintro ⟨success, called', previews, -⟩
        have same := List.append_cancel_left (called.symm.trans called')
        obtain rfl : true = success := by simpa using same
        have running := previews rfl
        rw [camera, final_of_ok (run_startPreview_formatted (format'.trans formatted))] at running
        exact absurd (running.symm.trans stopped') (by decide)
      · rintro ⟨unformatted, -⟩
        rw [formatted] at unformatted
        cases unformatted

/-- Where a capturer is in its life, also if its start has failed. -/
inductive Life (s : UVCCameraVideoCapturer) : Prop
  | idle (handler : s.mCameraThreadHandler = false) (queue : s.queue = []) (stopped : s.mUVCCamera.previewing = false)
  | starting (width height framerate : Int) (frameObserver helper : Nat) (rest : List Runnable)
    (handler : s.mCameraThreadHandler = true) (set : s.mSurfaceHelper = some helper)
    (queue : s.queue = .startCapture s.session width height framerate frameObserver :: rest)
    (others : ∀ runnable ∈ rest, runnable.starts = false) (stopped : s.mUVCCamera.previewing = false)
  | active (handler : s.mCameraThreadHandler = true) (others : ∀ runnable ∈ s.queue, runnable.starts = false)

/-- The invariant. -/
structure Sound (s : UVCCameraVideoCapturer) : Prop where
  life : Life s
  format : Formatted s

theorem Life.post (life : Life s) {runnable : Runnable} (other : runnable.starts = false) :
    Life (maybePostOnCameraThread runnable s) := by
  cases life with
  | idle handler queue stopped => exact .idle handler (by simp [maybePostOnCameraThread, handler, queue]) stopped
  | starting width height framerate frameObserver helper rest handler set queue others stopped =>
    refine .starting width height framerate frameObserver helper (rest ++ [runnable]) handler set ?_ ?_ stopped
    · simp [maybePostOnCameraThread, handler, queue]
    · simpa [or_imp, forall_and, other] using others
  | active handler others =>
    refine .active handler ?_
    simpa [maybePostOnCameraThread, handler, or_imp, forall_and, other] using others

theorem Life.congr (life : Life s) (handler : t.mCameraThreadHandler = s.mCameraThreadHandler)
    (helper : t.mSurfaceHelper = s.mSurfaceHelper) (camera : t.mUVCCamera = s.mUVCCamera) (queue : t.queue = s.queue)
    (session : t.session = s.session) : Life t := by
  cases life with
  | idle handler' queue' stopped => exact .idle (handler.trans handler') (queue.trans queue') (camera ▸ stopped)
  | starting width height framerate frameObserver helper' rest handler' set queue' others stopped =>
    refine .starting width height framerate frameObserver helper' rest (handler.trans handler') (helper.trans set) ?_
      others (camera ▸ stopped)
    rw [queue, session, queue']
  | active handler' others => exact .active (handler.trans handler') (queue ▸ others)

section
variable (steady : ∀ operation, outcome operation = .takesEffect)
include steady

theorem run_startPreviewOnCameraThread (s : UVCCameraVideoCapturer) :
    (startPreviewOnCameraThread outcome width height framerate).run s =
      .ok () (Capture.startPreviewOnCameraThread width height framerate s) := by
  unfold startPreviewOnCameraThread stopEarlierPreview Capture.startPreviewOnCameraThread
  rw [EStateM.run_bind, EStateM.run_get]
  by_cases handler : s.mCameraThreadHandler = false
  · simp [handler]
  · by_cases same : some previewFormat = s.captureFormat
    · simp [handler, same]
    · cases format : s.captureFormat with
      | none => simp [handler, format, run_perform, steady]
      | some earlier =>
        rw [format] at same
        simp [handler, format, same, run_perform, run_stopUVCPreview, steady]

/-- While every operation takes effect, a runnable does what it does to a camera whose operations succeed. -/
theorem run_steady (runnable : Runnable) (s : UVCCameraVideoCapturer) : run outcome runnable s = runnable.run s := by
  cases runnable with
  | startCapture session width height framerate frameObserver =>
    apply congrArg some
    rw [final_started, final, startCaptureOnCameraThread, Capture.startCaptureOnCameraThread]
    by_cases handler : s.mCameraThreadHandler = false
    · simp [handler]
    · cases helper : s.mSurfaceHelper with
      | none =>
        have missing : ∀ t, (orThrow .runtimeException none : EStateM Thrown UVCCameraVideoCapturer Nat).run t =
          .error .runtimeException t := fun _ => rfl
        simp [handler, helper, missing]
      | some helper => simp [handler, helper, orThrow, run_perform, steady, run_startPreviewOnCameraThread steady]
  | stopCapture => simp [run, steady, Runnable.run]
  | changeCaptureFormat width height framerate =>
    simp only [run, run_startPreviewOnCameraThread steady, Runnable.run]
  | onOutputFormatRequest | onUVCFrame | onTextureFrameAvailable => rfl

end

/-- How `startUVCPreview` of the enumerator ends, with the camera of its process. -/
def previewOutcome (process : Camera.Process) : Outcome :=
  match Camera.startUVCPreview.run process with
  | .error _ _ => .throws
  | .ok _ process => if process.sUVCCamera.any Camera.UVCCamera.previewing then .takesEffect else .returns

/-- The preview is started exactly on a camera that is open. -/
theorem previewOutcome_takesEffect_iff {process : Camera.Process}
    (stopped : ∀ camera ∈ process.sUVCCamera, camera.previewing = false) :
    previewOutcome process = .takesEffect ↔ Camera.Opened process := by
  obtain ⟨sUVCCamera, mUVCCamera⟩ := process
  unfold previewOutcome Camera.Opened
  cases mUVCCamera with
  | false => simp [Camera.startUVCPreview]
  | true =>
    cases sUVCCamera with
    | none => simp [Camera.startUVCPreview, Camera.onCamera]
    | some camera =>
      have idle : camera.previewing = false := stopped camera rfl
      cases block : camera.mCtrlBlock <;>
        simp [Camera.startUVCPreview, Camera.onCamera, Camera.UVCCamera.startPreview, block, idle]

/-- A stop destroys the camera, so that no later start previews. -/
theorem not_opened_stopUVCPreview (process : Camera.Process) :
    ¬ Camera.Opened (final Camera.stopUVCPreview process) := by
  rintro ⟨referred, camera, made, pointer, _⟩
  obtain ⟨sUVCCamera, mUVCCamera⟩ := process
  cases mUVCCamera with
  | false => simp [final, Camera.stopUVCPreview] at referred
  | true =>
    cases sUVCCamera with
    | none => simp [final, Camera.stopUVCPreview, Camera.onCamera] at made
    | some earlier =>
      have destroyed : earlier.stopPreview.destroy = camera := by
        simpa [final, Camera.stopUVCPreview, Camera.onCamera] using made
      exact pointer (destroyed ▸ Camera.UVCCamera.destroy_mNativePtr _)

theorem startCapture_posted (surfaceTextureHelper : Option Nat) (applicationContext : Bool) :
    startCapture width height framerate surfaceTextureHelper applicationContext frameObserver true s =
      Capture.startCapture width height framerate surfaceTextureHelper applicationContext frameObserver s := by
  cases surfaceTextureHelper <;> rfl

/-- The runnable of a start leaves the handler set, whatever comes of it. -/
theorem Sound.started {rest : List Runnable} (handler : s.mCameraThreadHandler = true)
    (others : ∀ runnable ∈ rest, runnable.starts = false) (format : Formatted s) :
    Sound (started outcome session width height framerate frameObserver { s with queue := rest }) := by
  rw [final_started]
  have kept := @keeps_startCaptureOnCameraThread outcome session width height framerate frameObserver
    { s with queue := rest }
  simp only [Prod.mk.injEq] at kept
  obtain ⟨handler', queue⟩ := kept
  exact ⟨.active (handler'.trans handler) (by rwa [queue]), formatted_startCaptureOnCameraThread _ format⟩

/-- Another runnable ends the life of the capturer or leaves it active, and reports nothing. -/
theorem Sound.run {runnable : Runnable} {rest : List Runnable} (handler : s.mCameraThreadHandler = true)
    (others : ∀ runnable ∈ rest, runnable.starts = false) (format : Formatted s) (other : runnable.starts = false)
    (ran : run outcome runnable { s with queue := rest } = some t) : Sound t ∧ reports t = reports s := by
  cases runnable with
  | startCapture => cases other
  | stopCapture =>
    obtain ⟨_, same⟩ := Option.ite_none_left_eq_some.mp ran
    cases same
    exact ⟨⟨.idle rfl (by simp [stopCaptureOnCameraThread, handler]) rfl, format⟩, rfl⟩
  | changeCaptureFormat width height framerate =>
    have kept := @keeps_startPreviewOnCameraThread outcome width height framerate _
      (fun s => (s.mCameraThreadHandler, s.queue, s.calls)) (fun _ _ => rfl) (fun _ _ => rfl) { s with queue := rest }
    have formatted := @formatted_startPreviewOnCameraThread outcome width height framerate { s with queue := rest }
      format
    simp only [FailedStart.run] at ran
    split at ran
    next x u returned =>
      cases ran
      rw [final_of_ok returned] at kept formatted
      simp only [Prod.mk.injEq] at kept
      obtain ⟨handler', queue, calls⟩ := kept
      exact ⟨⟨.active (handler'.trans handler) (queue ▸ others), formatted⟩, by rw [reports, calls, reports]⟩
    next => cases ran
  | onOutputFormatRequest width height framerate =>
    simp only [FailedStart.run, Runnable.run, onOutputFormatRequestOnCameraThread, handler, Bool.true_eq_false,
      if_false, Option.map_eq_some_iff] at ran
    obtain ⟨frameObserver, _, same⟩ := ran
    subst same
    exact ⟨⟨.active rfl others, format⟩, by simp [reports]⟩
  | onUVCFrame frameData =>
    cases ran
    simp only [onUVCFrameRunOnCameraThread, handler, Bool.true_eq_false, if_false]
    exact ⟨⟨.active rfl others, format⟩, rfl⟩
  | onTextureFrameAvailable =>
    cases ran
    exact ⟨⟨.active handler others, format⟩, rfl⟩

/-- What a call of `startCapture` does: nothing to the capturer, or it sets the handler. -/
theorem startCapture_cases (width height framerate : Int) (surfaceTextureHelper : Option Nat)
    (applicationContext : Bool) (frameObserver : Nat) (posts : Bool) (s : UVCCameraVideoCapturer) :
    let started := startCapture width height framerate surfaceTextureHelper applicationContext frameObserver posts s
    let t := started.toOption.getD s
    (∃ calls, t = { s with calls := calls }) ∨ ∃ helper calls, s.mCameraThreadHandler = false ∧
      t = { s with
        mCameraThreadHandler := true
        mSurfaceHelper := some helper
        session := s.session + 1
        queue :=
          if posts then s.queue ++ [.startCapture (s.session + 1) width height framerate frameObserver] else s.queue
        calls := calls } := by
  intro started t
  cases surfaceTextureHelper with
  | none => exact .inl ⟨_, rfl⟩
  | some helper =>
    cases applicationContext with
    | false => exact .inl ⟨s.calls, rfl⟩
    | true =>
      by_cases handler : s.mCameraThreadHandler = true
      · have same : t = s := by simp [t, started, startCapture, handler, Except.toOption]
        exact .inl ⟨s.calls, same⟩
      · have unset := Bool.eq_false_of_not_eq_true handler
        cases posts with
        | true =>
          refine .inr ⟨helper, s.calls, unset, ?_⟩
          simp [t, started, startCapture, unset, Except.toOption, maybePostOnCameraThread]
        | false =>
          refine .inr ⟨helper, s.calls ++ [(frameObserver, .onCapturerStarted false)], unset, ?_⟩
          simp [t, started, startCapture, unset, Except.toOption]

/-- A start that sets the handler leaves its runnable in the queue, or nothing. -/
theorem Sound.begin (sound : Sound s) (unset : s.mCameraThreadHandler = false) (helper : Nat)
    (calls : List (Nat × ObserverCall)) {queue : List Runnable}
    (posted : queue = s.queue ++ [.startCapture (s.session + 1) width height framerate frameObserver] ∨
      queue = s.queue) :
    Sound { s with
      mCameraThreadHandler := true
      mSurfaceHelper := some helper
      session := s.session + 1
      queue := queue
      calls := calls } := by
  refine ⟨?_, sound.format⟩
  cases sound.life with
  | idle _ empty stopped =>
    rcases posted with posted | posted
    · have first : queue = [.startCapture (s.session + 1) width height framerate frameObserver] := by simp [posted, empty]
      exact .starting width height framerate frameObserver helper [] rfl rfl first (by simp) stopped
    · exact .active rfl (by simp [posted, empty])
  | starting _ _ _ _ _ _ set => simp [unset] at set
  | active set => simp [unset] at set

theorem Sound.startCapture (sound : Sound s) {surfaceTextureHelper : Option Nat} {applicationContext posts : Bool}
    (taken : step s (.startCapture width height framerate surfaceTextureHelper applicationContext frameObserver
      posts) = some t) : Sound t := by
  cases taken
  rcases startCapture_cases width height framerate surfaceTextureHelper applicationContext frameObserver posts s with
    ⟨calls, same⟩ | ⟨helper, calls, unset, same⟩
  · rw [same]
    exact ⟨sound.life.congr rfl rfl rfl rfl rfl, sound.format⟩
  · rw [same]
    exact sound.begin unset helper calls (by cases posts; exacts [.inr rfl, .inl rfl])

theorem Sound.other (sound : Sound s) {event : Capture.Event} (taken : step s (.other event) = some t) :
    Sound t ∧ reports t = reports s := by
  obtain ⟨other, taken⟩ := Option.ite_none_right_eq_some.mp taken
  have reported : reports t = reports s := by
    cases event with
    | startCapture => cases other
    | run => cases other
    | stopCapture =>
      obtain ⟨_, same⟩ := Option.ite_none_right_eq_some.mp taken
      cases same
      rfl
    | stopCaptureReturns =>
      obtain ⟨_, _, same⟩ := Option.map_eq_some_iff.mp taken
      cases same
      rfl
    | changeCaptureFormat | onOutputFormatRequest | onUVCFrame | onTextureFrameAvailable =>
      cases taken
      rfl
    | onByteBufferFrameCaptured captureTimeNs =>
      simp only [Capture.step, Capture.onByteBufferFrameCaptured, Option.bind_eq_bind, Option.bind_eq_some_iff,
        Option.some.injEq] at taken
      obtain ⟨_, _, _, _, _, _, same⟩ := taken
      subst same
      simp [reports]
  refine ⟨?_, reported⟩
  cases stepped_of_step taken with
  | refused _ next =>
    obtain ⟨calls, same⟩ := next
    subst same
    exact ⟨sound.life.congr rfl rfl rfl rfl rfl, sound.format⟩
  | began _ width height framerate frameObserver helper handler next =>
    subst next
    exact sound.begin handler helper s.calls (.inl rfl)
  | posted _ runnable starts stopping _ next =>
    subst next
    exact ⟨(sound.life.post starts).congr rfl rfl rfl rfl rfl, sound.format⟩
  | returns _ session _ next =>
    subst next
    exact ⟨sound.life.congr rfl rfl rfl rfl rfl, sound.format⟩
  | ran same =>
    subst same
    cases other
  | delivered _ _ _ next =>
    obtain ⟨calls, same⟩ := next
    subst same
    exact ⟨sound.life.congr rfl rfl rfl rfl rfl, sound.format⟩

theorem step_run (taken : step s (.run outcome) = some t) : ∃ runnable rest, s.capturing = none ∧
    s.queue = runnable :: rest ∧ run outcome runnable { s with queue := rest } = some t := by
  simp only [FailedStart.step] at taken
  split at taken
  next runnable rest capturing queue => exact ⟨runnable, rest, capturing, queue, taken⟩
  next => cases taken

theorem Sound.step (sound : Sound s) {event : Event} (taken : step s event = some t) : Sound t := by
  cases event with
  | startCapture => exact sound.startCapture taken
  | other => exact (sound.other taken).1
  | run outcome =>
    obtain ⟨runnable, rest, _, queue, ran⟩ := step_run taken
    cases sound.life with
    | idle _ empty => simp [empty] at queue
    | starting width height framerate frameObserver helper rest' handler set first others =>
      cases queue.symm.trans first
      cases ran
      exact .started handler others sound.format
    | active handler others =>
      rw [queue] at others
      obtain ⟨other, others⟩ := List.forall_mem_cons.mp others
      exact (Sound.run handler others sound.format other ran).1

/-- A call of `startCapture` is reported, or posts its runnable, if it has a context and is posted. -/
theorem startCapture_reported_iff {surfaceTextureHelper : Option Nat} {applicationContext posts : Bool} :
    Reported s (.startCapture width height framerate surfaceTextureHelper applicationContext frameObserver posts) ↔
      Succeeds s (.startCapture width height framerate surfaceTextureHelper applicationContext frameObserver posts) := by
  refine forall_congr' fun unset => ?_
  cases surfaceTextureHelper with
  | none =>
    refine iff_of_true ⟨_, rfl, .inl ⟨false, rfl, ?_, fun _ => startable_iff.mpr unset⟩⟩ (by simp)
    exact fun success => by cases success
  | some helper =>
    cases applicationContext with
    | false => simp [startCapture]
    | true =>
      cases posts with
      | true => simp [startCapture, unset, maybePostOnCameraThread]
      | false =>
        refine iff_of_false ?_ (by simp)
        rintro ⟨t, starts, reported⟩
        simp only [startCapture, unset, Bool.true_eq_false, Bool.false_eq_true, if_false, Except.ok.injEq] at starts
        subst starts
        rcases reported with ⟨success, called, -, startable⟩ | ⟨silent, -⟩
        · have same := List.append_cancel_left called
          obtain rfl : false = success := by simpa using same
          exact absurd (startable_iff.mp (startable rfl)) (by simp)
        · have longer := congrArg List.length silent
          simp at longer

/-- The runnable of a start reports if no format is kept, nothing throws in it and it starts the
preview; no other one does. -/
theorem run_reported_iff (sound : Sound s) : Reported s (.run outcome) ↔ Succeeds s (.run outcome) := by
  cases sound.life with
  | idle _ empty =>
    refine iff_of_true (fun t taken => ?_) fun _ _ _ _ _ _ _ queue => ?_
    · obtain ⟨_, _, _, queue, _⟩ := step_run taken
      simp [empty] at queue
    · simp [empty] at queue
  | starting width height framerate frameObserver helper rest handler set first others stopped =>
    have reports := @start_reports_iff outcome s.session width height framerate frameObserver s helper rest handler set
      stopped sound.format
    simp only [Reported, Succeeds, first]
    constructor
    · intro reported session' width' height' framerate' frameObserver' rest' capturing same
      have taken : step s (.run outcome) =
          some (started outcome s.session width height framerate frameObserver { s with queue := rest }) := by
        simp only [FailedStart.step, capturing, first]
        rfl
      obtain ⟨unformatted, texture, rate, callback, starts⟩ := reports.mp (reported _ taken)
      exact ⟨unformatted, by simp [texture, rate, callback], starts⟩
    · intro succeeds t taken
      obtain ⟨runnable, rest', capturing, queue, ran⟩ := step_run taken
      cases queue.symm.trans first
      cases ran
      obtain ⟨unformatted, operations, starts⟩ := succeeds _ _ _ _ _ _ capturing rfl
      simp only [List.forall_mem_cons, List.not_mem_nil, false_implies, implies_true, and_true] at operations
      exact reports.mpr ⟨unformatted, operations.1, operations.2.1, operations.2.2, starts⟩
  | active handler others =>
    refine iff_of_true (fun t taken => ?_) fun _ _ _ _ _ _ _ queue => ?_
    · obtain ⟨runnable, rest, _, queue, ran⟩ := step_run taken
      rw [queue] at others ⊢
      obtain ⟨other, others⟩ := List.forall_mem_cons.mp others
      have reported := (Sound.run handler others sound.format other ran).2
      cases runnable with
      | startCapture => cases other
      | _ => exact reported
    · rw [queue] at others
      cases (List.forall_mem_cons.mp others).1

theorem reported_iff (sound : Sound s) (event : Event) : Reported s event ↔ Succeeds s event := by
  cases event with
  | startCapture => exact startCapture_reported_iff
  | run => exact run_reported_iff sound
  | other => exact iff_of_true (fun t taken => (sound.other taken).2) trivial

/-- In every run of a new capturer, every start is reported if and only if every start succeeds. -/
theorem reported_iff_succeeds (events : List Event) : Steps step Reported {} events ↔ Steps step Succeeds {} events := by
  have agree : ∀ s event, Sound s → (Reported s event ↔ Succeeds s event) := fun s event sound =>
    reported_iff sound event
  have preserved : ∀ s event t, Sound s → Reported s event → step s event = some t → Sound t :=
    fun s event t sound _ taken => sound.step taken
  have start : Sound {} := ⟨.idle rfl rfl rfl, .inl rfl⟩
  exact steps_iff agree preserved start

/-- No camera is connected: the texture cannot be set, nothing is reported, and the capturer
cannot be started again. -/
theorem unconnected_unreported : ¬ Steps step Reported {} [.startCapture 640 480 30 (some 1) true 1 true,
    .run fun operation => if operation = .setUVCPreviewTexture then .throws else .takesEffect] := by
  intro all
  obtain ⟨success, called, -⟩ := (all.2 _ rfl).1 _ rfl
  exact List.cons_ne_nil _ _ called.symm

end AdTerminal.Capture.FailedStart
