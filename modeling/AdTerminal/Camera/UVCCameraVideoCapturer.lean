import AdTerminal.Library.Transition
import Mathlib.Data.UInt

/-! The video capturer. A call takes the lock, looks at the handler and posts a runnable; the
camera thread runs what is posted in order. -/

namespace AdTerminal.Capture
open Transition

inductive Thrown where
  | illegalArgumentException
  | runtimeException
  deriving DecidableEq, Repr

structure FramerateRange where
  min : Int
  max : Int
  deriving DecidableEq, Repr

structure CaptureFormat where
  width : Int
  height : Int
  framerate : FramerateRange
  deriving DecidableEq, Repr

/-- The camera behind `UVCCameraInterface`, and what its operations do to it when they take effect,
as they do on an open camera. `frameCallback` is whether the callback it was last given is the
capturer, and not null. -/
structure UVCCameraInterface where
  previewTexture : Option Nat := none
  previewSizeRate : Option CaptureFormat := none
  frameCallback : Bool := false
  previewing : Bool := false
  deriving DecidableEq, Repr

namespace UVCCameraInterface

def setUVCCameraFrameCallback (frameCallback : Bool) (camera : UVCCameraInterface) : UVCCameraInterface :=
  { camera with frameCallback := frameCallback }

def setUVCPreviewTexture (texture : Nat) (camera : UVCCameraInterface) : UVCCameraInterface :=
  { camera with previewTexture := some texture }

def setUVCPreviewSizeRate (format : CaptureFormat) (camera : UVCCameraInterface) : UVCCameraInterface :=
  { camera with previewSizeRate := some format }

def startUVCPreview (camera : UVCCameraInterface) : UVCCameraInterface := { camera with previewing := true }

def stopUVCPreview (camera : UVCCameraInterface) : UVCCameraInterface := { camera with previewing := false }

end UVCCameraInterface

inductive Runnable where
  | startCapture (session : Nat) (width height framerate : Int) (frameObserver : Nat)
  | stopCapture
  | changeCaptureFormat (width height framerate : Int)
  | onOutputFormatRequest (width height framerate : Int)
  | onUVCFrame (frameData : List UInt8)
  | onTextureFrameAvailable
  deriving DecidableEq, Repr

inductive ObserverCall where
  | onCapturerStarted (success : Bool)
  | onByteBufferFrameCaptured (data : List UInt8) (width height rotation timeStamp : Int)
  | onOutputFormatRequest (width height framerate : Int)
  deriving DecidableEq, Repr

/-- The capturer, its camera, and the runnables it has posted. All of these are posted through
the handler it holds: the handler is dropped with everything that is queued. -/
structure UVCCameraVideoCapturer where
  mCameraThreadHandler : Bool := false
  mSurfaceHelper : Option Nat := none
  captureFormat : Option CaptureFormat := none
  frameObserver : Option Nat := none
  mUVCCamera : UVCCameraInterface := {}
  queue : List Runnable := []
  /-- The frame of a runnable that has found the handler set and not called the observer yet. -/
  capturing : Option (List UInt8) := none
  calls : List (Nat × ObserverCall) := []
  /-- How many calls of `startCapture` have posted their runnable. -/
  session : Nat := 0
  /-- The start for which `onCapturerStarted(true)` is delivered, while no stop has run since. -/
  started : Option Nat := none
  /-- The session that a call of `stopCapture` is for, from its post to its return. -/
  stopping : Option Nat := none
  /-- The sessions for which such a call has returned. -/
  returned : List Nat := []
  deriving DecidableEq, Repr

def oriention : Int := 0

def maybePostOnCameraThread (runnable : Runnable) (s : UVCCameraVideoCapturer) : UVCCameraVideoCapturer :=
  { s with queue := if s.mCameraThreadHandler then s.queue ++ [runnable] else s.queue }

def startCapture (width height framerate : Int) (surfaceTextureHelper : Option Nat) (applicationContext : Bool)
    (frameObserver : Nat) (s : UVCCameraVideoCapturer) : Except Thrown UVCCameraVideoCapturer :=
  match surfaceTextureHelper with
  | none => .ok { s with calls := s.calls ++ [(frameObserver, .onCapturerStarted false)] }
  | some helper =>
    if applicationContext = false then .error .illegalArgumentException
    else if s.mCameraThreadHandler then .error .runtimeException
    else
      .ok (maybePostOnCameraThread (.startCapture (s.session + 1) width height framerate frameObserver)
        { s with mCameraThreadHandler := true, mSurfaceHelper := some helper, session := s.session + 1 })

/-- The size and the rate are fixed, whatever is asked for. -/
def previewFormat : CaptureFormat := ⟨640, 480, ⟨5000, 30000⟩⟩

def startPreviewOnCameraThread (_width _height _framerate : Int) (s : UVCCameraVideoCapturer) : UVCCameraVideoCapturer :=
  if s.mCameraThreadHandler = false then s
  else if some previewFormat = s.captureFormat then s
  else
    let camera := s.mUVCCamera.setUVCPreviewSizeRate previewFormat
    let camera := if s.captureFormat.isSome then camera.stopUVCPreview.setUVCCameraFrameCallback false else camera
    { s with
      captureFormat := some previewFormat
      mUVCCamera := (camera.setUVCCameraFrameCallback true).startUVCPreview }

/-- Without a helper the texture cannot be read; the exception is caught by the runnable. -/
def startCaptureOnCameraThread (session : Nat) (width height framerate : Int) (frameObserver : Nat)
    (s : UVCCameraVideoCapturer) : UVCCameraVideoCapturer :=
  if s.mCameraThreadHandler = false then s
  else
    match s.mSurfaceHelper with
    | none => { s with frameObserver := some frameObserver }
    | some helper =>
      let s := startPreviewOnCameraThread width height framerate
        { s with frameObserver := some frameObserver, mUVCCamera := s.mUVCCamera.setUVCPreviewTexture helper }
      { s with calls := s.calls ++ [(frameObserver, .onCapturerStarted true)], started := some session }

/-- `isStopHandler` is always set: the handler and the helper are dropped, with all that is
posted, and the preview is stopped. The format stays. -/
def stopCaptureOnCameraThread (s : UVCCameraVideoCapturer) : UVCCameraVideoCapturer :=
  { s with
    queue := if s.mCameraThreadHandler then [] else s.queue
    mCameraThreadHandler := false
    mSurfaceHelper := none
    mUVCCamera := s.mUVCCamera.stopUVCPreview
    started := none }

def onOutputFormatRequestOnCameraThread (width height framerate : Int) (s : UVCCameraVideoCapturer) :
    Option UVCCameraVideoCapturer :=
  if s.mCameraThreadHandler = false then some s
  else s.frameObserver.map fun frameObserver =>
    { s with calls := s.calls ++ [(frameObserver, .onOutputFormatRequest width height framerate)] }

/-- The first half of a frame runnable, up to the call of the observer. -/
def onUVCFrameRunOnCameraThread (frameData : List UInt8) (s : UVCCameraVideoCapturer) : UVCCameraVideoCapturer :=
  if s.mCameraThreadHandler = false then s else { s with capturing := some frameData }

/-- A null observer or format would end the process. -/
def onByteBufferFrameCaptured (captureTimeNs : Int) (s : UVCCameraVideoCapturer) : Option UVCCameraVideoCapturer := do
  let frameData ← s.capturing
  let frameObserver ← s.frameObserver
  let format ← s.captureFormat
  some { s with
    capturing := none
    calls := s.calls ++
      [(frameObserver, .onByteBufferFrameCaptured frameData format.width format.height oriention captureTimeNs)] }

def Runnable.run : Runnable → UVCCameraVideoCapturer → Option UVCCameraVideoCapturer
  | startCapture session width height framerate frameObserver, s =>
    some (startCaptureOnCameraThread session width height framerate frameObserver s)
  | stopCapture, s => some (stopCaptureOnCameraThread s)
  | changeCaptureFormat width height framerate, s => some (startPreviewOnCameraThread width height framerate s)
  | onOutputFormatRequest width height framerate, s => onOutputFormatRequestOnCameraThread width height framerate s
  | onUVCFrame frameData, s => some (onUVCFrameRunOnCameraThread frameData s)
  | onTextureFrameAvailable, s => some s

/-- The calls of other threads, and what the camera thread does. A frame runnable takes two
events, between which the others may call. -/
inductive Event where
  | startCapture (width height framerate : Int) (surfaceTextureHelper : Option Nat) (applicationContext : Bool)
      (frameObserver : Nat)
  | stopCapture
  | stopCaptureReturns
  | changeCaptureFormat (width height framerate : Int)
  | onOutputFormatRequest (width height framerate : Int)
  | onUVCFrame (frameData : List UInt8)
  | onTextureFrameAvailable
  | run
  | onByteBufferFrameCaptured (captureTimeNs : Int)
  deriving DecidableEq, Repr

def step (s : UVCCameraVideoCapturer) : Event → Option UVCCameraVideoCapturer
  | .startCapture width height framerate surfaceTextureHelper applicationContext frameObserver =>
    some ((startCapture width height framerate surfaceTextureHelper applicationContext frameObserver s).toOption.getD s)
  | .stopCapture =>
    if s.stopping = none then some { maybePostOnCameraThread .stopCapture s with stopping := some s.session } else none
  | .stopCaptureReturns => s.stopping.map fun session => { s with stopping := none, returned := session :: s.returned }
  | .changeCaptureFormat width height framerate =>
    some (maybePostOnCameraThread (.changeCaptureFormat width height framerate) s)
  | .onOutputFormatRequest width height framerate =>
    some (maybePostOnCameraThread (.onOutputFormatRequest width height framerate) s)
  | .onUVCFrame frameData => some (maybePostOnCameraThread (.onUVCFrame frameData) s)
  | .onTextureFrameAvailable => some (maybePostOnCameraThread .onTextureFrameAvailable s)
  | .run =>
    match s.capturing, s.queue with
    | none, runnable :: rest => runnable.run { s with queue := rest }
    | _, _ => none
  | .onByteBufferFrameCaptured captureTimeNs => onByteBufferFrameCaptured captureTimeNs s

/-- Once the latest start is reported and while no stop has run, the preview runs and its frames
go to the capturer. -/
def Previews (s : UVCCameraVideoCapturer) : Prop :=
  s.started = some s.session → s.mUVCCamera.previewing = true ∧ s.mUVCCamera.frameCallback = true

/-- A start is run only while no format is kept from an earlier preview. -/
def Unformatted (s : UVCCameraVideoCapturer) : Event → Prop
  | .run => ∀ session width height framerate frameObserver,
    s.queue.head? = some (.startCapture session width height framerate frameObserver) → s.captureFormat = none
  | _ => True

def Runnable.starts : Runnable → Bool
  | startCapture .. => true
  | _ => false

/-- Only one format is ever kept. -/
def Formatted (s : UVCCameraVideoCapturer) : Prop := s.captureFormat = none ∨ s.captureFormat = some previewFormat

/-- Where a capturer is in its life. A start is posted first after the handler is set, and a stop
takes the handler and all that is posted away. -/
inductive Phase (s : UVCCameraVideoCapturer) : Prop
  | idle (handler : s.mCameraThreadHandler = false) (queue : s.queue = []) (capturing : s.capturing = none)
    (started : s.started = none) (stopped : s.mUVCCamera.previewing = false) (format : Formatted s)
  | starting (width height framerate : Int) (frameObserver : Nat) (rest : List Runnable)
    (handler : s.mCameraThreadHandler = true) (helper : s.mSurfaceHelper.isSome)
    (queue : s.queue = .startCapture s.session width height framerate frameObserver :: rest)
    (others : ∀ runnable ∈ rest, runnable.starts = false) (capturing : s.capturing = none)
    (started : s.started = none) (stopped : s.mUVCCamera.previewing = false) (format : Formatted s)
  | running (handler : s.mCameraThreadHandler = true) (observer : s.frameObserver.isSome)
    (format : s.captureFormat = some previewFormat) (started : s.started = some s.session)
    (others : ∀ runnable ∈ s.queue, runnable.starts = false)

variable {s t : UVCCameraVideoCapturer}

theorem Phase.post (phase : Phase s) {runnable : Runnable} (other : runnable.starts = false) :
    Phase (maybePostOnCameraThread runnable s) := by
  cases phase with
  | idle handler queue capturing started stopped format =>
    exact .idle handler (by simp [maybePostOnCameraThread, handler, queue]) capturing started stopped format
  | starting width height framerate frameObserver rest handler helper queue others capturing started stopped format =>
    refine .starting width height framerate frameObserver (rest ++ [runnable]) handler helper ?_ ?_ capturing started stopped
      format
    · simp [maybePostOnCameraThread, handler, queue]
    · simpa [or_imp, forall_and, other] using others
  | running handler observer format started others =>
    refine .running handler observer format started ?_
    simpa [maybePostOnCameraThread, handler, or_imp, forall_and, other] using others

section
variable {session : Nat} {width height framerate : Int} {frameObserver : Nat}

/-- The camera is set up only when no preview was before. -/
theorem startPreviewOnCameraThread_spec (handler : s.mCameraThreadHandler = true) :
    ∃ camera, startPreviewOnCameraThread width height framerate s =
        { s with captureFormat := some previewFormat, mUVCCamera := camera } ∧
      (s.captureFormat = some previewFormat → camera = s.mUVCCamera) ∧
      (s.captureFormat = none → camera.previewing = true ∧ camera.frameCallback = true) := by
  by_cases same : some previewFormat = s.captureFormat
  · refine ⟨s.mUVCCamera, ?_, fun _ => rfl, fun unformatted => ?_⟩
    · unfold startPreviewOnCameraThread
      rw [if_neg (by simp [handler]), if_pos same, same]
    · simp [unformatted] at same
  · refine ⟨_, by simp only [startPreviewOnCameraThread, handler, same, Bool.true_eq_false, if_false]; rfl, ?_, ?_⟩
    · exact fun formatted => absurd formatted.symm same
    · exact fun _ => ⟨rfl, rfl⟩

theorem startCaptureOnCameraThread_spec (handler : s.mCameraThreadHandler = true) (helper : s.mSurfaceHelper.isSome) :
    ∃ camera, startCaptureOnCameraThread session width height framerate frameObserver s =
        { s with
          frameObserver := some frameObserver
          captureFormat := some previewFormat
          mUVCCamera := camera
          calls := s.calls ++ [(frameObserver, .onCapturerStarted true)]
          started := some session } ∧
      (s.captureFormat = some previewFormat → camera.previewing = s.mUVCCamera.previewing) ∧
      (s.captureFormat = none → camera.previewing = true ∧ camera.frameCallback = true) := by
  obtain ⟨texture, helper⟩ := Option.isSome_iff_exists.mp helper
  obtain ⟨camera, preview, formatted, unformatted⟩ := @startPreviewOnCameraThread_spec
    { s with frameObserver := some frameObserver, mUVCCamera := s.mUVCCamera.setUVCPreviewTexture texture }
    width height framerate handler
  refine ⟨camera, ?_, fun same => ?_, unformatted⟩
  · unfold startCaptureOnCameraThread
    rw [if_neg (by simp [handler])]
    split
    next missing => simp [helper] at missing
    next other found =>
      cases helper.symm.trans found
      rw [preview]
  · rw [formatted same]
    rfl

/-- A start runnable finds the handler and the helper that its call has set. -/
theorem Phase.start {rest : List Runnable} (handler : s.mCameraThreadHandler = true)
    (helper : s.mSurfaceHelper.isSome) (others : ∀ runnable ∈ rest, runnable.starts = false) :
    Phase (startCaptureOnCameraThread s.session width height framerate frameObserver { s with queue := rest }) := by
  obtain ⟨camera, started, _, _⟩ := @startCaptureOnCameraThread_spec { s with queue := rest } s.session width height
    framerate frameObserver handler helper
  rw [started]
  exact .running handler rfl rfl rfl others

end

/-- While the capturer runs, no other start is posted, and the format stays. -/
theorem Phase.run {runnable : Runnable} {rest : List Runnable} (handler : s.mCameraThreadHandler = true)
    (observer : s.frameObserver.isSome) (format : s.captureFormat = some previewFormat)
    (started : s.started = some s.session) (capturing : s.capturing = none)
    (others : ∀ runnable ∈ rest, runnable.starts = false) (other : runnable.starts = false)
    (ran : runnable.run { s with queue := rest } = some t) : Phase t := by
  cases runnable with
  | startCapture => cases other
  | stopCapture =>
    cases ran
    exact .idle rfl (by simp [stopCaptureOnCameraThread, handler]) capturing rfl rfl (Or.inr format)
  | changeCaptureFormat width height framerate =>
    cases ran
    obtain ⟨camera, preview, _, _⟩ :=
      @startPreviewOnCameraThread_spec { s with queue := rest } width height framerate handler
    rw [preview]
    exact .running handler observer rfl started others
  | onOutputFormatRequest width height framerate =>
    obtain ⟨frameObserver, observer'⟩ := Option.isSome_iff_exists.mp observer
    simp only [Runnable.run, onOutputFormatRequestOnCameraThread, handler, observer', Bool.true_eq_false, if_false,
      Option.map_some, Option.some.injEq] at ran
    subst ran
    exact .running rfl rfl format started others
  | onUVCFrame frameData =>
    cases ran
    simp only [onUVCFrameRunOnCameraThread, handler, Bool.true_eq_false, if_false]
    exact .running rfl observer format started others
  | onTextureFrameAvailable =>
    cases ran
    exact .running handler observer format started others

/-- What a call of `startCapture` does: nothing to the capturer, or the first steps of a start. -/
theorem startCapture_cases (width height framerate : Int) (surfaceTextureHelper : Option Nat)
    (applicationContext : Bool) (frameObserver : Nat) (s : UVCCameraVideoCapturer) :
    let t := (startCapture width height framerate surfaceTextureHelper applicationContext frameObserver s).toOption.getD s
    (∃ calls, t = { s with calls := calls }) ∨ ∃ helper, s.mCameraThreadHandler = false ∧
      t = { s with
        mCameraThreadHandler := true
        mSurfaceHelper := some helper
        session := s.session + 1
        queue := s.queue ++ [.startCapture (s.session + 1) width height framerate frameObserver] } := by
  intro t
  cases surfaceTextureHelper with
  | none => exact Or.inl ⟨_, rfl⟩
  | some helper =>
    cases applicationContext with
    | false => exact Or.inl ⟨s.calls, rfl⟩
    | true =>
      by_cases handler : s.mCameraThreadHandler = true
      · have same : t = s := by simp [t, startCapture, handler, Except.toOption]
        exact Or.inl ⟨s.calls, same⟩
      · have unset := Bool.eq_false_of_not_eq_true handler
        exact Or.inr ⟨helper, unset, by simp [t, startCapture, unset, Except.toOption, maybePostOnCameraThread]⟩

theorem Phase.congr (phase : Phase s) (handler : t.mCameraThreadHandler = s.mCameraThreadHandler)
    (helper : t.mSurfaceHelper = s.mSurfaceHelper) (format : t.captureFormat = s.captureFormat)
    (observer : t.frameObserver = s.frameObserver) (camera : t.mUVCCamera = s.mUVCCamera) (queue : t.queue = s.queue)
    (capturing : t.capturing = none ∨ t.capturing = s.capturing) (session : t.session = s.session)
    (started : t.started = s.started) : Phase t := by
  cases phase with
  | idle handler' queue' capturing' started' stopped' format' =>
    exact .idle (handler.trans handler') (queue.trans queue') (capturing.elim id fun same => same.trans capturing')
      (started.trans started') (camera ▸ stopped') (format'.imp format.trans format.trans)
  | starting width height framerate frameObserver rest handler' helper' queue' others' capturing' started' stopped' format' =>
    refine .starting width height framerate frameObserver rest (handler.trans handler') (helper ▸ helper') ?_ others'
      (capturing.elim id fun same => same.trans capturing') (started.trans started') (camera ▸ stopped')
      (format'.imp format.trans format.trans)
    rw [queue, session, queue']
  | running handler' observer' format' started' others' =>
    exact .running (handler.trans handler') (observer ▸ observer') (format.trans format')
      (by rw [started, session, started']) (queue ▸ others')

/-- What an event comes to. -/
inductive Stepped (s t : UVCCameraVideoCapturer) (event : Event) : Prop
  /-- A call of `startCapture` that starts nothing. -/
  | refused (other : event ≠ .run) (next : ∃ calls, t = { s with calls := calls })
  | began (other : event ≠ .run) (width height framerate : Int) (frameObserver helper : Nat)
    (handler : s.mCameraThreadHandler = false)
    (next : t = { s with
      mCameraThreadHandler := true
      mSurfaceHelper := some helper
      session := s.session + 1
      queue := s.queue ++ [.startCapture (s.session + 1) width height framerate frameObserver] })
  | posted (other : event ≠ .run) (runnable : Runnable) (starts : runnable.starts = false) (stopping : Option Nat)
    (asked : stopping = s.stopping ∨ runnable = .stopCapture ∧ stopping = some s.session)
    (next : t = { maybePostOnCameraThread runnable s with stopping := stopping })
  | returns (same : event = .stopCaptureReturns) (session : Nat) (stopping : s.stopping = some session)
    (next : t = { s with stopping := none, returned := session :: s.returned })
  | ran (same : event = .run) (runnable : Runnable) (rest : List Runnable) (capturing : s.capturing = none)
    (queue : s.queue = runnable :: rest) (ran : runnable.run { s with queue := rest } = some t)
  | delivered (captureTimeNs : Int) (same : event = .onByteBufferFrameCaptured captureTimeNs)
    (capturing : s.capturing.isSome) (next : ∃ calls, t = { s with capturing := none, calls := calls })

theorem stepped_of_step {event : Event} (taken : step s event = some t) : Stepped s t event := by
  cases event with
  | startCapture width height framerate surfaceTextureHelper applicationContext frameObserver =>
    cases taken
    have other : Event.startCapture width height framerate surfaceTextureHelper applicationContext frameObserver ≠ .run :=
      fun same => by cases same
    rcases startCapture_cases width height framerate surfaceTextureHelper applicationContext frameObserver s with
      refused | ⟨helper, handler, same⟩
    · exact .refused other refused
    · exact .began other width height framerate frameObserver helper handler same
  | stopCapture =>
    obtain ⟨_, same⟩ := Option.ite_none_right_eq_some.mp taken
    exact .posted (fun same => by cases same) .stopCapture rfl _ (Or.inr ⟨rfl, rfl⟩) (Option.some.inj same).symm
  | stopCaptureReturns =>
    obtain ⟨session, stopping, same⟩ := Option.map_eq_some_iff.mp taken
    exact .returns rfl session stopping same.symm
  | changeCaptureFormat width height framerate =>
    exact .posted (fun same => by cases same) _ rfl _ (Or.inl rfl) (Option.some.inj taken).symm
  | onOutputFormatRequest width height framerate =>
    exact .posted (fun same => by cases same) _ rfl _ (Or.inl rfl) (Option.some.inj taken).symm
  | onUVCFrame frameData =>
    exact .posted (fun same => by cases same) _ rfl _ (Or.inl rfl) (Option.some.inj taken).symm
  | onTextureFrameAvailable =>
    exact .posted (fun same => by cases same) _ rfl _ (Or.inl rfl) (Option.some.inj taken).symm
  | run =>
    simp only [Capture.step] at taken
    split at taken
    next runnable rest capturing queue => exact .ran rfl runnable rest capturing queue taken
    next => cases taken
  | onByteBufferFrameCaptured captureTimeNs =>
    simp only [Capture.step, Capture.onByteBufferFrameCaptured, Option.bind_eq_bind, Option.bind_eq_some_iff,
      Option.some.injEq] at taken
    obtain ⟨frameData, capturing, frameObserver, _, format, _, same⟩ := taken
    exact .delivered captureTimeNs rfl (by simp [capturing]) ⟨_, same.symm⟩

theorem Phase.step (phase : Phase s) {event : Event} (taken : step s event = some t) : Phase t := by
  cases stepped_of_step taken with
  | refused other next =>
    obtain ⟨calls, same⟩ := next
    subst same
    exact phase.congr rfl rfl rfl rfl rfl rfl (Or.inr rfl) rfl rfl
  | began other width height framerate frameObserver helper handler next =>
    subst next
    cases phase with
    | idle _ queue capturing started stopped format =>
      exact .starting width height framerate frameObserver [] rfl rfl (by simp [queue]) (by simp) capturing started stopped
        format
    | starting _ _ _ _ _ set => simp [handler] at set
    | running set => simp [handler] at set
  | posted other runnable starts stopping asked next =>
    subst next
    exact (phase.post starts).congr rfl rfl rfl rfl rfl rfl (Or.inr rfl) rfl rfl
  | returns same session stopping next =>
    subst next
    exact phase.congr rfl rfl rfl rfl rfl rfl (Or.inr rfl) rfl rfl
  | ran same runnable rest capturing queue ran =>
    cases phase with
    | idle _ empty => simp [empty] at queue
    | starting width height framerate frameObserver others handler helper first rest' =>
      cases queue.symm.trans first
      cases ran
      exact Phase.start handler helper rest'
    | running handler observer format started others =>
      rw [queue] at others
      obtain ⟨other, others⟩ := List.forall_mem_cons.mp others
      exact Phase.run handler observer format started capturing others other ran
  | delivered captureTimeNs same capturing next =>
    obtain ⟨calls, next⟩ := next
    subst next
    exact phase.congr rfl rfl rfl rfl rfl rfl (Or.inl rfl) rfl rfl

/-- What is run besides a start changes nothing about a preview, or ends it with a stop. -/
theorem Previews.run {runnable : Runnable} {rest : List Runnable} (handler : s.mCameraThreadHandler = true)
    (format : s.captureFormat = some previewFormat) (previews : Previews s) (other : runnable.starts = false)
    (ran : runnable.run { s with queue := rest } = some t) : Previews t := by
  cases runnable with
  | startCapture => cases other
  | stopCapture =>
    cases ran
    exact fun started => by cases started
  | changeCaptureFormat width height framerate =>
    cases ran
    obtain ⟨camera, preview, same, _⟩ :=
      @startPreviewOnCameraThread_spec { s with queue := rest } width height framerate handler
    rw [preview, same format]
    exact previews
  | onOutputFormatRequest width height framerate =>
    simp only [Runnable.run, onOutputFormatRequestOnCameraThread, handler, Bool.true_eq_false, if_false,
      Option.map_eq_some_iff] at ran
    obtain ⟨frameObserver, _, same⟩ := ran
    subst same
    exact previews
  | onUVCFrame frameData =>
    cases ran
    simp only [onUVCFrameRunOnCameraThread, handler, Bool.true_eq_false, if_false]
    exact previews
  | onTextureFrameAvailable =>
    cases ran
    exact previews

/-- A start begins a preview exactly when no format is kept. -/
theorem previews_start_iff {width height framerate : Int} {frameObserver : Nat} {rest : List Runnable}
    (handler : s.mCameraThreadHandler = true) (helper : s.mSurfaceHelper.isSome)
    (stopped : s.mUVCCamera.previewing = false) (format : Formatted s) :
    Previews (startCaptureOnCameraThread s.session width height framerate frameObserver { s with queue := rest }) ↔
      s.captureFormat = none := by
  obtain ⟨camera, started, formatted, unformatted⟩ := @startCaptureOnCameraThread_spec { s with queue := rest } s.session
    width height framerate frameObserver handler helper
  rw [started]
  constructor
  · intro previews
    refine format.resolve_right fun same => ?_
    have running : camera.previewing = true := (previews rfl).1
    rw [formatted same, stopped] at running
    cases running
  · exact fun none _ => unformatted none

/-- Nothing but a runnable changes a preview. -/
theorem Previews.step (phase : Phase s) (previews : Previews s) {event : Event} (other : event ≠ .run)
    (taken : step s event = some t) : Previews t := by
  cases stepped_of_step taken with
  | refused _ next =>
    obtain ⟨calls, same⟩ := next
    subst same
    exact previews
  | began _ width height framerate frameObserver helper handler next =>
    subst next
    cases phase with
    | idle _ _ _ started => exact fun reported => by simp [started] at reported
    | starting _ _ _ _ _ set => simp [handler] at set
    | running set => simp [handler] at set
  | posted _ runnable starts stopping asked next =>
    subst next
    exact previews
  | returns same session stopping next =>
    subst next
    exact previews
  | ran same => exact absurd same other
  | delivered captureTimeNs same capturing next =>
    obtain ⟨calls, next⟩ := next
    subst next
    exact previews

theorem previews_step_iff (phase : Phase s) (previews : Previews s) (event : Event) :
    (∀ t, step s event = some t → Previews t) ↔ Unformatted s event := by
  cases event with
  | run =>
    cases phase with
    | idle _ empty => simp [step, Unformatted, empty]
    | starting width height framerate frameObserver rest handler helper queue _ capturing started stopped format =>
      have taken : step s .run = some (startCaptureOnCameraThread s.session width height framerate frameObserver
          { s with queue := rest }) := by
        simp [step, capturing, queue, Runnable.run]
      rw [taken]
      have start := @previews_start_iff s width height framerate frameObserver rest handler helper stopped format
      constructor
      · exact fun all _ _ _ _ _ _ => start.mp (all _ rfl)
      · intro unformatted t same
        cases same
        exact start.mpr (unformatted s.session width height framerate frameObserver (by rw [queue]; rfl))
    | running handler observer format started others =>
      refine iff_of_true ?_ ?_
      · intro t taken
        simp only [step] at taken
        split at taken
        next runnable rest capturing queue =>
          exact Previews.run handler format previews (others runnable (by simp [queue])) taken
        next => cases taken
      · intro session width height framerate frameObserver head
        have start := others _ (List.mem_of_mem_head? head)
        cases start
  | _ => exact iff_of_true (fun t taken => previews.step phase (fun same => by cases same) taken) trivial

/-- Started means previewing in every state of a run exactly when every start is the first. -/
theorem started_previews_iff (events : List Event) :
    Throughout step Previews {} events ↔ Steps step Unformatted {} events := by
  have start : Phase {} := .idle rfl rfl rfl rfl rfl (Or.inl rfl)
  have fresh : Previews {} := fun started => by cases started
  have agree : ∀ s event, Phase s ∧ Previews s →
      ((∀ t, step s event = some t → Previews t) ↔ Unformatted s event) :=
    fun s event both => previews_step_iff both.1 both.2 event
  have preserved : ∀ s event t, Phase s ∧ Previews s → Unformatted s event → Previews t →
      step s event = some t → Phase t ∧ Previews t :=
    fun s event t both _ previews taken => ⟨both.1.step taken, previews⟩
  exact throughout_iff_steps agree preserved ⟨start, fresh⟩ fresh

/-- The capturer is stopped and started again: the start is reported, and no preview runs. -/
theorem restarted_not_previewing :
    ¬ Throughout step Previews {} [.startCapture 640 480 30 (some 1) true 1, .run, .stopCapture, .stopCaptureReturns, .run,
      .startCapture 640 480 30 (some 1) true 1, .run] := by
  intro all
  have last := all _ [] (List.append_nil _).symm _ rfl
  have reported := last (by decide)
  exact absurd reported.1 (by decide)

end AdTerminal.Capture
