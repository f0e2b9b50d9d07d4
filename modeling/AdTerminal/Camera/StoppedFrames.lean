import AdTerminal.Camera.UVCCameraVideoCapturer

/-! Frames and the stop of a session. The call of `stopCapture` posts its runnable and returns,
whatever the camera thread has still to run before it. -/

namespace AdTerminal.Capture
open Transition

/-- Some frame is queued ahead of the first stop. -/
def frameAhead : List Runnable → Bool
  | [] => false
  | .stopCapture :: _ => false
  | .onUVCFrame _ :: _ => true
  | _ :: rest => frameAhead rest

/-- No frame is under way to the observer that the stop does not remove. -/
def Quiet (s : UVCCameraVideoCapturer) : Prop := s.capturing = none ∧ frameAhead s.queue = false

/-- The observer is called with no frame of a session whose stop has returned. -/
def Silent (s : UVCCameraVideoCapturer) : Event → Prop
  | .onByteBufferFrameCaptured _ => s.capturing.isSome → s.session ∉ s.returned
  | _ => True

/-- A call of `stopCapture` returns only when the frames of its session are done. -/
def Drained (s : UVCCameraVideoCapturer) : Event → Prop
  | .stopCaptureReturns => s.stopping = some s.session → Quiet s
  | _ => True

/-- The stops that are posted are run, and no frame is on its way to the observer. -/
def Settled (s : UVCCameraVideoCapturer) : Prop := .stopCapture ∉ s.queue ∧ s.capturing = none

/-- The session has a stop queued, or is over. -/
def Ending (session : Nat) (s : UVCCameraVideoCapturer) : Prop :=
  session < s.session ∨ session = s.session ∧ (s.mCameraThreadHandler = false ∨ .stopCapture ∈ s.queue)

variable {s t : UVCCameraVideoCapturer} {session : Nat}

theorem frameAhead_append {queue : List Runnable} (stop : .stopCapture ∈ queue) (runnable : Runnable) :
    frameAhead (queue ++ [runnable]) = frameAhead queue := by
  induction queue with
  | nil => simp at stop
  | cons first rest ih =>
    cases first with
    | stopCapture => rfl
    | onUVCFrame => rfl
    | startCapture => exact ih (by simpa using stop)
    | changeCaptureFormat => exact ih (by simpa using stop)
    | onOutputFormatRequest => exact ih (by simpa using stop)
    | onTextureFrameAvailable => exact ih (by simpa using stop)

theorem frameAhead_cons {runnable : Runnable} (other : runnable ≠ .stopCapture) (rest : List Runnable) :
    frameAhead (runnable :: rest) = (frameAhead [runnable] || frameAhead rest) := by
  cases runnable with
  | stopCapture => exact absurd rfl other
  | _ => rfl

/-- What no runnable but a stop touches. -/
structure Kept (s t : UVCCameraVideoCapturer) : Prop where
  queue : t.queue = s.queue
  handler : t.mCameraThreadHandler = s.mCameraThreadHandler
  session : t.session = s.session
  stopping : t.stopping = s.stopping
  returned : t.returned = s.returned

theorem kept_startPreview (width height framerate : Int) (s : UVCCameraVideoCapturer) :
    Kept s (startPreviewOnCameraThread width height framerate s) ∧
      (startPreviewOnCameraThread width height framerate s).capturing = s.capturing := by
  unfold startPreviewOnCameraThread
  split
  next => exact ⟨⟨rfl, rfl, rfl, rfl, rfl⟩, rfl⟩
  next =>
    split
    next => exact ⟨⟨rfl, rfl, rfl, rfl, rfl⟩, rfl⟩
    next => exact ⟨⟨rfl, rfl, rfl, rfl, rfl⟩, rfl⟩

theorem kept_startCapture (session : Nat) (width height framerate : Int) (frameObserver : Nat)
    (s : UVCCameraVideoCapturer) :
    Kept s (startCaptureOnCameraThread session width height framerate frameObserver s) ∧
      (startCaptureOnCameraThread session width height framerate frameObserver s).capturing = s.capturing := by
  unfold startCaptureOnCameraThread
  split
  next => exact ⟨⟨rfl, rfl, rfl, rfl, rfl⟩, rfl⟩
  next =>
    split
    next => exact ⟨⟨rfl, rfl, rfl, rfl, rfl⟩, rfl⟩
    next texture _ =>
      obtain ⟨kept, capturing⟩ := kept_startPreview width height framerate
        { s with frameObserver := some frameObserver, mUVCCamera := s.mUVCCamera.setUVCPreviewTexture texture }
      exact ⟨⟨kept.queue, kept.handler, kept.session, kept.stopping, kept.returned⟩, capturing⟩

/-- A runnable other than a stop leaves the rest of the queue to run, and only one for a frame
comes to have a frame to deliver. -/
theorem kept_run {runnable : Runnable} (other : runnable ≠ .stopCapture) (handler : s.mCameraThreadHandler = true)
    (free : s.capturing = none) (ran : runnable.run s = some t) :
    Kept s t ∧ t.capturing.isSome = frameAhead [runnable] := by
  cases runnable with
  | startCapture session width height framerate frameObserver =>
    cases ran
    obtain ⟨kept, capturing⟩ := kept_startCapture session width height framerate frameObserver s
    exact ⟨kept, by rw [capturing, free]; rfl⟩
  | stopCapture => exact absurd rfl other
  | changeCaptureFormat width height framerate =>
    cases ran
    obtain ⟨kept, capturing⟩ := kept_startPreview width height framerate s
    exact ⟨kept, by rw [capturing, free]; rfl⟩
  | onOutputFormatRequest width height framerate =>
    simp only [Runnable.run, onOutputFormatRequestOnCameraThread, handler, Bool.true_eq_false, if_false,
      Option.map_eq_some_iff] at ran
    obtain ⟨frameObserver, _, same⟩ := ran
    subst same
    exact ⟨⟨rfl, handler.symm, rfl, rfl, rfl⟩, by rw [free]; rfl⟩
  | onUVCFrame frameData =>
    cases ran
    simp only [onUVCFrameRunOnCameraThread, handler, Bool.true_eq_false, if_false]
    exact ⟨⟨rfl, handler.symm, rfl, rfl, rfl⟩, rfl⟩
  | onTextureFrameAvailable =>
    cases ran
    exact ⟨⟨rfl, rfl, rfl, rfl, rfl⟩, by rw [free]; rfl⟩

/-- The events as far as the stop of a session is concerned. -/
inductive Move (s t : UVCCameraVideoCapturer) (event : Event) : Prop
  | began (quiet : Quiet s) (later : t.session = s.session + 1) (stopping : t.stopping = s.stopping)
    (returned : t.returned = s.returned)
  | posted (queue : t.queue = s.queue ∨ ∃ runnable, t.queue = s.queue ++ [runnable])
    (handler : t.mCameraThreadHandler = s.mCameraThreadHandler) (session : t.session = s.session)
    (stopping : t.stopping = s.stopping ∨
      t.stopping = some t.session ∧ (t.mCameraThreadHandler = false ∨ .stopCapture ∈ t.queue))
    (returned : t.returned = s.returned) (capturing : t.capturing = s.capturing)
  | returns (same : event = .stopCaptureReturns) (session : Nat) (stopping : s.stopping = some session)
    (next : t = { s with stopping := none, returned := session :: s.returned })
  | ran (runnable : Runnable) (handler : s.mCameraThreadHandler = true) (queue : s.queue = runnable :: t.queue)
    (other : runnable ≠ .stopCapture) (kept : Kept { s with queue := t.queue } t) (free : s.capturing = none)
    (capturing : t.capturing.isSome = frameAhead [runnable])
  | stopped (rest : List Runnable) (queue : s.queue = .stopCapture :: rest) (free : s.capturing = none)
    (next : t = stopCaptureOnCameraThread { s with queue := rest })
  | delivered (captureTimeNs : Int) (same : event = .onByteBufferFrameCaptured captureTimeNs)
    (capturing : s.capturing.isSome) (next : ∃ calls, t = { s with capturing := none, calls := calls })

theorem Phase.handler_of_queue (phase : Phase s) {runnable : Runnable} {rest : List Runnable}
    (queue : s.queue = runnable :: rest) : s.mCameraThreadHandler = true := by
  cases phase with
  | idle _ empty => simp [empty] at queue
  | starting _ _ _ _ _ handler => exact handler
  | running handler => exact handler

theorem Phase.quiet (phase : Phase s) (handler : s.mCameraThreadHandler = false) : Quiet s := by
  cases phase with
  | idle _ queue capturing => exact ⟨capturing, by rw [queue]; rfl⟩
  | starting _ _ _ _ _ set => simp [handler] at set
  | running set => simp [handler] at set

theorem queue_post (runnable : Runnable) :
    (maybePostOnCameraThread runnable s).queue = if s.mCameraThreadHandler then s.queue ++ [runnable] else s.queue := by
  unfold maybePostOnCameraThread
  split <;> simp_all

theorem move_of_step (phase : Phase s) {event : Event} (taken : step s event = some t) : Move s t event := by
  cases stepped_of_step taken with
  | refused _ next =>
    obtain ⟨calls, same⟩ := next
    subst same
    exact .posted (Or.inl rfl) rfl rfl (Or.inl rfl) rfl rfl
  | began _ width height framerate frameObserver helper handler next =>
    subst next
    exact .began (phase.quiet handler) rfl rfl rfl
  | posted _ runnable starts stopping asked next =>
    subst next
    have queue := @queue_post s runnable
    refine .posted ?_ rfl rfl ?_ rfl rfl
    · cases handler : s.mCameraThreadHandler with
      | true => exact Or.inr ⟨runnable, queue.trans (if_pos handler)⟩
      | false => exact Or.inl (queue.trans (if_neg (by simp [handler])))
    · refine asked.imp id fun stop => ⟨stop.2, ?_⟩
      show s.mCameraThreadHandler = false ∨ .stopCapture ∈ (maybePostOnCameraThread runnable s).queue
      rw [queue, stop.1]
      cases s.mCameraThreadHandler with
      | true => exact Or.inr (List.mem_append_right _ (List.mem_singleton_self _))
      | false => exact Or.inl rfl
  | returns same session stopping next => exact .returns same session stopping next
  | ran _ runnable rest capturing queue ran =>
    by_cases stop : runnable = .stopCapture
    · subst stop
      exact .stopped rest queue capturing (Option.some.inj ran).symm
    · have handler := phase.handler_of_queue queue
      obtain ⟨kept, frame⟩ := @kept_run { s with queue := rest } t runnable stop handler capturing ran
      have same : t.queue = rest := kept.queue
      subst same
      exact .ran runnable handler queue stop kept capturing frame
  | delivered captureTimeNs same capturing next => exact .delivered captureTimeNs same capturing next

/-- A session that is ending stays so, and its stop is run before the next one starts. -/
theorem Ending.move {event : Event} (ending : Ending session s) (move : Move s t event) : Ending session t := by
  cases move with
  | began quiet later stopping returned =>
    unfold Ending at ending
    exact Or.inl (by omega)
  | posted queue handler same stopping returned capturing =>
    unfold Ending
    rw [same, handler]
    refine ending.imp id (And.imp id (Or.imp id fun stop => ?_))
    rcases queue with queue | ⟨runnable, queue⟩
    · rwa [queue]
    · rw [queue]
      exact List.mem_append_left _ stop
  | returns _ _ _ next =>
    subst next
    exact ending
  | ran runnable handler queue other kept =>
    unfold Ending
    rw [kept.session]
    refine ending.imp id (And.imp id fun stop => Or.inr ?_)
    rcases stop with unset | stop
    · simp [handler] at unset
    · rw [queue] at stop
      exact (List.mem_cons.mp stop).resolve_left fun same => other same.symm
  | stopped rest queue free next =>
    subst next
    exact ending.imp id fun stop => ⟨stop.1, Or.inl rfl⟩
  | delivered captureTimeNs same capturing next =>
    obtain ⟨calls, next⟩ := next
    subst next
    exact ending

theorem Move.stopping_cases {event : Event} (move : Move s t event) (member : session ∈ t.stopping) :
    session ∈ s.stopping ∨ Ending session t := by
  cases move with
  | began quiet later stopping returned => exact Or.inl (stopping ▸ member)
  | posted queue handler same stopping returned capturing =>
    rcases stopping with stopping | ⟨stopping, ending⟩
    · exact Or.inl (stopping ▸ member)
    · rw [stopping] at member
      cases member
      exact Or.inr (Or.inr ⟨rfl, ending⟩)
  | returns _ _ _ next =>
    subst next
    cases member
  | ran runnable handler queue other kept => exact Or.inl (kept.stopping ▸ member)
  | stopped rest queue free next =>
    subst next
    exact Or.inl member
  | delivered captureTimeNs same capturing next =>
    obtain ⟨calls, next⟩ := next
    subst next
    exact Or.inl member

theorem Move.returned_cases {event : Event} (move : Move s t event) (member : session ∈ t.returned) :
    session ∈ s.returned ∨ event = .stopCaptureReturns ∧ session ∈ s.stopping := by
  cases move with
  | began quiet later stopping returned => exact Or.inl (returned ▸ member)
  | posted queue handler same stopping returned capturing => exact Or.inl (returned ▸ member)
  | returns same latest stopping next =>
    rw [next] at member
    rcases List.mem_cons.mp member with rfl | member
    · exact Or.inr ⟨same, stopping⟩
    · exact Or.inl member
  | ran runnable handler queue other kept => exact Or.inl (kept.returned ▸ member)
  | stopped rest queue free next =>
    subst next
    exact Or.inl member
  | delivered captureTimeNs same capturing next =>
    obtain ⟨calls, next⟩ := next
    subst next
    exact Or.inl member

/-- Every session that is being stopped, or whose stop has returned, is ending. -/
structure Stops (s : UVCCameraVideoCapturer) : Prop where
  phase : Phase s
  stopping : ∀ session ∈ s.stopping, Ending session s
  returned : ∀ session ∈ s.returned, Ending session s

theorem Stops.step (stops : Stops s) {event : Event} (taken : step s event = some t) : Stops t := by
  have move := move_of_step stops.phase taken
  refine ⟨stops.phase.step taken, fun session member => ?_, fun session member => ?_⟩
  · rcases move.stopping_cases member with member | ending
    · exact (stops.stopping session member).move move
    · exact ending
  · rcases move.returned_cases member with member | ⟨_, member⟩
    · exact (stops.returned session member).move move
    · exact (stops.stopping session member).move move

/-- Behind a queued stop nothing is ahead of it that was not before. -/
theorem quiet_posted (stops : Stops s) (ending : Ending s.session s)
    (queue : t.queue = s.queue ∨ ∃ runnable, t.queue = s.queue ++ [runnable])
    (handler : t.mCameraThreadHandler = s.mCameraThreadHandler) (capturing : t.capturing = s.capturing)
    (phase : Phase t) : Quiet t ↔ Quiet s := by
  rcases ending with later | ⟨_, unset | stop⟩
  · exact absurd later (Nat.lt_irrefl _)
  · exact iff_of_true (phase.quiet (handler.trans unset)) (stops.phase.quiet unset)
  · unfold Quiet
    rcases queue with queue | ⟨runnable, queue⟩
    · rw [queue, capturing]
    · rw [queue, capturing, frameAhead_append stop]

theorem Move.session_le {event : Event} (move : Move s t event) : s.session ≤ t.session := by
  cases move with
  | began quiet later => omega
  | posted _ _ same => exact same.ge
  | returns _ _ _ next => exact (congrArg UVCCameraVideoCapturer.session next).ge
  | ran _ _ _ _ kept => exact kept.session.ge
  | stopped _ _ _ next => exact (congrArg UVCCameraVideoCapturer.session next).ge
  | delivered _ _ _ next => exact next.elim fun _ next => (congrArg UVCCameraVideoCapturer.session next).ge

/-- No frame comes to be ahead of the stop of a session that is ending. -/
theorem Move.quiet {event : Event} (move : Move s t event) (stops : Stops s) (phase : Phase t)
    (ending : Ending s.session s) (same : t.session = s.session) (quiet : Quiet s) : Quiet t := by
  cases move with
  | began _ later => omega
  | posted queue handler same stopping returned capturing =>
    exact (quiet_posted stops ending queue handler capturing phase).mpr quiet
  | returns _ _ _ next =>
    subst next
    exact quiet
  | ran runnable handler queue other kept free frame =>
    have ahead := quiet.2
    rw [queue, frameAhead_cons other, Bool.or_eq_false_iff] at ahead
    rw [ahead.1] at frame
    exact ⟨Option.not_isSome_iff_eq_none.mp (by simp [frame]), ahead.2⟩
  | stopped rest queue free next =>
    subst next
    exact phase.quiet rfl
  | delivered captureTimeNs same capturing next =>
    obtain ⟨calls, next⟩ := next
    subst next
    exact ⟨rfl, quiet.2⟩

/-- The session is reported to be stopped, with a frame of it under way. -/
def Late (s : UVCCameraVideoCapturer) : Prop := s.session ∈ s.returned ∧ ¬ Quiet s

theorem Move.late {event : Event} (move : Move s t event) (stops : Stops s) (phase : Phase t)
    (silent : Silent s event) (late : Late s) : Late t := by
  obtain ⟨member, pending⟩ := late
  have ending := stops.returned s.session member
  cases move with
  | began quiet => exact absurd quiet pending
  | posted queue handler same stopping returned capturing =>
    refine ⟨by rwa [same, returned], ?_⟩
    rwa [quiet_posted stops ending queue handler capturing phase]
  | returns _ session _ next =>
    subst next
    exact ⟨List.mem_cons_of_mem session member, pending⟩
  | ran runnable handler queue other kept free frame =>
    refine ⟨by rw [kept.session, kept.returned]; exact member, fun quiet => pending ⟨free, ?_⟩⟩
    rw [queue, frameAhead_cons other, ← frame, quiet.1, quiet.2]
    rfl
  | stopped rest queue free next => exact absurd ⟨free, by rw [queue]; rfl⟩ pending
  | delivered captureTimeNs same capturing next =>
    subst same
    exact absurd member (silent capturing)

/-- Nothing is under way for a session whose stop has returned. -/
def Quieted (s : UVCCameraVideoCapturer) : Prop := s.session ∈ s.returned → Quiet s

theorem Move.quieted {event : Event} (move : Move s t event) (stops : Stops s) (phase : Phase t)
    (drained : Drained s event) (quieted : Quieted s) : Quieted t := by
  intro member
  have later := move.session_le
  have before : Ending t.session s ∧ (t.session = s.session → Quiet s) := by
    rcases move.returned_cases member with member | ⟨rfl, member⟩
    · exact ⟨stops.returned _ member, fun same => quieted (same ▸ member)⟩
    · exact ⟨stops.stopping _ member, fun same => drained (same ▸ member)⟩
  have same : t.session = s.session := by
    rcases before.1 with earlier | ⟨same, _⟩
    · omega
    · exact same
  exact move.quiet stops phase (same ▸ before.1) same (before.2 same)

theorem Quieted.silent (quieted : Quieted s) (event : Event) : Silent s event := by
  cases event with
  | onByteBufferFrameCaptured captureTimeNs =>
    intro capturing member
    rw [(quieted member).1] at capturing
    cases capturing
  | _ => trivial

theorem stops_initial : Stops {} := by
  refine ⟨.idle rfl rfl rfl rfl rfl (Or.inl rfl), ?_, ?_⟩
  · intro session member
    cases member
  · intro session member
    cases member

theorem late_of_not_drained {event : Event} (broken : ¬ Drained s event) (taken : step s event = some t) : Late t := by
  cases event with
  | stopCaptureReturns =>
    obtain ⟨session, stopping, same⟩ := Option.map_eq_some_iff.mp taken
    subst same
    obtain ⟨latest, pending⟩ := Classical.not_imp.mp broken
    cases stopping.symm.trans latest
    exact ⟨List.mem_cons_self, pending⟩
  | _ => exact absurd trivial broken

theorem not_late_of_settled (stops : Stops s) (settled : Settled s) : ¬ Late s := by
  intro late
  rcases stops.returned s.session late.1 with later | ⟨_, unset | stop⟩
  · exact Nat.lt_irrefl _ later
  · exact late.2 (stops.phase.quiet unset)
  · exact settled.1 stop

/-- No frame follows the return of a stop exactly when each return waits for the frames ahead. -/
theorem silent_iff {events : List Event} {last : UVCCameraVideoCapturer} (whole : run step {} events = some last)
    (settled : Settled last) : Steps step Silent {} events ↔ Steps step Drained {} events := by
  have kept : ∀ s event t, Stops s → Silent s event → step s event = some t → Stops t :=
    fun s event t stops _ taken => stops.step taken
  constructor
  · intro silent
    have stays : ∀ s event t, Stops s → Late s → Silent s event → step s event = some t → Late t :=
      fun s event t stops late silent taken =>
        (move_of_step stops.phase taken).late stops (stops.phase.step taken) silent late
    have ended : Stops last := run_invariant kept stops_initial silent whole
    exact Steps.of_end kept (fun s event t _ _ broken taken => late_of_not_drained broken taken) stays stops_initial
      silent whole (not_late_of_settled ended settled)
  · intro drained
    have preserved : ∀ s event t, Stops s ∧ Quieted s → Drained s event → step s event = some t → Stops t ∧ Quieted t :=
      fun s event t both drained taken => ⟨both.1.step taken,
        (move_of_step both.1.phase taken).quieted both.1 (both.1.phase.step taken) drained both.2⟩
    have fresh : Quieted {} := fun member => by cases member
    exact Steps.of_invariant (fun s event both _ => both.2.silent event) preserved ⟨stops_initial, fresh⟩ drained

instance (s : UVCCameraVideoCapturer) : Decidable (Quiet s) :=
  inferInstanceAs (Decidable (s.capturing = none ∧ frameAhead s.queue = false))

instance (s : UVCCameraVideoCapturer) : DecidablePred (Silent s)
  | .onByteBufferFrameCaptured _ => inferInstanceAs (Decidable (s.capturing.isSome → s.session ∉ s.returned))
  | .startCapture .. => isTrue trivial
  | .stopCapture => isTrue trivial
  | .stopCaptureReturns => isTrue trivial
  | .changeCaptureFormat .. => isTrue trivial
  | .onOutputFormatRequest .. => isTrue trivial
  | .onUVCFrame _ => isTrue trivial
  | .onTextureFrameAvailable => isTrue trivial
  | .run => isTrue trivial

instance (s : UVCCameraVideoCapturer) : DecidablePred (Drained s)
  | .stopCaptureReturns => inferInstanceAs (Decidable (s.stopping = some s.session → Quiet s))
  | .onByteBufferFrameCaptured _ => isTrue trivial
  | .startCapture .. => isTrue trivial
  | .stopCapture => isTrue trivial
  | .changeCaptureFormat .. => isTrue trivial
  | .onOutputFormatRequest .. => isTrue trivial
  | .onUVCFrame _ => isTrue trivial
  | .onTextureFrameAvailable => isTrue trivial
  | .run => isTrue trivial

/-- A frame ahead of the stop is delivered before it returns, and one behind it is removed. -/
theorem waiting_silent : Steps step Silent {} [.startCapture 640 480 30 (some 1) true 1, .run, .onUVCFrame [7], .stopCapture,
    .onUVCFrame [8], .run, .onByteBufferFrameCaptured 1000, .stopCaptureReturns, .run] :=
  (silent_iff rfl ⟨by decide, rfl⟩).mpr (by decide)

/-- The call of `stopCapture` returns while a frame is queued, which is delivered after that. -/
theorem queued_not_silent : ¬ Steps step Silent {} [.startCapture 640 480 30 (some 1) true 1, .run, .onUVCFrame [7],
    .stopCapture, .stopCaptureReturns, .run, .onByteBufferFrameCaptured 1000, .run] := by
  decide

end AdTerminal.Capture
