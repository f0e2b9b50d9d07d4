import AdTerminal.Camera.UVCCameraVideoCapturer

/-! The array of the frames. `onFrame` copies each frame into one array, made for the first of them,
and hands it on; the observer gets it when the camera thread runs the delivery. -/

namespace AdTerminal.Capture
open Transition

/-- The enumerator and the capturer of a running session, with the frames passed to `onFrame` in it.
A delivery refers to the array, whatever bytes it was posted with. -/
structure Feed where
  capturer : UVCCameraVideoCapturer
  isFirstFrame : Bool := true
  frameData : List UInt8 := []
  frames : List (List UInt8) := []
  /-- How many calls the observers had before the session. -/
  earlier : Nat := 0
  deriving DecidableEq, Repr

/-- The bytes of a frame that an observer is called with. -/
def ObserverCall.frame? : ObserverCall → Option (List UInt8)
  | onByteBufferFrameCaptured data _ _ _ _ => some data
  | _ => none

inductive FrameEvent where
  | onFrame (frame : List UInt8)
  | run
  | onByteBufferFrameCaptured (captureTimeNs : Int)
  deriving DecidableEq, Repr

namespace Feed

/-- `frame.get(frameData)` throws if the frame is shorter than the array, and leaves what is longer. -/
def get (frame frameData : List UInt8) : Option (List UInt8) :=
  if frame.length < frameData.length then none else some (frame.take frameData.length)

/-- `mIFrameCallback.onFrame`, with nothing for a `BufferUnderflowException`. -/
def onFrame (frame : List UInt8) (s : Feed) : Option Feed :=
  if s.capturer.mUVCCamera.frameCallback = false then some s
  else do
    let frameData ← get frame (if s.isFirstFrame then List.replicate frame.length 0 else s.frameData)
    some { s with
      isFirstFrame := false
      frameData
      capturer := maybePostOnCameraThread (.onUVCFrame frameData) s.capturer }

/-- The camera thread runs the deliveries, and the observer is called with what is in the array. -/
def step (s : Feed) : FrameEvent → Option Feed
  | .onFrame frame => some { (s.onFrame frame).getD s with frames := s.frames ++ [frame] }
  | .run => (Capture.step s.capturer .run).map fun capturer => { s with capturer }
  | .onByteBufferFrameCaptured captureTimeNs =>
    (Capture.onByteBufferFrameCaptured captureTimeNs
      { s.capturer with capturing := s.capturer.capturing.map fun _ => s.frameData }).map
        fun capturer => { s with capturer }

/-- The frames that the observer was called with in the session. -/
def captured (s : Feed) : List (List UInt8) := (s.capturer.calls.drop s.earlier).filterMap fun call => call.2.frame?

/-- The frames whose delivery is still to come. -/
def pending (s : Feed) : List (List UInt8) := s.frames.drop s.captured.length

/-- The `k`-th call carries the bytes of the `k`-th frame. -/
def Unaltered (s : Feed) : Prop := s.captured <+: s.frames

/-- `onFrame` does not throw. -/
def Accepts (s : Feed) : FrameEvent → Prop
  | .onFrame frame => (s.onFrame frame).isSome
  | _ => True

/-- A frame has the size of the array, and the same bytes as all frames whose delivery is to come. -/
def Steady (s : Feed) : FrameEvent → Prop
  | .onFrame frame => (s.isFirstFrame = false → frame.length = s.frameData.length) ∧ ∀ other ∈ s.pending, other = frame
  | _ => True

instance : DecidablePred Unaltered := fun s => inferInstanceAs (Decidable (s.captured <+: s.frames))

instance : ∀ (s : Feed) (event : FrameEvent), Decidable (s.Steady event)
  | s, .onFrame frame => inferInstanceAs (Decidable
      ((s.isFirstFrame = false → frame.length = s.frameData.length) ∧ ∀ other ∈ s.pending, other = frame))
  | _, .run => isTrue trivial
  | _, .onByteBufferFrameCaptured _ => isTrue trivial

/-- A session with nothing under way: the handler and the callback are set. -/
structure Running (s : Feed) : Prop where
  handler : s.capturer.mCameraThreadHandler = true
  callback : s.capturer.mUVCCamera.frameCallback = true
  queue : s.capturer.queue = []
  capturing : s.capturer.capturing = none
  frames : s.frames = []
  earlier : s.earlier = s.capturer.calls.length

/-- The invariant: each frame is captured or to be delivered, and the array holds the last one, as
far as it has room. -/
structure Feeding (s : Feed) : Prop where
  handler : s.capturer.mCameraThreadHandler = true
  callback : s.capturer.mUVCCamera.frameCallback = true
  queue : ∀ runnable ∈ s.capturer.queue, ∃ data, runnable = .onUVCFrame data
  posted : s.captured.length + s.capturer.capturing.toList.length + s.capturer.queue.length = s.frames.length
  earlier : s.earlier ≤ s.capturer.calls.length
  unaltered : s.Unaltered
  last : ∀ frame ∈ s.frames.getLast?, s.isFirstFrame = false ∧ s.frameData.length ≤ frame.length ∧
    s.frameData = frame.take s.frameData.length

variable {s t : Feed} {event : FrameEvent}

theorem Running.feeding (running : s.Running) : s.Feeding := by
  have silent : s.captured = [] := by rw [captured, running.earlier, List.drop_length, List.filterMap_nil]
  refine ⟨running.handler, running.callback, ?_, ?_, running.earlier.le, ?_, ?_⟩
  · rw [running.queue]
    exact fun _ member => absurd member List.not_mem_nil
  · rw [silent, running.capturing, running.queue, running.frames]
    rfl
  · rw [Unaltered, silent]
    exact List.nil_prefix
  · rw [running.frames]
    exact fun _ member => by cases member

/-- The frames are those that were captured and those to come. -/
theorem Unaltered.frames_eq (unaltered : s.Unaltered) : s.captured ++ s.pending = s.frames :=
  List.prefix_iff_eq_append.mp unaltered

/-- The room of the array: it is made for the first frame. -/
def room (s : Feed) (frame : List UInt8) : Nat := if s.isFirstFrame then frame.length else s.frameData.length

/-- What is left when a frame is copied and its delivery posted. -/
def fed (s : Feed) (frame : List UInt8) : Feed where
  capturer := { s.capturer with queue := s.capturer.queue ++ [.onUVCFrame (frame.take (s.room frame))] }
  isFirstFrame := false
  frameData := frame.take (s.room frame)
  frames := s.frames ++ [frame]
  earlier := s.earlier

theorem onFrame_eq (feeding : s.Feeding) (frame : List UInt8) :
    s.onFrame frame = if frame.length < s.room frame then none else some { s.fed frame with frames := s.frames } := by
  have size : (if s.isFirstFrame then List.replicate frame.length 0 else s.frameData).length = s.room frame := by
    unfold room
    split
    · exact List.length_replicate
    · rfl
  unfold onFrame get
  rw [if_neg (by rw [feeding.callback]; decide), size]
  split
  · rfl
  · simp [fed, maybePostOnCameraThread, feeding.handler]

/-- `onFrame` throws exactly on a frame that does not fill the array. -/
theorem accepts_iff (feeding : s.Feeding) (frame : List UInt8) :
    s.Accepts (.onFrame frame) ↔ s.room frame ≤ frame.length := by
  rw [Accepts, onFrame_eq feeding, ← not_lt]
  split
  next short => exact iff_of_false (by decide) (not_not.mpr short)
  next fills => exact iff_of_true rfl fills

theorem step_onFrame (feeding : s.Feeding) {frame : List UInt8} (accepts : s.Accepts (.onFrame frame))
    (taken : s.step (.onFrame frame) = some t) : t = s.fed frame := by
  have fills := (accepts_iff feeding frame).mp accepts
  rw [step, onFrame_eq feeding, if_neg (not_lt.mpr fills)] at taken
  exact (Option.some.inj taken).symm

theorem step_run (feeding : s.Feeding) (taken : s.step .run = some t) : ∃ data rest,
    s.capturer.capturing = none ∧ s.capturer.queue = .onUVCFrame data :: rest ∧
      t = { s with capturer := { s.capturer with queue := rest, capturing := some data } } := by
  obtain ⟨capturer, ran, rfl⟩ := Option.map_eq_some_iff.mp taken
  rw [Capture.step] at ran
  split at ran
  next runnable rest idle queue =>
    obtain ⟨data, rfl⟩ := feeding.queue runnable (by rw [queue]; exact List.mem_cons_self)
    have set : ¬ s.capturer.mCameraThreadHandler = false := by
      rw [feeding.handler]
      decide
    obtain rfl := Option.some.inj ran
    refine ⟨data, rest, idle, queue, ?_⟩
    rw [onUVCFrameRunOnCameraThread, if_neg set]
  next => cases ran

theorem step_captured {captureTimeNs : Int}
    (taken : s.step (.onByteBufferFrameCaptured captureTimeNs) = some t) : ∃ data call,
      s.capturer.capturing = some data ∧ call.2.frame? = some s.frameData ∧
        t = { s with capturer := { s.capturer with capturing := none, calls := s.capturer.calls ++ [call] } } := by
  obtain ⟨capturer, called, rfl⟩ := Option.map_eq_some_iff.mp taken
  obtain ⟨frameData, found, called⟩ := Option.bind_eq_some_iff.mp called
  obtain ⟨observer, -, called⟩ := Option.bind_eq_some_iff.mp called
  obtain ⟨format, -, called⟩ := Option.bind_eq_some_iff.mp called
  obtain ⟨data, capturing, rfl⟩ := Option.map_eq_some_iff.mp found
  obtain rfl := Option.some.inj called
  exact ⟨data, _, capturing, rfl, rfl⟩

theorem pending_eq (s : Feed) : s.pending = s.frames.drop s.captured.length := rfl

theorem captured_fed (frame : List UInt8) : (s.fed frame).captured = s.captured := rfl

theorem pending_fed (unaltered : s.Unaltered) (frame : List UInt8) : (s.fed frame).pending = s.pending ++ [frame] :=
  List.drop_append_of_le_length unaltered.length_le

theorem captured_append (earlier : s.earlier ≤ s.capturer.calls.length) {call : Nat × ObserverCall} {data : List UInt8}
    (frame : call.2.frame? = some data) {capturer : UVCCameraVideoCapturer}
    (calls : capturer.calls = s.capturer.calls ++ [call]) :
    ({ s with capturer } : Feed).captured = s.captured ++ [data] := by
  show ((capturer.calls.drop s.earlier).filterMap _) = _
  rw [calls, List.drop_append_of_le_length earlier, List.filterMap_append]
  simp [captured, frame]

/-- A frame that fills the array is the last one it holds. -/
theorem feeding_fed (feeding : s.Feeding) {frame : List UInt8} (fills : s.room frame ≤ frame.length) :
    (s.fed frame).Feeding := by
  refine ⟨feeding.handler, feeding.callback, ?_, ?_, feeding.earlier, ?_, ?_⟩
  · intro runnable member
    rcases List.mem_append.mp member with old | new
    · exact feeding.queue runnable old
    · exact ⟨_, List.mem_singleton.mp new⟩
  · have posted := feeding.posted
    have queue : (s.fed frame).capturer.queue.length = s.capturer.queue.length + 1 := List.length_append
    have frames : (s.fed frame).frames.length = s.frames.length + 1 := List.length_append
    rw [captured_fed, queue, frames]
    show _ + s.capturer.capturing.toList.length + _ = _
    omega
  · exact feeding.unaltered.trans (List.prefix_append _ _)
  · rintro last found
    obtain rfl : frame = last := by simpa [fed] using found
    have size : (frame.take (s.room frame)).length = s.room frame := List.length_take_of_le fills
    refine ⟨rfl, ?_, ?_⟩
    · show (frame.take (s.room frame)).length ≤ frame.length
      omega
    · show frame.take (s.room frame) = frame.take (frame.take (s.room frame)).length
      rw [size]

theorem feeding_run (feeding : s.Feeding) (taken : s.step .run = some t) :
    t.Feeding ∧ t.captured = s.captured ∧ t.frames = s.frames ∧ t.frameData = s.frameData := by
  obtain ⟨data, rest, idle, queue, rfl⟩ := step_run feeding taken
  refine ⟨⟨feeding.handler, feeding.callback, ?_, ?_, feeding.earlier, feeding.unaltered, feeding.last⟩, rfl, rfl, rfl⟩
  · intro runnable member
    exact feeding.queue runnable (by rw [queue]; exact List.mem_cons_of_mem _ member)
  · have posted := feeding.posted
    rw [idle, queue, Option.toList_none, List.length_nil, List.length_cons] at posted
    show s.captured.length + 1 + rest.length = s.frames.length
    omega

/-- The observer is called with what the array holds, in place of the first frame to come. -/
theorem feeding_captured (feeding : s.Feeding) {captureTimeNs : Int}
    (taken : s.step (.onByteBufferFrameCaptured captureTimeNs) = some t) :
    (t.Unaltered → t.Feeding) ∧ t.captured = s.captured ++ [s.frameData] ∧ t.frames = s.frames ∧
      t.frameData = s.frameData ∧ s.pending ≠ [] := by
  obtain ⟨data, call, capturing, frame, rfl⟩ := step_captured taken
  have captured := @captured_append s feeding.earlier call s.frameData frame
    { s.capturer with capturing := none, calls := s.capturer.calls ++ [call] } rfl
  have posted := feeding.posted
  rw [capturing, Option.toList_some, List.length_singleton] at posted
  refine ⟨fun unaltered => ?_, captured, rfl, rfl, ?_⟩
  · refine ⟨feeding.handler, feeding.callback, feeding.queue, ?_, ?_, unaltered, feeding.last⟩
    · rw [captured, List.length_append, List.length_singleton]
      show s.captured.length + 1 + 0 + s.capturer.queue.length = s.frames.length
      omega
    · exact feeding.earlier.trans (List.prefix_append _ [call]).length_le
  · rw [pending_eq, Ne, List.drop_eq_nil_iff]
    omega

/-- All frames to come are what the array holds. -/
def Held (s : Feed) : Prop := ∀ frame ∈ s.pending, frame = s.frameData

theorem Steady.accepts (feeding : s.Feeding) (steady : s.Steady event) : s.Accepts event := by
  cases event with
  | onFrame frame =>
    rw [accepts_iff feeding, room]
    split
    · exact le_rfl
    · exact (steady.1 (Bool.eq_false_iff.mpr ‹_›)).ge
  | run => trivial
  | onByteBufferFrameCaptured captureTimeNs => trivial

/-- One step keeps what the frames to come and the array have in common. -/
theorem held_step (feeding : s.Feeding) (held : s.Held) (steady : s.Steady event) (taken : s.step event = some t) :
    t.Feeding ∧ t.Held := by
  cases event with
  | onFrame frame =>
    have accepts := Steady.accepts feeding steady
    have fills := (accepts_iff feeding frame).mp accepts
    obtain rfl := step_onFrame feeding accepts taken
    refine ⟨feeding_fed feeding fills, ?_⟩
    have whole : frame.take (s.room frame) = frame := by
      apply List.take_of_length_le
      rw [room]
      split
      · exact le_rfl
      · exact (steady.1 (Bool.eq_false_iff.mpr ‹_›)).le
    intro other member
    rw [pending_fed feeding.unaltered, List.mem_append, List.mem_singleton] at member
    show other = frame.take (s.room frame)
    rw [whole]
    exact member.elim (steady.2 other) id
  | run =>
    obtain ⟨feeding', captured, frames, frameData⟩ := feeding_run feeding taken
    refine ⟨feeding', ?_⟩
    rw [Held, pending_eq, captured, frames, frameData]
    exact held
  | onByteBufferFrameCaptured captureTimeNs =>
    obtain ⟨keeps, captured, frames, frameData, some⟩ := feeding_captured feeding taken
    obtain ⟨first, rest, pending⟩ := List.exists_cons_of_ne_nil some
    obtain rfl : first = s.frameData := held first (by rw [pending]; exact List.mem_cons_self)
    have whole := feeding.unaltered.frames_eq
    rw [pending] at whole
    have split : t.captured ++ rest = t.frames := by
      rw [captured, frames, List.append_assoc]
      exact whole
    refine ⟨keeps ⟨rest, split⟩, fun other member => ?_⟩
    rw [pending_eq, ← split, List.drop_left] at member
    rw [frameData]
    exact held other (by rw [pending]; exact List.mem_cons_of_mem _ member)

/-- Some frame to come does not fit the array, or two of them differ: the array cannot be right for
all of them. -/
def Late (s : Feed) : Prop :=
  (∃ frame ∈ s.pending, frame.length ≠ s.frameData.length) ∨ ∃ frame ∈ s.pending, ∃ other ∈ s.pending, frame ≠ other

/-- A step that throws nothing and after which all calls carried their frames. -/
def Right (s : Feed) (event : FrameEvent) : Prop := s.Accepts event ∧ ∀ t, s.step event = some t → t.Unaltered

theorem feeding_step (feeding : s.Feeding) (right : s.Right event) (taken : s.step event = some t) : t.Feeding := by
  cases event with
  | onFrame frame =>
    obtain rfl := step_onFrame feeding right.1 taken
    exact feeding_fed feeding ((accepts_iff feeding frame).mp right.1)
  | run => exact (feeding_run feeding taken).1
  | onByteBufferFrameCaptured captureTimeNs => exact (feeding_captured feeding taken).1 (right.2 t taken)

/-- While frames are to come, the size of the array stays. -/
theorem length_frameData_fed {frame : List UInt8} (fills : s.room frame ≤ frame.length)
    (sized : s.isFirstFrame = false) : (s.fed frame).frameData.length = s.frameData.length := by
  have size : (frame.take (s.room frame)).length = s.room frame := List.length_take_of_le fills
  show (frame.take (s.room frame)).length = _
  rw [size, room, if_neg (by rw [sized]; decide)]

theorem Feeding.last_of_pending (feeding : s.Feeding) {frame : List UInt8} (member : frame ∈ s.pending) :
    ∃ last, s.pending.getLast? = some last ∧ s.isFirstFrame = false ∧
      s.frameData = last.take s.frameData.length := by
  obtain ⟨last, found⟩ : ∃ last, s.pending.getLast? = some last :=
    ⟨_, List.getLast?_eq_some_getLast (List.ne_nil_of_mem member)⟩
  have same : s.frames.getLast? = some last := by
    rw [← feeding.unaltered.frames_eq, List.getLast?_append, found]
    rfl
  obtain ⟨sized, -, held⟩ := feeding.last last same
  exact ⟨last, found, sized, held⟩

/-- A frame of another size, or with other bytes than one to come, makes the session late. -/
theorem late_of_unsteady (feeding : s.Feeding) (right : s.Right event) (unsteady : ¬ s.Steady event)
    (taken : s.step event = some t) : t.Late := by
  cases event with
  | onFrame frame =>
    have fills := (accepts_iff feeding frame).mp right.1
    obtain rfl := step_onFrame feeding right.1 taken
    unfold Late
    rw [pending_fed feeding.unaltered]
    by_cases same : ∀ other ∈ s.pending, other = frame
    · have misfit : ¬ (s.isFirstFrame = false → frame.length = s.frameData.length) := fun fits => unsteady ⟨fits, same⟩
      obtain ⟨sized, misfit⟩ := Classical.not_imp.mp misfit
      refine .inl ⟨frame, List.mem_append_right _ List.mem_cons_self, ?_⟩
      rwa [length_frameData_fed fills sized]
    · simp only [not_forall] at same
      obtain ⟨other, member, different⟩ := same
      exact .inr ⟨other, List.mem_append_left _ member, frame, List.mem_append_right _ List.mem_cons_self, different⟩
  | run => exact absurd trivial unsteady
  | onByteBufferFrameCaptured captureTimeNs => exact absurd trivial unsteady

theorem Late.exists_pending (late : s.Late) : ∃ frame, frame ∈ s.pending := by
  rcases late with ⟨frame, member, _⟩ | ⟨frame, member, _⟩
  · exact ⟨frame, member⟩
  · exact ⟨frame, member⟩

/-- What the array holds is the last frame to come, or none of them fits. So the first one leaves
another that differs from it behind. -/
theorem late_captured {first : List UInt8} {rest : List (List UInt8)} (feeding : s.Feeding) (late : s.Late)
    (pending : s.pending = first :: rest) (head : first = s.frameData) :
    (∃ frame ∈ rest, frame.length ≠ s.frameData.length) ∨ ∃ frame ∈ rest, ∃ other ∈ rest, frame ≠ other := by
  have behind : ∀ frame ∈ s.pending, frame ≠ s.frameData → frame ∈ rest := by
    intro frame member different
    rw [pending] at member
    exact (List.mem_cons.mp member).resolve_left fun same => different (same.trans head)
  rcases late with ⟨frame, member, misfit⟩ | ⟨frame, member, other, member', different⟩
  · exact .inl ⟨frame, behind frame member fun same => misfit (congrArg List.length same), misfit⟩
  · obtain ⟨odd, odd_mem, odd_ne⟩ : ∃ odd ∈ rest, odd ≠ s.frameData := by
      by_cases same : frame = s.frameData
      · have odd : other ≠ s.frameData := fun eq => different (same.trans eq.symm)
        exact ⟨other, behind other member' odd, odd⟩
      · exact ⟨frame, behind frame member same, same⟩
    obtain ⟨last, found, -, held⟩ := feeding.last_of_pending member
    rw [pending, List.getLast?_cons, List.getLast?_eq_some_getLast (List.ne_nil_of_mem odd_mem)] at found
    have last_mem : last ∈ rest := Option.some.inj found ▸ List.getLast_mem _
    by_cases fits : last.length = s.frameData.length
    · rw [← fits, List.take_length] at held
      exact .inr ⟨odd, odd_mem, last, last_mem, held ▸ odd_ne⟩
    · exact .inl ⟨last, last_mem, fits⟩

theorem late_step (feeding : s.Feeding) (late : s.Late) (right : s.Right event) (taken : s.step event = some t) :
    t.Late := by
  cases event with
  | onFrame frame =>
    have fills := (accepts_iff feeding frame).mp right.1
    obtain rfl := step_onFrame feeding right.1 taken
    obtain ⟨some, member⟩ := late.exists_pending
    obtain ⟨last, _, sized, _⟩ := feeding.last_of_pending member
    unfold Late
    rw [pending_fed feeding.unaltered, length_frameData_fed fills sized]
    rcases late with ⟨other, member, misfit⟩ | ⟨other, member, another, member', different⟩
    · exact .inl ⟨other, List.mem_append_left _ member, misfit⟩
    · exact .inr ⟨other, List.mem_append_left _ member, another, List.mem_append_left _ member', different⟩
  | run =>
    obtain ⟨-, captured, frames, frameData⟩ := feeding_run feeding taken
    rw [Late, pending_eq, captured, frames, frameData]
    exact late
  | onByteBufferFrameCaptured captureTimeNs =>
    obtain ⟨-, captured, frames, frameData, some⟩ := feeding_captured feeding taken
    obtain ⟨first, rest, pending⟩ := List.exists_cons_of_ne_nil some
    have whole := feeding.unaltered.frames_eq
    have unaltered := right.2 t taken
    have rest_eq : s.frameData :: t.pending = first :: rest := by
      have split := unaltered.frames_eq
      rw [captured, frames, ← whole, pending, List.append_assoc] at split
      exact List.append_cancel_left split
    obtain ⟨head, tail⟩ := List.cons.inj rest_eq
    rw [Late, tail, frameData]
    exact late_captured feeding late pending head.symm

theorem right_iff {events : List FrameEvent} (feeding : s.Feeding) :
    Throughout step Unaltered s events ∧ Steps step Accepts s events ↔ Steps step Right s events := by
  rw [throughout_iff]
  constructor
  · rintro ⟨⟨-, unaltered⟩, accepts⟩
    exact (accepts.and unaltered).imp fun _ _ both => both
  · intro right
    exact ⟨⟨feeding.unaltered, right.imp fun _ _ both => both.2⟩, right.imp fun _ _ both => both.1⟩

/-- In every run in which each frame has the size of the array and the bytes of all frames still to
come, the calls carry the frames in order and nothing is thrown. Where no frame is to come in the end,
that is also necessary. -/
theorem unaltered_iff_steady {events : List FrameEvent} (running : s.Running) :
    (Steps step Steady s events → Throughout step Unaltered s events ∧ Steps step Accepts s events) ∧
      ∀ last, run step s events = some last → last.pending = [] →
        (Throughout step Unaltered s events ∧ Steps step Accepts s events ↔ Steps step Steady s events) := by
  have feeding := running.feeding
  have held : s.Held := by
    rw [Held, pending_eq, running.frames, List.drop_nil]
    exact fun _ member => absurd member List.not_mem_nil
  have enough : Steps step Steady s events → Throughout step Unaltered s events ∧ Steps step Accepts s events := by
    intro steady
    rw [right_iff feeding]
    refine Steps.of_invariant (fun s e both steady => ⟨Steady.accepts both.1 steady, fun t taken => ?_⟩)
      (fun s e t both steady taken => held_step both.1 both.2 steady taken) ⟨feeding, held⟩ steady
    exact (held_step both.1 both.2 steady taken).1.unaltered
  refine ⟨enough, fun last whole done => ⟨fun right => ?_, enough⟩⟩
  rw [right_iff feeding] at right
  refine Steps.of_end (fun s e t feeding right taken => feeding_step feeding right taken)
    (fun s e t feeding right unsteady taken => late_of_unsteady feeding right unsteady taken)
    (fun s e t feeding late right taken => late_step feeding late right taken) feeding right whole ?_
  intro late
  obtain ⟨frame, member⟩ := late.exists_pending
  rw [done] at member
  exact List.not_mem_nil member

/-- A session after a start, whose observer is the first. -/
def started : Feed where
  capturer := ((run Capture.step {} [.startCapture 640 480 30 (some 1) true 1, .run]).getD {})
  earlier := 1

theorem started_running : started.Running := by
  constructor <;> decide

/-- One frame is delivered before the next one comes. -/
def inTurn : List FrameEvent :=
  [.onFrame [1, 2], .run, .onByteBufferFrameCaptured 0, .onFrame [3, 4], .run, .onByteBufferFrameCaptured 1]

theorem inTurn_unaltered : Throughout step Unaltered started inTurn ∧ Steps step Accepts started inTurn :=
  (unaltered_iff_steady started_running).1 (by decide)

/-- The second frame is copied over the first one, whose delivery is still to come. -/
theorem overwritten_altered :
    ¬ Throughout step Unaltered started [.onFrame [1, 2], .onFrame [3, 4], .run, .onByteBufferFrameCaptured 0] := by
  intro all
  have last := all _ [] (List.append_nil _).symm _ rfl
  revert last
  decide

end Feed

end AdTerminal.Capture
