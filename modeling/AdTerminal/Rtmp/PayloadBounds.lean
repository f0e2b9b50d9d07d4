import AdTerminal.Library.Failure
import AdTerminal.Library.Transition
import AdTerminal.Rtmp.SrsFastBuffer

/-! What the reader does with any bytes at all: a message never gets more payload than was allocated for
it, also where its caller goes on reading after a failure. -/

namespace AdTerminal.Rtmp

open Simulation Failure Transition

namespace SrsCommonMessage

/-- What is stored of a message fits in the payload allocated for it, and has not filled it yet. -/
def Fits (msg : SrsCommonMessage) (payloadLength : Nat) : Prop :=
  match msg.allocated with
  | none => msg.payload = []
  | some n => n = payloadLength ∧ msg.payload.length < n

/-- The payload of a message has the length its header announces, and as much was allocated for it. -/
def Whole (msg : SrsCommonMessage) : Prop :=
  msg.payload.length = msg.header.payloadLength ∧ msg.payload.length = msg.allocated.getD 0

end SrsCommonMessage

namespace SrsChunkStream

def Fits (chunk : SrsChunkStream) : Prop :=
  ∀ msg, chunk.msg = some msg → msg.Fits chunk.header.payloadLength

end SrsChunkStream

/-- Every message under way fits. -/
def Bounded {β : Type} (p : SrsProtocol β) : Prop :=
  ∀ cid, (p.chunkStreams cid).Fits

/-- And a message whose first header is read now has no payload yet. -/
def Opening {β : Type} (cid : Nat) (isFirst : Bool) (p : SrsProtocol β) : Prop :=
  Bounded p ∧ (isFirst = true → ∀ msg, (p.chunkStreams cid).msg = some msg → msg.allocated = none)

/-- And the message of the chunk stream has the header that was read on it. -/
def Titled {β : Type} (cid : Nat) (p : SrsProtocol β) : Prop :=
  Bounded p ∧ ∀ msg, (p.chunkStreams cid).msg = some msg → msg.header = (p.chunkStreams cid).header

/-- A change of a chunk stream that keeps its length and what its message has of payload. -/
structure KeepsPayload (f : SrsChunkStream → SrsChunkStream) : Prop where
  length : ∀ chunk, (f chunk).header.payloadLength = chunk.header.payloadLength
  msg : ∀ chunk msg, (f chunk).msg = some msg → ∃ before, chunk.msg = some before ∧
    msg.allocated = before.allocated ∧ msg.payload = before.payload

section Bounds

variable {β : Type}

theorem fits_of_same {msg before : SrsCommonMessage} {n : Nat} (allocated : msg.allocated = before.allocated)
    (payload : msg.payload = before.payload) (fits : before.Fits n) : msg.Fits n := by
  unfold SrsCommonMessage.Fits at *
  rw [allocated, payload]
  exact fits

theorem bounded_setChunk {p : SrsProtocol β} (bounded : Bounded p) {cid : Nat} {chunk : SrsChunkStream}
    (fits : chunk.Fits) : Bounded (p.setChunk cid chunk) := by
  intro other
  by_cases same : other = cid
  · rw [same, SrsProtocol.chunkStreams_setChunk_self]
    exact fits
  · rw [SrsProtocol.chunkStreams_setChunk_ne p same]
    exact bounded other

/-- Reading from the buffer leaves the chunk streams alone. -/
theorem onBuffer_keeps {α : Type} {I : (Nat → SrsChunkStream) → Prop} {I' : (Nat → SrsChunkStream) → Prop}
    (weaker : ∀ chunks, I chunks → I' chunks) (call : EStateM SrsError β α) :
    Triple (fun p : SrsProtocol β => I p.chunkStreams) (onBuffer call) (fun _ p => I p.chunkStreams)
      (fun p => I' p.chunkStreams) := by
  intro p start
  simp only [onBuffer, EStateM.run] at start ⊢
  cases call p.inBuffer with
  | ok => exact start
  | error => exact weaker _ start

theorem modifyChunk_keeps {cid : Nat} {isFirst : Bool} {f : SrsChunkStream → SrsChunkStream} (keeps : KeepsPayload f) :
    Triple (Opening (β := β) cid isFirst) (modifyChunk cid f) (fun _ => Opening cid isFirst) Bounded := by
  refine Triple.modify fun p start => ?_
  have same := keeps.msg (p.chunkStreams cid)
  refine ⟨bounded_setChunk start.1 fun stored pending => ?_, fun first stored pending => ?_⟩
  · obtain ⟨before, was, allocated, payload⟩ := same stored pending
    rw [keeps.length]
    exact fits_of_same allocated payload (start.1 cid before was)
  · change ((p.setChunk cid (f (p.chunkStreams cid))).chunkStreams cid).msg = _ at pending
    rw [SrsProtocol.chunkStreams_setChunk_self] at pending
    obtain ⟨before, was, allocated, -⟩ := same stored pending
    exact allocated.trans (start.2 first before was)

/-- The chunk stream is known after it is looked up. -/
theorem getChunk_knows {P : SrsProtocol β → Prop} {E : SrsProtocol β → Prop} (cid : Nat) :
    Triple P (getChunk cid) (fun chunk p => P p ∧ chunk = p.chunkStreams cid) E :=
  fun _ start => ⟨start, rfl⟩

theorem keeps_setTimestamp (fmt delta : Nat) : KeepsPayload (SrsChunkStream.setTimestamp fmt delta) :=
  ⟨fun _ => rfl, fun _ msg same => ⟨msg, same, rfl, rfl⟩⟩

theorem keeps_setStreamId (streamId : Nat) : KeepsPayload (SrsChunkStream.setStreamId streamId) :=
  ⟨fun _ => rfl, fun _ msg same => ⟨msg, same, rfl, rfl⟩⟩

theorem keeps_addDelta : KeepsPayload SrsChunkStream.addDelta :=
  ⟨fun _ => rfl, fun _ msg same => ⟨msg, same, rfl, rfl⟩⟩

theorem keeps_setExtended (timestamp : Nat) : KeepsPayload (SrsChunkStream.setExtended timestamp) :=
  ⟨fun _ => rfl, fun _ msg same => ⟨msg, same, rfl, rfl⟩⟩

theorem keeps_closeHeader : KeepsPayload SrsChunkStream.closeHeader := by
  refine ⟨fun _ => rfl, fun chunk msg same => ?_⟩
  obtain ⟨before, was, rfl⟩ := Option.map_eq_some_iff.mp same
  exact ⟨before, was, rfl, rfl⟩

/-- A length that is set is the one before, or comes before there is any payload. -/
theorem setLength_opening {cid length : Nat} {isFirst : Bool} {type : UInt8} {chunk : SrsChunkStream}
    (same : ¬ (¬ isFirst = true ∧ chunk.header.payloadLength ≠ length)) :
    Triple (fun p : SrsProtocol β => Opening cid isFirst p ∧ chunk = p.chunkStreams cid)
      (modifyChunk cid (·.setLength length type)) (fun _ => Opening cid isFirst) Bounded := by
  refine Triple.modify fun p ⟨start, known⟩ => ?_
  subst known
  refine ⟨bounded_setChunk start.1 fun msg pending => ?_, fun first msg pending => ?_⟩
  · have before := start.1 cid msg pending
    cases isFirst with
    | true =>
      have unallocated := start.2 rfl msg pending
      unfold SrsCommonMessage.Fits at before ⊢
      rw [unallocated] at before ⊢
      exact before
    | false =>
      have kept : (p.chunkStreams cid).header.payloadLength = length := by
        by_contra different
        exact same ⟨Bool.false_ne_true, different⟩
      rw [kept] at before
      exact before
  · change ((p.setChunk cid ((p.chunkStreams cid).setLength length type)).chunkStreams cid).msg = _ at pending
    rw [SrsProtocol.chunkStreams_setChunk_self] at pending
    exact start.2 first msg pending

/-- A message is made for its first header, and has no payload. -/
theorem createMsg_opening {cid : Nat} {chunk : SrsChunkStream} :
    Triple (fun p : SrsProtocol β => Bounded p ∧ chunk = p.chunkStreams cid) (modifyChunk cid (·.createMsg))
      (fun _ => Opening cid chunk.msg.isNone) Bounded := by
  refine Triple.modify fun p ⟨bounded, known⟩ => ?_
  subst known
  refine ⟨bounded_setChunk bounded fun msg pending => ?_, fun first msg pending => ?_⟩
  · match stored : (p.chunkStreams cid).msg with
    | none =>
      simp only [SrsChunkStream.createMsg, stored, Option.getD_none, Option.some_inj] at pending
      subst pending
      rfl
    | some before =>
      simp only [SrsChunkStream.createMsg, stored, Option.getD_some, Option.some_inj] at pending
      subst pending
      exact bounded cid before stored
  · change ((p.setChunk cid ((p.chunkStreams cid).createMsg)).chunkStreams cid).msg = _ at pending
    rw [SrsProtocol.chunkStreams_setChunk_self, SrsChunkStream.createMsg, Option.isNone_iff_eq_none.mp first] at pending
    cases pending
    rfl

theorem setMsg_bounded {cid : Nat} {msg : Option SrsCommonMessage} {chunk : SrsChunkStream}
    (fits : ∀ stored, msg = some stored → stored.Fits chunk.header.payloadLength) :
    Triple (fun p : SrsProtocol β => Bounded p ∧ (p.chunkStreams cid).header = chunk.header)
      (modifyChunk cid (·.setMsg msg))
      (fun _ p => Bounded p ∧ (p.chunkStreams cid).header = chunk.header) Bounded := by
  refine Triple.modify fun p ⟨bounded, header⟩ => ⟨bounded_setChunk bounded fun stored pending => ?_, ?_⟩
  · have same := fits stored pending
    rw [← header] at same
    exact same
  · change ((p.setChunk cid ((p.chunkStreams cid).setMsg msg)).chunkStreams cid).header = _
    rw [SrsProtocol.chunkStreams_setChunk_self]
    exact header

theorem closeHeader_titled (cid : Nat) (isFirst : Bool) :
    Triple (Opening (β := β) cid isFirst) (modifyChunk cid (·.closeHeader)) (fun _ => Titled cid) Bounded := by
  intro p start
  refine ⟨(modifyChunk_keeps keeps_closeHeader p start).1, fun msg pending => ?_⟩
  change ((p.setChunk cid (p.chunkStreams cid).closeHeader).chunkStreams cid).msg = _ at pending
  change msg.header = ((p.setChunk cid (p.chunkStreams cid).closeHeader).chunkStreams cid).header
  rw [SrsProtocol.chunkStreams_setChunk_self] at pending ⊢
  obtain ⟨before, -, rfl⟩ := Option.map_eq_some_iff.mp pending
  rfl

variable [ByteSource SrsError β]

theorem readSlice_opening (cid n : Nat) (isFirst : Bool) :
    Triple (Opening (β := β) cid isFirst) (readSlice n) (fun _ => Opening cid isFirst) Bounded :=
  onBuffer_keeps (I := fun chunks => (∀ cid, (chunks cid).Fits) ∧
    (isFirst = true → ∀ msg, (chunks cid).msg = some msg → msg.allocated = none)) (fun _ => And.left) _

theorem peekSlice_opening (cid n : Nat) (isFirst : Bool) :
    Triple (Opening (β := β) cid isFirst) (peekSlice n) (fun _ => Opening cid isFirst) Bounded :=
  onBuffer_keeps (I := fun chunks => (∀ cid, (chunks cid).Fits) ∧
    (isFirst = true → ∀ msg, (chunks cid).msg = some msg → msg.allocated = none)) (fun _ => And.left) _

theorem parse_opening (cid fmt : Nat) (isFirst : Bool) :
    Triple (Opening (β := β) cid isFirst) (parseMessageHeader cid fmt isFirst) (fun _ => Opening cid isFirst)
      Bounded := by
  have done : Triple (Opening (β := β) cid isFirst) (pure () : Reading β Unit)
      (fun _ => Opening cid isFirst) Bounded :=
    Triple.pure fun _ start => start
  unfold parseMessageHeader
  refine Triple.ite (fun _ => ?_) fun _ => ?_
  · refine Triple.bind (readSlice_opening cid _ isFirst) fun slice => ?_
    refine Triple.bind (modifyChunk_keeps (keeps_setTimestamp _ _)) fun _ => ?_
    refine Triple.ite (fun _ => ?_) fun _ => done
    refine Triple.bind (getChunk_knows cid) fun chunk => ?_
    refine Triple.ite (fun _ => Triple.throw fun _ start => start.1.1) fun same => ?_
    refine Triple.bind (setLength_opening same) fun _ => ?_
    exact Triple.ite (fun _ => modifyChunk_keeps (keeps_setStreamId _)) fun _ => done
  · refine Triple.bind (getChunk_knows cid) fun chunk => ?_
    refine Triple.ite (fun _ => ?_) fun _ => Triple.pure fun _ start => start.1
    exact (modifyChunk_keeps keeps_addDelta).conseq (fun _ => And.left) (fun _ _ => id) fun _ => id

theorem readExtendedTimestamp_opening (cid : Nat) (isFirst : Bool) :
    Triple (Opening (β := β) cid isFirst) (readExtendedTimestamp cid isFirst) (fun _ => Opening cid isFirst)
      Bounded := by
  have done : Triple (Opening (β := β) cid isFirst) (pure () : Reading β Unit)
      (fun _ => Opening cid isFirst) Bounded :=
    Triple.pure fun _ start => start
  unfold readExtendedTimestamp
  refine Triple.bind ((getChunk_knows cid).conseq (fun _ => id) (fun _ _ => And.left) fun _ => id) fun chunk => ?_
  refine Triple.ite (fun _ => ?_) fun _ => done
  refine Triple.bind (peekSlice_opening cid _ isFirst) fun slice => ?_
  refine Triple.ite (fun _ => done) fun _ => ?_
  refine Triple.bind (readSlice_opening cid _ isFirst) fun _ => ?_
  exact modifyChunk_keeps (keeps_setExtended _)

theorem readMessageHeader_bounded (cid fmt : Nat) :
    Triple (Bounded (β := β)) (readMessageHeader cid fmt) (fun _ => Titled cid) Bounded := by
  unfold readMessageHeader
  refine Triple.bind (getChunk_knows cid) fun chunk => ?_
  refine Triple.ite (fun _ => Triple.throw fun _ => And.left) fun _ => ?_
  refine Triple.ite (fun _ => Triple.throw fun _ => And.left) fun _ => ?_
  refine Triple.bind createMsg_opening fun _ => ?_
  refine Triple.bind (parse_opening cid fmt _) fun _ => ?_
  refine Triple.bind (readExtendedTimestamp_opening cid _) fun _ => ?_
  exact closeHeader_titled cid _

/-- A slice is as long as it was asked to be. -/
def Exact (β : Type) [ByteSource SrsError β] : Prop :=
  ∀ n (b b' : β) bytes, (ByteSource.read n).run b = .ok bytes b' → bytes.length = n

theorem readSlice_length (exact_ : Exact β) {header : SrsMessageHeader} (cid n : Nat) :
    Triple (fun p : SrsProtocol β => Bounded p ∧ (p.chunkStreams cid).header = header) (readSlice n)
      (fun slice p => slice.length = n ∧ Bounded p ∧ (p.chunkStreams cid).header = header) Bounded := by
  intro p start
  have length := exact_ n p.inBuffer
  simp only [readSlice, onBuffer, EStateM.run] at length ⊢
  cases result : ByteSource.read n p.inBuffer with
  | ok bytes b => exact ⟨length b bytes result, start⟩
  | error e b => exact start.1

/-- With exactly the bytes it asked for, the reader stays within the payload it allocated. -/
theorem readMessagePayload_bounded (exact_ : Exact β) (cid : Nat) :
    Triple (Titled (β := β) cid) (readMessagePayload cid)
      (fun received p => Bounded p ∧ ∀ msg, received = some msg → msg.Whole) Bounded := by
  unfold readMessagePayload
  refine Triple.bind (getChunk_knows cid) fun chunk => ?_
  match stored : chunk.msg with
  | none => exact Triple.pure fun p start => ⟨start.1.1, nofun⟩
  | some msg =>
    refine Triple.have_pre (F := msg.Fits chunk.header.payloadLength)
      (fun p ⟨titled, known⟩ => known ▸ titled.1 cid msg (known ▸ stored)) fun fits => ?_
    refine Triple.have_pre (F := msg.header = chunk.header)
      (fun p ⟨titled, known⟩ => known ▸ titled.2 msg (known ▸ stored)) fun header => ?_
    have finish : ∀ whole : SrsCommonMessage, whole.Whole →
        Triple (fun p : SrsProtocol β => Bounded p ∧ (p.chunkStreams cid).header = chunk.header)
          (do modifyChunk cid (·.setMsg none); return some whole)
          (fun received p => Bounded p ∧ ∀ msg, received = some msg → msg.Whole) Bounded := fun whole holds =>
      Triple.bind (setMsg_bounded nofun) fun _ =>
        Triple.pure fun p start => ⟨start.1, fun msg same => Option.some.inj same ▸ holds⟩
    refine Triple.ite (fun empty => ?_) fun some_left => ?_
    · refine (finish msg ?_).conseq (fun p ⟨titled, known⟩ => ⟨titled.1, known ▸ rfl⟩) (fun _ _ => id) fun _ => id
      unfold SrsCommonMessage.Fits at fits
      unfold SrsCommonMessage.Whole
      rw [header, empty]
      split at fits
      next none => rw [fits, none]; exact ⟨rfl, rfl⟩
      next n _ => omega
    · have allocated : msg.allocated.getD chunk.header.payloadLength = chunk.header.payloadLength := by
        unfold SrsCommonMessage.Fits at fits
        split at fits
        next none => rw [none]; rfl
        next n is_n => rw [is_n]; exact fits.1
      have size : msg.size < chunk.header.payloadLength := by
        unfold SrsCommonMessage.Fits at fits
        unfold SrsCommonMessage.size
        split at fits
        next => rw [fits, List.length_nil]; omega
        next => omega
      rw [allocated]
      refine Triple.bind (R := fun amount p => (Bounded p ∧ (p.chunkStreams cid).header = chunk.header) ∧
        amount = p.inChunkSize) (fun p ⟨titled, known⟩ => ⟨⟨titled.1, known ▸ rfl⟩, rfl⟩) fun chunkSize => ?_
      refine Triple.bind ((setMsg_bounded fun other same => ?_).conseq (fun _ => And.left) (fun _ _ => id)
        fun _ => id) fun _ => ?_
      · cases same
        exact ⟨rfl, size⟩
      refine Triple.bind (readSlice_length exact_ cid _) fun slice => ?_
      refine Triple.have_pre (fun _ => And.left) fun length => ?_
      have total : (msg.payload ++ slice).length = msg.size + min (chunk.header.payloadLength - msg.size) chunkSize := by
        rw [List.length_append, length]
        rfl
      refine Triple.ite (fun complete => ?_) fun more => ?_
      · have announced : (msg.payload ++ slice).length = msg.header.payloadLength := by
          rw [header]
          exact complete.symm
        exact (finish _ ⟨announced, complete.symm⟩).conseq (fun _ => And.right) (fun _ _ => id) fun _ => id
      · refine Triple.bind ((setMsg_bounded fun other same => ?_).conseq (fun _ => And.right) (fun _ _ => id)
          fun _ => id) fun _ => Triple.pure fun p start => ⟨start.1, nofun⟩
        cases same
        have some_more : ¬ chunk.header.payloadLength = (msg.payload ++ slice).length := more
        refine ⟨rfl, ?_⟩
        change (msg.payload ++ slice).length < _
        omega

theorem recvMessageTurn_bounded (exact_ : Exact β) :
    Triple (Bounded (β := β)) recvMessageTurn (fun received p => Bounded p ∧ ∀ msg, received = some msg → msg.Whole)
      Bounded := by
  have header : Triple (Bounded (β := β)) readBasicHeader (fun _ => Bounded) Bounded := by
    have slice : ∀ n, Triple (Bounded (β := β)) (readSlice n) (fun _ => Bounded) Bounded := fun n =>
      onBuffer_keeps (I := fun chunks => ∀ cid, (chunks cid).Fits) (fun _ => id) _
    have byte : Triple (Bounded (β := β)) read1Byte (fun _ => Bounded) Bounded :=
      Triple.bind (slice 1) fun _ => Triple.pure fun _ => id
    unfold readBasicHeader
    refine Triple.bind byte fun first => ?_
    refine Triple.ite (fun _ => Triple.pure fun _ => id) fun _ => ?_
    refine Triple.ite (fun _ => ?_) fun _ => ?_
    · exact Triple.bind byte fun _ => Triple.pure fun _ => id
    · exact Triple.bind (slice 2) fun _ => Triple.pure fun _ => id
  have interlaced : Triple (Bounded (β := β)) recvInterlacedMessage
      (fun received p => Bounded p ∧ ∀ msg, received = some msg → msg.Whole) Bounded :=
    Triple.bind header fun basic => Triple.bind (readMessageHeader_bounded _ _) fun _ =>
      readMessagePayload_bounded exact_ _
  unfold recvMessageTurn
  refine Triple.bind interlaced fun received => ?_
  match received with
  | none => exact Triple.pure fun p start => ⟨start.1, nofun⟩
  | some msg =>
    refine Triple.ite (fun _ => Triple.pure fun p start => ⟨start.1, nofun⟩) fun _ => ?_
    refine Triple.bind (R := fun _ p => Bounded p ∧ msg.Whole) ?_ fun _ =>
      Triple.pure fun p start => ⟨start.1, fun other same => Option.some.inj same ▸ start.2⟩
    intro p start
    have whole : msg.Whole := start.2 msg rfl
    simp only [onRecvMessage, EStateM.run]
    split
    · exact start.1
    · split
      · exact start.1
      · exact ⟨start.1, whole⟩

end Bounds

/-- What happens to a reader: the socket gets more bytes, and its caller has it read on whatever came of the
reads before. -/
inductive ReaderEvent
  | arrive (piece : List UInt8)
  | turn

/-- A reader with the messages it has handed out. -/
structure Reader where
  protocol : SrsProtocol SrsFastBuffer
  handedOut : List SrsCommonMessage := []

def Reader.step (reader : Reader) : ReaderEvent → Option Reader
  | .arrive piece =>
    let inBuffer := reader.protocol.inBuffer
    some { reader with protocol.inBuffer := { inBuffer with pieces := inBuffer.pieces ++ [piece] } }
  | .turn =>
    match recvMessageTurn.run reader.protocol with
    | .ok received protocol => some { protocol, handedOut := reader.handedOut ++ received.toList }
    | .error _ protocol => some { reader with protocol }

/-- Nothing is copied past the end of a payload: a message under way has fewer bytes than are allocated for it,
and one that is handed out has exactly as many, which are as many as its header announces. -/
def Reader.InBounds (reader : Reader) : Prop :=
  Bounded reader.protocol ∧ ∀ msg ∈ reader.handedOut, msg.Whole

theorem fill_enough {required : Nat} {free : Nat} {held : List UInt8} {pieces : List (List UInt8)}
    (filled : (SrsFastBuffer.fill required free held pieces).2.2 = none) :
    required ≤ (SrsFastBuffer.fill required free held pieces).1.length := by
  induction pieces generalizing free held with
  | nil =>
    simp only [SrsFastBuffer.fill] at filled ⊢
    split at filled
    next enough => rwa [if_pos enough]
    next => cases filled
  | cons piece pieces ih =>
    simp only [SrsFastBuffer.fill] at filled ⊢
    split_ifs at filled ⊢ with enough fits room
    · exact enough
    · exact ih filled
    · rw [List.length_append, List.length_take]
      omega

theorem exact_fastBuffer : Exact SrsFastBuffer := by
  intro n b b' bytes delivered
  have held : ∀ grown, (SrsFastBuffer.grow n).run b = .ok () grown → n ≤ grown.held.length := by
    intro grown result
    simp only [SrsFastBuffer.grow, EStateM.run] at result
    split_ifs at result with enough room
    · cases result
      exact enough
    · split at result
      next filled =>
        cases result
        exact fill_enough filled
      next => cases result
  simp only [ByteSource.read] at delivered
  cases result : (SrsFastBuffer.grow n).run b with
  | ok _ grown =>
    rw [bind_ok result] at delivered
    cases delivered
    rw [List.length_take, Nat.min_eq_left (held grown result)]
  | error e stuck =>
    rw [bind_error result] at delivered
    cases delivered

theorem Reader.step_inBounds {reader next : Reader} {event : ReaderEvent} (inBounds : reader.InBounds)
    (taken : reader.step event = some next) : next.InBounds := by
  cases event with
  | arrive piece =>
    cases taken
    exact inBounds
  | turn =>
    have ends := recvMessageTurn_bounded exact_fastBuffer reader.protocol inBounds.1
    simp only [Reader.step] at taken
    split at taken
    next received protocol result =>
      cases taken
      rw [result] at ends
      refine ⟨ends.1, fun msg member => ?_⟩
      rcases List.mem_append.mp member with before | new
      · exact inBounds.2 msg before
      · exact ends.2 msg (Option.mem_toList.mp new)
    next e protocol result =>
      cases taken
      rw [result] at ends
      exact ⟨ends, inBounds.2⟩

/-- Whatever bytes a peer sends, in whatever pieces, whatever becomes of what the reader sends back, and however
often the caller goes on after a failure, payloads are never overrun and only complete ones are handed out. -/
theorem reader_stays_inBounds (events : List ReaderEvent) (responses : List Responses)
    (pieces : List (List UInt8)) :
    Throughout Reader.step Reader.InBounds { protocol := { inBuffer := { pieces }, responses } } events :=
  throughout_of_invariant (fun _ _ _ inBounds (_ : True) taken => Reader.step_inBounds inBounds taken) (fun _ => id)
    ⟨fun _ _ pending => (nomatch pending), nofun⟩ Steps.any

end AdTerminal.Rtmp
