import AdTerminal.Rtmp.Reading

/-! The buffer between the reader and its socket. However the socket cuts the bytes of a peer into
pieces, the reader gets the same messages, while the chunks are no larger than half the buffer. -/

namespace AdTerminal.Rtmp

open Simulation

def defaultRecvBufferSize : Nat := 131072

/-- `start` is where the bytes held begin in the buffer, and `pieces` what the reads of the socket will
return, as far as the buffer has room for them. -/
structure SrsFastBuffer where
  nbBuffer : Nat := defaultRecvBufferSize
  start : Nat := 0
  held : List UInt8 := []
  pieces : List (List UInt8)
  deriving DecidableEq, Repr

namespace SrsFastBuffer

/-- The loop of `grow`: the bytes held, the pieces left, and what stopped it. -/
def fill (required : Nat) : Nat → List UInt8 → List (List UInt8) → List UInt8 × List (List UInt8) × Option SrsError
  | _, held, [] => if required ≤ held.length then (held, [], none) else (held, [], some .socketRead)
  | nbFreeSpace, held, piece :: pieces =>
    if required ≤ held.length then (held, piece :: pieces, none)
    else if piece.length ≤ nbFreeSpace then fill required (nbFreeSpace - piece.length) (held ++ piece) pieces
    else if required ≤ held.length + nbFreeSpace then
      (held ++ piece.take nbFreeSpace, piece.drop nbFreeSpace :: pieces, none)
    -- a read into no space
    else (held ++ piece.take nbFreeSpace, piece.drop nbFreeSpace :: pieces, some .readerBufferOverflow)

def nbFreeSpace (b : SrsFastBuffer) : Nat :=
  b.nbBuffer - (b.start + b.held.length)

/-- Where too little space is left behind the bytes held, they are moved to the front. -/
def makeRoom (required : Nat) (b : SrsFastBuffer) : SrsFastBuffer :=
  if b.nbFreeSpace < required then { b with start := 0 } else b

def grow (required : Nat) : EStateM SrsError SrsFastBuffer Unit := fun b =>
  if required ≤ b.held.length then .ok () b
  else
    let b := b.makeRoom required
    if b.nbFreeSpace < required then .error .readerBufferOverflow b
    else
      let (held, pieces, stopped) := fill required b.nbFreeSpace b.held b.pieces
      match stopped with
      | none => .ok () { b with held, pieces }
      | some e => .error e { b with held, pieces }

instance : ByteSource SrsError SrsFastBuffer where
  read n := do
    grow n
    let b ← get
    set { b with start := b.start + n, held := b.held.drop n }
    return b.held.take n
  peek n := do
    grow n
    return (← get).held.take n

/-- All the bytes that are still to be read. -/
def unread (b : SrsFastBuffer) : List UInt8 :=
  b.held ++ b.pieces.flatten

theorem fill_spec (required : Nat) (pieces : List (List UInt8)) (free : Nat) (held : List UInt8)
    (room : required ≤ held.length + free) :
    let filled := fill required free held pieces
    filled.1 ++ filled.2.1.flatten = held ++ pieces.flatten ∧ filled.1.length ≤ held.length + free ∧
      (required ≤ (held ++ pieces.flatten).length → filled.2.2 = none ∧ required ≤ filled.1.length) ∧
      ((held ++ pieces.flatten).length < required → filled.2.2 = some .socketRead) := by
  induction pieces generalizing free held with
  | nil =>
    simp only [fill, List.flatten_nil, List.append_nil]
    split
    next enough => exact ⟨List.append_nil held, Nat.le_add_right .., fun _ => ⟨rfl, enough⟩, fun short => by omega⟩
    next few => exact ⟨List.append_nil held, Nat.le_add_right .., fun long => absurd long few, fun _ => rfl⟩
  | cons piece pieces ih =>
    simp only [fill]
    by_cases enough : required ≤ held.length
    · rw [if_pos enough]
      exact ⟨rfl, Nat.le_add_right .., fun _ => ⟨rfl, enough⟩, fun short => by
        rw [List.length_append] at short
        omega⟩
    rw [if_neg enough]
    by_cases fits : piece.length ≤ free
    · have later := ih (free - piece.length) (held ++ piece) (by rw [List.length_append]; omega)
      rw [if_pos fits]
      simp only [List.append_assoc, List.flatten_cons] at later ⊢
      refine ⟨later.1, ?_, later.2.2⟩
      have most := later.2.1
      rw [List.length_append] at most
      omega
    · rw [if_neg fits, if_pos room]
      have taken : (piece.take free).length = free := by
        rw [List.length_take, Nat.min_eq_left (by omega)]
      refine ⟨?_, ?_, fun _ => ⟨rfl, ?_⟩, fun short => ?_⟩
      · simp only [List.flatten_cons, List.append_assoc]
        rw [← List.append_assoc (piece.take free), List.take_append_drop]
      · rw [List.length_append, taken]
      · rw [List.length_append, taken]
        exact room
      · simp only [List.flatten_cons, List.length_append] at short
        omega

/-- The bytes held lie in the buffer. -/
def InPlace (b : SrsFastBuffer) : Prop :=
  b.nbBuffer = defaultRecvBufferSize ∧ b.start + b.held.length ≤ b.nbBuffer

/-- A request for no more than half the buffer is met as far as the bytes last. -/
theorem grow_spec {required : Nat} {b : SrsFastBuffer} (inPlace : b.InPlace)
    (half : 2 * required ≤ defaultRecvBufferSize) :
    (required ≤ b.unread.length → ∃ b', (grow required).run b = .ok () b' ∧ b'.InPlace ∧ b'.unread = b.unread ∧
      required ≤ b'.held.length) ∧
    (b.unread.length < required → ∃ b', (grow required).run b = .error .socketRead b' ∧ b'.InPlace ∧
      b'.unread = b.unread) := by
  obtain ⟨size, within⟩ := inPlace
  by_cases enough : required ≤ b.held.length
  · refine ⟨fun _ => ⟨b, ?_, ⟨size, within⟩, rfl, enough⟩, fun short => ?_⟩
    · simp only [grow, EStateM.run, if_pos enough]
    · rw [unread, List.length_append] at short
      omega
  have roomy : (b.makeRoom required).nbBuffer = b.nbBuffer ∧ (b.makeRoom required).held = b.held ∧
      (b.makeRoom required).pieces = b.pieces ∧
      (b.makeRoom required).start + b.held.length ≤ b.nbBuffer ∧ required ≤ (b.makeRoom required).nbFreeSpace := by
    unfold makeRoom
    split
    · refine ⟨rfl, rfl, rfl, ?_, ?_⟩
      · change 0 + b.held.length ≤ b.nbBuffer
        omega
      · change required ≤ b.nbBuffer - (0 + b.held.length)
        omega
    · exact ⟨rfl, rfl, rfl, within, by omega⟩
  obtain ⟨sameSize, sameHeld, samePieces, place, room⟩ := roomy
  have free : (b.makeRoom required).nbFreeSpace = b.nbBuffer - ((b.makeRoom required).start + b.held.length) := by
    rw [nbFreeSpace, sameSize, sameHeld]
  obtain ⟨same, most, long, short⟩ := fill_spec required b.pieces (b.makeRoom required).nbFreeSpace b.held (by omega)
  have run : (grow required).run b =
      match (fill required (b.makeRoom required).nbFreeSpace b.held b.pieces).2.2 with
      | none => .ok () { b.makeRoom required with
          held := (fill required (b.makeRoom required).nbFreeSpace b.held b.pieces).1
          pieces := (fill required (b.makeRoom required).nbFreeSpace b.held b.pieces).2.1 }
      | some e => .error e { b.makeRoom required with
          held := (fill required (b.makeRoom required).nbFreeSpace b.held b.pieces).1
          pieces := (fill required (b.makeRoom required).nbFreeSpace b.held b.pieces).2.1 } := by
    simp only [grow, EStateM.run, if_neg enough, if_neg (Nat.not_lt.mpr room), sameHeld, samePieces]
  have kept : (b.makeRoom required).start +
      (fill required (b.makeRoom required).nbFreeSpace b.held b.pieces).1.length ≤ (b.makeRoom required).nbBuffer := by
    omega
  refine ⟨fun lasts => ?_, fun ends => ?_⟩
  · obtain ⟨stopped, filled⟩ := long lasts
    rw [run, stopped]
    exact ⟨_, rfl, ⟨sameSize.trans size, kept⟩, same, filled⟩
  · rw [run, short ends]
    exact ⟨_, rfl, ⟨sameSize.trans size, kept⟩, same⟩

end SrsFastBuffer

/-- The buffer holds and will get these bytes. -/
def Carries (b : SrsFastBuffer) (wire : Wire) : Prop :=
  b.InPlace ∧ b.unread = wire.bytes

/-- The buffered reader and one without a buffer know the same, and ask for no more than half the buffer. -/
structure Same (p : SrsProtocol SrsFastBuffer) (q : SrsProtocol Wire) : Prop where
  carries : Carries p.inBuffer q.inBuffer
  inChunkSize : p.inChunkSize = q.inChunkSize
  chunkStreams : p.chunkStreams = q.chunkStreams
  responses : p.responses = q.responses

/-- While the chunks have this size. -/
def Halved (chunkSize : Nat) (p : SrsProtocol SrsFastBuffer) (q : SrsProtocol Wire) : Prop :=
  Same p q ∧ q.inChunkSize = chunkSize ∧ 2 * chunkSize ≤ defaultRecvBufferSize

section Sims

variable {chunkSize : Nat}

theorem read_sim {n : Nat} (half : 2 * n ≤ defaultRecvBufferSize) :
    Sim Carries (ByteSource.read n : EStateM SrsError SrsFastBuffer _) (ByteSource.read n) := by
  intro b wire ⟨inPlace, unread⟩
  obtain ⟨long, short⟩ := SrsFastBuffer.grow_spec inPlace half
  by_cases enough : n ≤ wire.bytes.length
  · obtain ⟨b', grown, inPlace', same, held⟩ := long (unread ▸ enough)
    have left : (ByteSource.read n : EStateM SrsError SrsFastBuffer (List UInt8)).run b =
        .ok (b'.held.take n) { b' with start := b'.start + n, held := b'.held.drop n } := by
      simp only [ByteSource.read]
      rw [bind_ok grown]
      rfl
    have right : (ByteSource.read n : EStateM SrsError Wire (List UInt8)).run wire =
        .ok (wire.bytes.take n) ⟨wire.bytes.drop n⟩ := by
      simp only [ByteSource.read, EStateM.run, if_pos enough]
    have bytes : wire.bytes = b'.held ++ b'.pieces.flatten := unread.symm.trans same.symm
    rw [left, right, bytes]
    refine ⟨(List.take_append_of_le_length held).symm, ⟨inPlace'.1, ?_⟩, ?_⟩
    · have within := inPlace'.2
      change b'.start + n + (b'.held.drop n).length ≤ b'.nbBuffer
      rw [List.length_drop]
      omega
    · exact (List.drop_append_of_le_length held).symm
  · obtain ⟨b', stuck, inPlace', same⟩ := short (unread ▸ Nat.lt_of_not_le enough)
    have left : (ByteSource.read n : EStateM SrsError SrsFastBuffer (List UInt8)).run b = .error .socketRead b' := by
      simp only [ByteSource.read]
      exact bind_error stuck
    have right : (ByteSource.read n : EStateM SrsError Wire (List UInt8)).run wire = .error .socketRead wire := by
      simp only [ByteSource.read, EStateM.run, if_neg enough]
    rw [left, right]
    exact ⟨rfl, inPlace', same.trans unread⟩

theorem peek_sim {n : Nat} (half : 2 * n ≤ defaultRecvBufferSize) :
    Sim Carries (ByteSource.peek n : EStateM SrsError SrsFastBuffer _) (ByteSource.peek n) := by
  intro b wire ⟨inPlace, unread⟩
  obtain ⟨long, short⟩ := SrsFastBuffer.grow_spec inPlace half
  by_cases enough : n ≤ wire.bytes.length
  · obtain ⟨b', grown, inPlace', same, held⟩ := long (unread ▸ enough)
    have left : (ByteSource.peek n : EStateM SrsError SrsFastBuffer (List UInt8)).run b = .ok (b'.held.take n) b' := by
      simp only [ByteSource.peek]
      rw [bind_ok grown]
      rfl
    have right : (ByteSource.peek n : EStateM SrsError Wire (List UInt8)).run wire = .ok (wire.bytes.take n) wire := by
      simp only [ByteSource.peek, EStateM.run, if_pos enough]
    have bytes : wire.bytes = b'.held ++ b'.pieces.flatten := unread.symm.trans same.symm
    rw [left, right]
    refine ⟨?_, inPlace', same.trans unread⟩
    rw [bytes, List.take_append_of_le_length held]
  · obtain ⟨b', stuck, inPlace', same⟩ := short (unread ▸ Nat.lt_of_not_le enough)
    have left : (ByteSource.peek n : EStateM SrsError SrsFastBuffer (List UInt8)).run b = .error .socketRead b' := by
      simp only [ByteSource.peek]
      exact bind_error stuck
    have right : (ByteSource.peek n : EStateM SrsError Wire (List UInt8)).run wire = .error .socketRead wire := by
      simp only [ByteSource.peek, EStateM.run, if_neg enough]
    rw [left, right]
    exact ⟨rfl, inPlace', same.trans unread⟩

/-- A call that two buffers do not tell apart is no different for the readers on them. -/
theorem onBuffer_sim {α : Type} {x : EStateM SrsError SrsFastBuffer α} {y : EStateM SrsError Wire α}
    (sim : Sim Carries x y) : Sim (Halved chunkSize) (onBuffer x) (onBuffer y) := by
  intro p q ⟨same, half⟩
  have agree := sim p.inBuffer q.inBuffer same.carries
  simp only [onBuffer, EStateM.run] at agree ⊢
  cases left : x p.inBuffer with
  | ok a b =>
    cases right : y q.inBuffer with
    | ok a' wire =>
      rw [left, right] at agree
      exact ⟨agree.1, ⟨agree.2, same.inChunkSize, same.chunkStreams, same.responses⟩, half⟩
    | error e wire =>
      rw [left, right] at agree
      exact agree.elim
  | error e b =>
    cases right : y q.inBuffer with
    | ok a wire =>
      rw [left, right] at agree
      exact agree.elim
    | error e' wire =>
      rw [left, right] at agree
      exact ⟨agree.1, ⟨agree.2, same.inChunkSize, same.chunkStreams, same.responses⟩, half⟩

theorem readSlice_sim {n : Nat} (half : 2 * n ≤ defaultRecvBufferSize) :
    Sim (Halved chunkSize) (readSlice n) (readSlice n) :=
  onBuffer_sim (read_sim half)

theorem peekSlice_sim {n : Nat} (half : 2 * n ≤ defaultRecvBufferSize) :
    Sim (Halved chunkSize) (peekSlice n) (peekSlice n) :=
  onBuffer_sim (peek_sim half)

theorem getChunk_sim (cid : Nat) : Sim (Halved chunkSize) (getChunk cid) (getChunk cid) :=
  Sim.get fun _ _ related => congrFun related.1.chunkStreams cid

theorem modifyChunk_sim (cid : Nat) (f : SrsChunkStream → SrsChunkStream) :
    Sim (Halved chunkSize) (modifyChunk cid f) (modifyChunk cid f) := by
  refine Sim.modify fun p q related => ⟨⟨related.1.carries, related.1.inChunkSize, ?_, related.1.responses⟩, related.2⟩
  change Function.update p.chunkStreams cid _ = Function.update q.chunkStreams cid _
  rw [related.1.chunkStreams]

theorem read1Byte_sim : Sim (Halved chunkSize) read1Byte read1Byte :=
  Sim.bind (readSlice_sim (by decide)) fun slice => Sim.pure _

theorem readBasicHeader_sim : Sim (Halved chunkSize) readBasicHeader readBasicHeader := by
  unfold readBasicHeader
  refine Sim.bind read1Byte_sim fun first => Sim.ite (fun _ => Sim.pure _) fun _ => ?_
  refine Sim.ite (fun _ => Sim.bind read1Byte_sim fun _ => Sim.pure _) fun _ => ?_
  exact Sim.bind (readSlice_sim (by decide)) fun _ => Sim.pure _

theorem mhSizes_half (fmt : Nat) : 2 * mhSizes fmt ≤ defaultRecvBufferSize := by
  unfold mhSizes defaultRecvBufferSize
  split_ifs <;> omega

theorem readMessageHeader_sim (cid fmt : Nat) :
    Sim (Halved chunkSize) (readMessageHeader cid fmt) (readMessageHeader cid fmt) := by
  have parse : ∀ isFirst,
      Sim (Halved chunkSize) (parseMessageHeader cid fmt isFirst) (parseMessageHeader cid fmt isFirst) := by
    intro isFirst
    unfold parseMessageHeader
    refine Sim.ite (fun _ => ?_) fun _ => ?_
    · refine Sim.bind (readSlice_sim (mhSizes_half fmt)) fun slice => Sim.bind (modifyChunk_sim cid _) fun _ => ?_
      refine Sim.ite (fun _ => Sim.bind (getChunk_sim cid) fun chunk => ?_) fun _ => Sim.pure _
      refine Sim.ite (fun _ => Sim.throw _) fun _ => Sim.bind (modifyChunk_sim cid _) fun _ => ?_
      exact Sim.ite (fun _ => modifyChunk_sim cid _) fun _ => Sim.pure _
    · refine Sim.bind (getChunk_sim cid) fun chunk => ?_
      exact Sim.ite (fun _ => modifyChunk_sim cid _) fun _ => Sim.pure _
  have extended : ∀ isFirst,
      Sim (Halved chunkSize) (readExtendedTimestamp cid isFirst) (readExtendedTimestamp cid isFirst) := by
    intro isFirst
    unfold readExtendedTimestamp
    refine Sim.bind (getChunk_sim cid) fun chunk => Sim.ite (fun _ => ?_) fun _ => Sim.pure _
    refine Sim.bind (peekSlice_sim (by decide)) fun slice => Sim.ite (fun _ => Sim.pure _) fun _ => ?_
    exact Sim.bind (readSlice_sim (by decide)) fun _ => modifyChunk_sim cid _
  unfold readMessageHeader
  refine Sim.bind (getChunk_sim cid) fun chunk => Sim.ite (fun _ => Sim.throw _) fun _ => ?_
  refine Sim.ite (fun _ => Sim.throw _) fun _ => Sim.bind (modifyChunk_sim cid _) fun _ => ?_
  exact Sim.bind (parse _) fun _ => Sim.bind (extended _) fun _ => modifyChunk_sim cid _

theorem readMessagePayload_sim (cid : Nat) : Sim (Halved chunkSize) (readMessagePayload cid) (readMessagePayload cid) := by
  unfold readMessagePayload
  refine Sim.bind (getChunk_sim cid) fun chunk => ?_
  match chunk.msg with
  | none => exact Sim.pure _
  | some msg =>
    refine Sim.ite (fun _ => Sim.bind (modifyChunk_sim cid _) fun _ => Sim.pure _) fun _ => ?_
    refine Sim.bind_get (F := fun amount => 2 * amount ≤ defaultRecvBufferSize)
      (fun _ _ related => ⟨related.1.inChunkSize, related.2.1 ▸ related.2.2⟩) fun amount half => ?_
    refine Sim.bind (modifyChunk_sim cid _) fun _ => Sim.bind (readSlice_sim ?_) fun slice => ?_
    · exact le_trans (Nat.mul_le_mul_left 2 (Nat.min_le_right ..)) half
    · refine Sim.ite (fun _ => Sim.bind (modifyChunk_sim cid _) fun _ => Sim.pure _) fun _ => ?_
      exact Sim.bind (modifyChunk_sim cid _) fun _ => Sim.pure _

theorem recvInterlacedMessage_sim : Sim (Halved chunkSize) recvInterlacedMessage recvInterlacedMessage :=
  Sim.bind readBasicHeader_sim fun _ => Sim.bind (readMessageHeader_sim _ _) fun _ => readMessagePayload_sim _

end Sims

/-- The chunks after a turn have the size that its message, if there is one, may announce. -/
def SizeAfter (chunkSize : Nat) (received : Option SrsCommonMessage) (q : SrsProtocol Wire) : Prop :=
  match received with
  | none => q.inChunkSize = chunkSize
  | some msg => ∃ response, controlChunkSize response msg.header.messageType msg.payload chunkSize = .ok q.inChunkSize

theorem onRecvMessage_sim {chunkSize : Nat} (msg : SrsCommonMessage) {p : SrsProtocol SrsFastBuffer}
    {q : SrsProtocol Wire} (same : Same p q) (size : q.inChunkSize = chunkSize) :
    (∃ p' q', (onRecvMessage msg).run p = .ok () p' ∧ (onRecvMessage msg).run q = .ok () q' ∧ Same p' q' ∧
      SizeAfter chunkSize (some msg) q') ∨
    (∃ e p' q', (onRecvMessage msg).run p = .error e p' ∧ (onRecvMessage msg).run q = .error e q') := by
  have equal : p.inChunkSize = chunkSize := same.inChunkSize.trans size
  set left := q.responses.tail
  match acknowledged : (q.responses.headD {}).acknowledgement,
      result : controlChunkSize (q.responses.headD {}).ping msg.header.messageType msg.payload chunkSize with
  | .error e, _ =>
    refine .inr ⟨e, { p with responses := left }, { q with responses := left }, ?_, ?_⟩
    · simp only [onRecvMessage, EStateM.run, same.responses, acknowledged, left]
    · simp only [onRecvMessage, EStateM.run, acknowledged, left]
  | .ok (), .ok next =>
    refine .inl ⟨{ p with inChunkSize := next, responses := left }, { q with inChunkSize := next, responses := left },
      ?_, ?_, ⟨same.carries, rfl, same.chunkStreams, rfl⟩, _, result⟩
    · simp only [onRecvMessage, EStateM.run, same.responses, acknowledged, equal, result, left]
    · simp only [onRecvMessage, EStateM.run, acknowledged, size, result, left]
  | .ok (), .error e =>
    refine .inr ⟨e, { p with responses := left }, { q with responses := left }, ?_, ?_⟩
    · simp only [onRecvMessage, EStateM.run, same.responses, acknowledged, equal, result, left]
    · simp only [onRecvMessage, EStateM.run, acknowledged, size, result, left]

/-- A turn ends the same with the buffer as without. -/
theorem recvMessageTurn_sim {chunkSize : Nat} {p : SrsProtocol SrsFastBuffer} {q : SrsProtocol Wire}
    (related : Halved chunkSize p q) :
    (∃ received p' q', recvMessageTurn.run p = .ok received p' ∧ recvMessageTurn.run q = .ok received q' ∧
      Same p' q' ∧ SizeAfter chunkSize received q') ∨
    (∃ e p' q', recvMessageTurn.run p = .error e p' ∧ recvMessageTurn.run q = .error e q') := by
  have agree := recvInterlacedMessage_sim p q related
  unfold recvMessageTurn
  match left : recvInterlacedMessage.run p, right : recvInterlacedMessage.run q with
  | .error e p', .error e' q' =>
    rw [left, right] at agree
    obtain ⟨rfl, -⟩ := agree
    exact .inr ⟨e, p', q', bind_error left, bind_error right⟩
  | .ok received p', .ok received' q' =>
    rw [left, right] at agree
    obtain ⟨rfl, same, size, -⟩ := agree
    rw [bind_ok left, bind_ok right]
    match received with
    | none => exact .inl ⟨none, p', q', rfl, rfl, same, size⟩
    | some msg =>
      dsimp only
      split
      · exact .inl ⟨none, p', q', rfl, rfl, same, size⟩
      · rcases onRecvMessage_sim msg same size with ⟨p'', q'', first, second, same', size'⟩ | ⟨e, p'', q'', first, second⟩
        · exact .inl ⟨some msg, p'', q'', bind_ok first, bind_ok second, same', size'⟩
        · exact .inr ⟨e, p'', q'', bind_error first, bind_error second⟩
  | .ok _ _, .error _ _ =>
    rw [left, right] at agree
    exact agree.elim
  | .error _ _, .ok _ _ =>
    rw [left, right] at agree
    exact agree.elim

/-- A call of `recv_message` ends the same with the buffer as without. -/
theorem recvMessage_sim {chunkSize : Nat} (fuel : Nat) {p : SrsProtocol SrsFastBuffer} {q : SrsProtocol Wire}
    (related : Halved chunkSize p q) :
    (∃ received p' q', (recvMessage fuel).run p = .ok received p' ∧ (recvMessage fuel).run q = .ok received q' ∧
      Same p' q' ∧ SizeAfter chunkSize received q') ∨
    (∃ e p' q', (recvMessage fuel).run p = .error e p' ∧ (recvMessage fuel).run q = .error e q') := by
  induction fuel generalizing p q with
  | zero => exact .inl ⟨none, p, q, rfl, rfl, related.1, related.2.1⟩
  | succ fuel ih =>
    unfold recvMessage
    rcases recvMessageTurn_sim related with ⟨received, p', q', first, second, same, size⟩ | ⟨e, p', q', first, second⟩
    · rw [bind_ok first, bind_ok second]
      match received with
      | none => exact ih ⟨same, size, related.2.2⟩
      | some msg => exact .inl ⟨some msg, p', q', rfl, rfl, same, size⟩
    · exact .inr ⟨e, p', q', bind_error first, bind_error second⟩

/-- A chunk size that is announced leaves each chunk within half the buffer. -/
def FitsBuffer (msg : SrsCommonMessage) : Prop :=
  msg.header.messageType = msgSetChunkSize → 2 * read4Bytes msg.payload ≤ defaultRecvBufferSize

instance (msg : SrsCommonMessage) : Decidable (FitsBuffer msg) :=
  inferInstanceAs (Decidable (_ → _))

theorem decodeUserControl_kind {payload : List UInt8} {packet : SrsPacket}
    (decoded : decodeUserControl payload = .ok packet) (chunkSize : Int) : packet ≠ .setChunkSize chunkSize := by
  unfold decodeUserControl at decoded
  dsimp only at decoded
  split at decoded
  next => nomatch decoded
  next =>
    split at decoded
    next =>
      split at decoded
      next => nomatch decoded
      next => exact fun other => nomatch other ▸ Except.ok.inj decoded
    next =>
      split at decoded
      next => nomatch decoded
      next =>
        split at decoded
        next =>
          split at decoded
          next => nomatch decoded
          next => exact fun other => nomatch other ▸ Except.ok.inj decoded
        next => exact fun other => nomatch other ▸ Except.ok.inj decoded

theorem decodeMessage_setChunkSize {type : UInt8} {payload : List UInt8} {chunkSize : Int}
    (decoded : decodeMessage type payload = .ok (some (.setChunkSize chunkSize))) :
    type = msgSetChunkSize ∧ chunkSize = read4Bytes payload := by
  unfold decodeMessage at decoded
  split at decoded
  next =>
    match result : decodeUserControl payload with
    | .ok packet =>
      rw [result] at decoded
      exact absurd (Option.some.inj (Except.ok.inj decoded)) (decodeUserControl_kind result chunkSize)
    | .error e =>
      rw [result] at decoded
      nomatch decoded
  next =>
    generalize read4Bytes payload = value at decoded ⊢
    split at decoded
    next => split at decoded <;> nomatch decoded
    next =>
      split at decoded
      next set =>
        split at decoded
        next => nomatch decoded
        next => exact ⟨set, (SrsPacket.setChunkSize.inj (Option.some.inj (Except.ok.inj decoded))).symm⟩
      next => nomatch decoded

theorem sizeAfter_half {chunkSize : Nat} {msg : SrsCommonMessage} {q : SrsProtocol Wire}
    (after : SizeAfter chunkSize (some msg) q) (half : 2 * chunkSize ≤ defaultRecvBufferSize) (fits : FitsBuffer msg) :
    2 * q.inChunkSize ≤ defaultRecvBufferSize := by
  obtain ⟨response, after⟩ := after
  unfold controlChunkSize at after
  split at after
  next => cases after
  next announced decoded =>
    split at after
    next => cases after
    next =>
      obtain ⟨set, value⟩ := decodeMessage_setChunkSize decoded
      have most := fits set
      rw [← value] at most
      have size := Except.ok.inj after
      omega
  next =>
    split at after
    · cases response with
      | ok => exact Except.ok.inj after ▸ half
      | error => cases after
    · exact Except.ok.inj after ▸ half
  next => exact Except.ok.inj after ▸ half

theorem receive_sim {fuel calls chunkSize : Nat} {p : SrsProtocol SrsFastBuffer} {q : SrsProtocol Wire}
    (related : Halved chunkSize p q) (fits : ∀ msg ∈ (receive fuel calls q).1, FitsBuffer msg) :
    receive fuel calls p = receive fuel calls q := by
  induction calls generalizing p q chunkSize with
  | zero => rfl
  | succ calls ih =>
    rw [receive] at fits ⊢
    rw [receive]
    rcases recvMessage_sim fuel related with ⟨received, p', q', first, second, same, size⟩ | ⟨e, p', q', first, second⟩
    · rw [second] at fits
      rw [first, second]
      match received with
      | none => rfl
      | some msg =>
        have half := sizeAfter_half size related.2.2 (fits msg List.mem_cons_self)
        have rest := ih ⟨same, rfl, half⟩ fun other member => fits other (List.mem_cons_of_mem _ member)
        simp only [rest]
    · rw [first, second]

theorem halved_start (pieces : List (List UInt8)) (responses : List Responses) :
    Halved protocolChunkSize { inBuffer := { pieces }, responses } { inBuffer := ⟨pieces.flatten⟩, responses } :=
  ⟨⟨⟨⟨rfl, Nat.zero_le _⟩, rfl⟩, rfl, rfl, rfl⟩, rfl, by decide⟩

/-- However the socket cuts a peer's bytes into pieces, the messages received are those of the bytes in one
piece, and so is the error after them, if no chunk size announced in them is over half the buffer. -/
theorem receive_pieces (pieces : List (List UInt8)) (responses : List Responses) (fuel calls : Nat)
    (fits : ∀ msg ∈ (receive fuel calls { inBuffer := (⟨pieces.flatten⟩ : Wire), responses }).1, FitsBuffer msg) :
    receive fuel calls { inBuffer := ({ pieces } : SrsFastBuffer), responses } =
      receive fuel calls { inBuffer := (⟨pieces.flatten⟩ : Wire), responses } :=
  receive_sim (halved_start pieces responses) fits

/-- A chunk size of 256 and then an audio message of two bytes, with both headers cut in two. -/
theorem receive_pieces_audio :
    receive 1 3 { inBuffer := ({ pieces := [[2, 0, 0, 0, 0, 0], [4, 1, 0, 0, 0, 0, 0, 0, 1, 0, 7], [0, 0, 9],
      [0, 0, 2, 8, 1, 0, 0, 0, 0xaf], [1]] } : SrsFastBuffer) } =
      receive 1 3 { inBuffer := (⟨[2, 0, 0, 0, 0, 0, 4, 1, 0, 0, 0, 0, 0, 0, 1, 0, 7, 0, 0, 9,
        0, 0, 2, 8, 1, 0, 0, 0, 0xaf, 1]⟩ : Wire) } :=
  receive_pieces [[2, 0, 0, 0, 0, 0], [4, 1, 0, 0, 0, 0, 0, 0, 1, 0, 7], [0, 0, 9], [0, 0, 2, 8, 1, 0, 0, 0, 0xaf], [1]]
    [] 1 3 (by decide +kernel)

end AdTerminal.Rtmp
