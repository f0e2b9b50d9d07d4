import AdTerminal.Rtmp.Packets

/-! What one end of a connection writes through the library, the other end reads. -/

namespace AdTerminal.Rtmp

open BigEndian Simulation Transition

/-- A message sent by the library alone, in terms of the bytes written and the chunk size after it. -/
theorem send_run {cid : Nat} (least : 2 ≤ cid) (small : cid < 64) (msg : RtmpMessage) (wellFormed : msg.WellFormed)
    {mux : Mux} (idle : mux.Idle) (chunks : 0 < mux.chunkSize) :
    ∃ events mux', run Mux.step mux events = some mux' ∧
      mux'.sent = mux.sent ++ doSimpleSend mux.chunkSize (msg.srsHeader cid) msg.payload msg.payload.length 0 ∧
      mux'.chunkSize = msg.chunkSizeAfter mux.chunkSize ∧ mux'.Idle ∧ 0 < mux'.chunkSize ∧
      mux'.done = mux.done ++ [msg.arrived cid] := by
  obtain ⟨events, mux', whole, sent, size, idle', done⟩ := message_run least small msg wellFormed idle chunks
  have some_room : 0 < mux'.chunkSize := by
    rw [size, RtmpMessage.chunkSizeAfter]
    split
    next resize =>
      have announced : 128 ≤ msg.announced := (wellFormed.1 resize).2.1
      omega
    next => exact chunks
  exact ⟨events, mux', whole, sent, size, idle', some_room, done⟩

namespace OutPacket

theorem length_encode_lt {out : OutPacket} (valid : out.Valid) : out.encode.length < 2 ^ 24 := by
  cases out with
  | setChunkSize chunkSize => simp [encode]
  | other => exact valid.2.2.1

theorem preferCid_range {out : OutPacket} (valid : out.Valid) : 2 ≤ out.preferCid ∧ out.preferCid < 64 := by
  cases out with
  | setChunkSize => exact (by decide : 2 ≤ cidProtocolControl ∧ cidProtocolControl < 64)
  | other => exact ⟨valid.1, valid.2.1⟩

theorem announced_setChunkSize {chunkSize : Nat} (small : chunkSize < 2 ^ 31) :
    announcedChunkSize (bigEndian 4 chunkSize) = chunkSize := by
  have four : (bigEndian 4 chunkSize).take 4 = bigEndian 4 chunkSize := List.take_of_length_le (length_bigEndian ..).le
  rw [announcedChunkSize, four, ofBigEndian_bigEndian_of_lt (small.trans (by decide))]

theorem wellFormed_encode {out : OutPacket} (valid : out.Valid) : WellFormedControl out.messageType out.encode := by
  cases out with
  | setChunkSize chunkSize =>
    refine ⟨fun _ => ⟨(length_bigEndian ..).ge, ?_⟩, fun other => absurd other (by decide : ¬ msgSetChunkSize = 4),
      fun other => absurd other (by decide : ¬ msgSetChunkSize = 5)⟩
    rw [encode, announced_setChunkSize valid.2]
    exact valid
  | other => exact valid.2.2.2.2.2

/-- The message the packet is sent in. -/
def message (out : OutPacket) (streamId : Nat) (valid : out.Valid) (small : streamId < 2 ^ 32)
    (nonempty : 0 < out.encode.length) : RtmpMessage :=
  { messageType := out.messageType
    streamId
    timestamp := 0
    payload := out.encode
    streamId_lt := small
    timestamp_lt := by decide
    nonempty
    length_lt := length_encode_lt valid }

end OutPacket

/-- The message a tag is sent in. -/
def tagMessage (type : UInt8) (timestamp : UInt32) (data : List UInt8) (streamId : Nat) (small : streamId < 2 ^ 32)
    (nonempty : 0 < data.length) (length_lt : data.length < 2 ^ 24) : RtmpMessage :=
  { messageType := type
    streamId
    timestamp := timestamp.toNat
    payload := data
    streamId_lt := small
    timestamp_lt := timestamp.toNat_lt
    nonempty
    length_lt }

/-- A single message is written as it is sent chunk by chunk. -/
theorem sendAndFreeMessages_one {outChunkSize streamId : Nat} (msg : SrsSharedPtrMessage) (same : msg.streamId = streamId)
    (one : 2 ≤ msg.perferCid) :
    sendAndFreeMessages outChunkSize [msg] streamId = some (simpleSend outChunkSize msg) := by
  have kept : ¬ msg.perferCid < 2 := Nat.not_lt.mpr one
  have checked : checkMessages streamId [msg] = [msg] := by
    simp only [checkMessages, SrsSharedPtrMessage.check, same, if_neg kept, decide_true, if_true]
    rw [← same]
  rw [sendAndFreeMessages, checked, doSendMessages_simple, List.flatMap_singleton]

namespace SrsCall

/-- The messages of a call, as they arrive. -/
def arrivals (streamId : Nat) : SrsCall → List Arrived
  | packet out id =>
    if out.encode = [] then [] else [⟨out.preferCid, out.messageType, id, 0, out.encode⟩]
  | write type timestamp data =>
    if data = [] then []
    else if type = typeAudio then [⟨cidAudio, type, streamId, timestamp.toNat % 2 ^ 31, data⟩]
    else if type = typeVideo then [⟨cidVideo, type, streamId, timestamp.toNat % 2 ^ 31, data⟩]
    else if type = typeScript then [⟨cidOverConnection2, type, streamId, 0, data⟩]
    else []

/-- A chunk size that is set is at most half of the other end's buffer. -/
def FitsBuffer : SrsCall → Prop
  | packet (.setChunkSize chunkSize) _ => 2 * chunkSize ≤ defaultRecvBufferSize
  | packet (.other ..) _ => True
  | write .. => True

end SrsCall

theorem packet_run {out : OutPacket} {streamId : Nat} (valid : out.Valid) (small : streamId < 2 ^ 32) {mux : Mux}
    (idle : mux.Idle) (chunks : 0 < mux.chunkSize) (nonempty : 0 < out.encode.length) :
    ∃ events mux' bytes, run Mux.step mux events = some mux' ∧
      sendAndFreePacket mux.chunkSize out streamId = (bytes, mux'.chunkSize) ∧
      mux'.sent = mux.sent ++ bytes ∧ mux'.Idle ∧ 0 < mux'.chunkSize ∧
      mux'.done = mux.done ++ [⟨out.preferCid, out.messageType, streamId, 0, out.encode⟩] := by
  obtain ⟨least, most⟩ := OutPacket.preferCid_range valid
  obtain ⟨events, mux', whole, sent, size, idle', room, done⟩ :=
    send_run least most (out.message streamId valid small nonempty) (OutPacket.wellFormed_encode valid) idle chunks
  refine ⟨events, mux', _, whole, ?_, sent, idle', room, done⟩
  rw [size, sendAndFreePacket]
  simp only [if_neg nonempty.ne']
  refine congrArg (Prod.mk _) ?_
  cases out with
  | setChunkSize chunkSize =>
    have resize : (OutPacket.message (.setChunkSize chunkSize) streamId valid small nonempty).messageType = 1 := rfl
    rw [RtmpMessage.chunkSizeAfter, if_pos resize]
    exact (OutPacket.announced_setChunkSize valid.2).symm
  | other type cid payload =>
    have kept : ¬ (OutPacket.message (.other type cid payload) streamId valid small nonempty).messageType = 1 :=
      valid.2.2.2.1
    rw [RtmpMessage.chunkSizeAfter, if_neg kept]
    rfl

/-- A tag that is written is one message on the chunk stream of its type. -/
theorem tag_run {type : UInt8} (timestamp : UInt32) {data : List UInt8} {streamId cid : Nat} (small : streamId < 2 ^ 32)
    (nonempty : 0 < data.length) (length_lt : data.length < 2 ^ 24) (least : 2 ≤ cid) (most : cid < 64)
    (tag : type ≠ 1 ∧ type ≠ 4 ∧ type ≠ 5) {mux : Mux} (idle : mux.Idle) (chunks : 0 < mux.chunkSize) :
    ∃ events mux' bytes, run Mux.step mux events = some mux' ∧
      sendAndFreeMessages mux.chunkSize [⟨type, cid, data, timestamp.toNat, streamId⟩] streamId = some bytes ∧
      mux'.chunkSize = mux.chunkSize ∧ mux'.sent = mux.sent ++ bytes ∧ mux'.Idle ∧
      mux'.done = mux.done ++ [⟨cid, type, streamId, timestamp.toNat % 2 ^ 31, data⟩] := by
  have wellFormed : (tagMessage type timestamp data streamId small nonempty length_lt).WellFormed :=
    ⟨fun same => absurd same tag.1, fun same => absurd same tag.2.1, fun same => absurd same tag.2.2⟩
  obtain ⟨events, mux', whole, sent, size, idle', -, done⟩ := send_run least most _ wellFormed idle chunks
  exact ⟨events, mux', _, whole, sendAndFreeMessages_one _ rfl least, size.trans (if_neg tag.1), sent, idle', done⟩

/-- These bytes are what the peer would send for these messages, and it is between two messages after them. -/
def Sends (mux : Mux) (sent : Option (List UInt8 × Nat)) (arrived : List Arrived) : Prop :=
  ∃ events mux' bytes, run Mux.step mux events = some mux' ∧ sent = some (bytes, mux'.chunkSize) ∧
    mux'.sent = mux.sent ++ bytes ∧ mux'.Idle ∧ 0 < mux'.chunkSize ∧ mux'.done = mux.done ++ arrived

theorem sends_nothing {mux : Mux} (idle : mux.Idle) (chunks : 0 < mux.chunkSize) :
    Sends mux (some ([], mux.chunkSize)) [] :=
  ⟨[], mux, [], rfl, rfl, (List.append_nil _).symm, idle, chunks, (List.append_nil _).symm⟩

theorem packet_sends {out : OutPacket} {streamId : Nat} (valid : out.Valid) (small : streamId < 2 ^ 32) {mux : Mux}
    (idle : mux.Idle) (chunks : 0 < mux.chunkSize) :
    Sends mux (some (sendAndFreePacket mux.chunkSize out streamId))
      (if out.encode = [] then [] else [⟨out.preferCid, out.messageType, streamId, 0, out.encode⟩]) := by
  by_cases empty : out.encode = []
  · have silent : sendAndFreePacket mux.chunkSize out streamId = ([], mux.chunkSize) := by
      simp [sendAndFreePacket, empty]
    rw [if_pos empty, silent]
    exact sends_nothing idle chunks
  · obtain ⟨events, mux', bytes, whole, sent, begins, idle', room, done⟩ :=
      packet_run valid small idle chunks (List.length_pos_iff.mpr empty)
    rw [if_neg empty]
    exact ⟨events, mux', bytes, whole, congrArg some sent, begins, idle', room, done⟩

/-- A tag of one of the three types, on the chunk stream of its type. -/
theorem tag_sends {type : UInt8} (timestamp : UInt32) {data : List UInt8} {streamId cid : Nat}
    (small : streamId < 2 ^ 32) (length_lt : data.length < 2 ^ 24) (least : 2 ≤ cid) (most : cid < 64)
    (tag : type ≠ 1 ∧ type ≠ 4 ∧ type ≠ 5) {mux : Mux} (idle : mux.Idle) (chunks : 0 < mux.chunkSize) :
    Sends mux ((sendAndFreeMessages mux.chunkSize [⟨type, cid, data, timestamp.toNat, streamId⟩] streamId).map
        fun bytes => (bytes, mux.chunkSize))
      (if data = [] then [] else [⟨cid, type, streamId, timestamp.toNat % 2 ^ 31, data⟩]) := by
  by_cases empty : data = []
  · have silent : sendAndFreeMessages mux.chunkSize [⟨type, cid, data, timestamp.toNat, streamId⟩] streamId =
        some [] := by
      rw [sendAndFreeMessages_one _ rfl least, empty]
      rfl
    rw [if_pos empty, silent]
    exact sends_nothing idle chunks
  · obtain ⟨events, mux', bytes, whole, sent, size, begins, idle', done⟩ := tag_run timestamp small
      (List.length_pos_iff.mpr empty) length_lt least most tag idle chunks
    rw [if_neg empty, sent]
    exact ⟨events, mux', bytes, whole, by rw [size]; rfl, begins, idle', size.symm ▸ chunks, done⟩

theorem call_sends {call : SrsCall} {streamId : Nat} (valid : call.Valid) (small : streamId < 2 ^ 32) {mux : Mux}
    (idle : mux.Idle) (chunks : 0 < mux.chunkSize) :
    Sends mux (call.send streamId mux.chunkSize) (call.arrivals streamId) := by
  cases call with
  | packet out id => exact packet_sends valid.1 valid.2 idle chunks
  | write type timestamp data =>
    by_cases audio : type = typeAudio
    · subst audio
      exact tag_sends timestamp small valid (by decide : 2 ≤ cidAudio) (by decide) (by decide) idle chunks
    by_cases video : type = typeVideo
    · subst video
      exact tag_sends timestamp small valid (by decide : 2 ≤ cidVideo) (by decide) (by decide) idle chunks
    by_cases script : type = typeScript
    · subst script
      exact tag_sends 0 small valid (by decide : 2 ≤ cidOverConnection2) (by decide) (by decide) idle chunks
    · have refused : (SrsCall.write type timestamp data).send streamId mux.chunkSize = some ([], mux.chunkSize) := by
        simp only [SrsCall.send, srsRtmpCreateMsg, if_neg audio, if_neg video, if_neg script]
      have none_sent : (SrsCall.write type timestamp data).arrivals streamId = [] := by
        simp only [SrsCall.arrivals, if_neg audio, if_neg video, if_neg script, ite_self]
      rw [refused, none_sent]
      exact sends_nothing idle chunks

theorem calls_send {calls : List SrsCall} {streamId : Nat} (valid : ∀ call ∈ calls, call.Valid)
    (small : streamId < 2 ^ 32) {mux : Mux} (idle : mux.Idle) (chunks : 0 < mux.chunkSize) :
    ∃ events mux' bytes, run Mux.step mux events = some mux' ∧
      SrsCall.sendAll streamId mux.chunkSize calls = some bytes ∧ mux'.sent = mux.sent ++ bytes ∧
      mux'.done = mux.done ++ calls.flatMap (SrsCall.arrivals streamId) := by
  induction calls generalizing mux with
  | nil => exact ⟨[], mux, [], rfl, rfl, (List.append_nil _).symm, (List.append_nil _).symm⟩
  | cons call calls ih =>
    obtain ⟨events, next, bytes, whole, sends, sent, idle', room, done⟩ :=
      call_sends (valid call List.mem_cons_self) small idle chunks
    obtain ⟨events', last, bytes', whole', sends', sent', done'⟩ :=
      ih (fun other member => valid other (List.mem_cons_of_mem _ member)) idle' room
    refine ⟨events ++ events', last, bytes ++ bytes', ?_, ?_, ?_, ?_⟩
    · rw [run_append, whole]
      exact whole'
    · rw [SrsCall.sendAll, sends]
      simp only [Option.bind_eq_bind, Option.bind_some, sends', pure]
    · rw [sent', sent, List.append_assoc]
    · rw [done', done, List.append_assoc, List.flatMap_cons]

/-- Each chunk is at least one byte. -/
theorem sent_run {mux mux' : Mux} {events : List ChunkEvent} (whole : run Mux.step mux events = some mux') :
    mux.sent.length + events.length ≤ mux'.sent.length := by
  have basic : ∀ fmt cid, 0 < (basicHeader fmt cid).length := by
    intro fmt cid
    unfold basicHeader
    split_ifs <;> simp
  induction events generalizing mux with
  | nil => cases whole; exact le_rfl
  | cons event events ih =>
    obtain ⟨next, taken, rest⟩ := run_cons whole
    have later := ih rest
    have grows : mux.sent.length < next.sent.length := by
      cases event with
      | start cid kind msg =>
        simp only [Mux.step, Option.ite_none_right_eq_some, Option.some_inj] at taken
        obtain ⟨-, rfl⟩ := taken
        have some_bytes := basic kind.fmt cid
        simp only [Mux.sent_putChunk, Mux.chunkBytes, List.length_append]
        omega
      | next cid =>
        simp only [Mux.step] at taken
        split at taken
        · cases taken
          have some_bytes := basic 3 cid
          simp only [Mux.sent_putChunk, Mux.chunkBytes, List.length_append]
          omega
        · cases taken
    rw [List.length_cons]
    omega

namespace Arrived

def packet (arrived : Arrived) : RtmpPacket :=
  packetOf arrived.messageType arrived.clock arrived.payload

end Arrived

theorem packets_eq {call : SrsCall} (streamId : Nat) : (call.arrivals streamId).map Arrived.packet = call.packets := by
  have wide : ∀ n : Nat, n % 2 ^ 31 % 2 ^ 32 = n % 2 ^ 31 := fun n => Nat.mod_eq_of_lt (by omega)
  cases call with
  | packet out id =>
    simp only [SrsCall.arrivals, SrsCall.packets]
    split <;> rfl
  | write type timestamp data =>
    simp only [SrsCall.arrivals, SrsCall.packets]
    by_cases empty : data = []
    · rw [if_pos empty, if_pos empty]
      rfl
    rw [if_neg empty, if_neg empty]
    by_cases audio : type = typeAudio
    · subst audio
      simp only [if_true, true_or, List.map_singleton, Arrived.packet, packetOf, wide]
      rfl
    by_cases video : type = typeVideo
    · subst video
      simp only [if_neg audio, if_true, or_true, List.map_singleton, Arrived.packet, packetOf, wide]
      rfl
    by_cases script : type = typeScript
    · subst script
      simp only [if_neg audio, if_neg video, if_true, List.map_singleton, Arrived.packet, packetOf]
      rfl
    · simp [audio, video, script]

/-- A message that is no aggregate is one packet. -/
theorem goPacket_plain {β : Type} [ByteSource SrsError β] {msg : SrsCommonMessage}
    (plain : msg.header.messageType ≠ msgAggregateMessage) (context : Context β) :
    (srsRtmpGoPacket msg).run context = .ok (some msg.arrived.packet) context := by
  change _ = EStateM.Result.ok (some (packetOf msg.header.messageType msg.header.timestamp msg.payload)) _
  unfold srsRtmpGoPacket packetOf
  dsimp only
  by_cases audio : msg.header.messageType = msgAudioMessage
  · rw [if_pos audio, if_pos audio, EStateM.run_pure]
  by_cases video : msg.header.messageType = msgVideoMessage
  · rw [if_neg audio, if_neg audio, if_pos video, if_pos video, EStateM.run_pure]
  by_cases data : msg.header.messageType = msgAmf0DataMessage ∨ msg.header.messageType = msgAmf3DataMessage
  · rw [if_neg audio, if_neg audio, if_neg video, if_neg video, if_pos data, if_pos data, EStateM.run_pure]
  · rw [if_neg audio, if_neg audio, if_neg video, if_neg video, if_neg data, if_neg data, if_neg plain,
      EStateM.run_pure]

/-- With none queued, the next message is one of the connection. -/
theorem nextMessage_received {β : Type} [ByteSource SrsError β] {fuel : Nat} {p q : SrsProtocol β}
    {msg : SrsCommonMessage} (received : (recvMessage fuel).run p = .ok (some msg) q) :
    (nextMessage fuel).run ({ rtmp := p } : Context β) = .ok (some msg) { rtmp := q } := by
  change (onRtmp (recvMessage fuel)).run _ = _
  simp only [onRtmp, EStateM.run] at received ⊢
  rw [received]

theorem readPacket_message {β : Type} [ByteSource SrsError β] (fuel : Nat) {p q : SrsProtocol β}
    {msg : SrsCommonMessage} (received : (recvMessage (fuel + 1)).run p = .ok (some msg) q)
    (plain : msg.header.messageType ≠ msgAggregateMessage) :
    (srsRtmpReadPacket (fuel + 1) (fuel + 1)).run { rtmp := p } = .ok (some msg.arrived.packet) { rtmp := q } := by
  rw [srsRtmpReadPacket, bind_ok (nextMessage_received received)]
  simp only
  rw [bind_ok (goPacket_plain plain _)]
  rfl

/-- A reader that is refused hands on the refusal. -/
theorem readPacket_refused {β : Type} [ByteSource SrsError β] (fuel : Nat) {p q : SrsProtocol β} {e : SrsError}
    (refused : (recvMessage (fuel + 1)).run p = .error e q) :
    (srsRtmpReadPacket (fuel + 1) (fuel + 1)).run ({ rtmp := p } : Context β) = .error e { rtmp := q } := by
  have next : (nextMessage (fuel + 1)).run ({ rtmp := p } : Context β) = .error e { rtmp := q } := by
    change (onRtmp (recvMessage (fuel + 1))).run _ = _
    simp only [onRtmp, EStateM.run] at refused ⊢
    rw [refused]
  rw [srsRtmpReadPacket, bind_error next]

theorem readPackets_messages {β : Type} [ByteSource SrsError β] (fuel calls : Nat) {p : SrsProtocol β}
    {msgs : List SrsCommonMessage} {e : SrsError} (received : receive (fuel + 1) calls p = (msgs, some e))
    (plain : ∀ msg ∈ msgs, msg.header.messageType ≠ msgAggregateMessage) :
    readPackets (fuel + 1) calls { rtmp := p } = (msgs.map fun msg => msg.arrived.packet, some e) := by
  induction calls generalizing p msgs with
  | zero => cases received
  | succ calls ih =>
    rw [receive] at received
    rw [readPackets]
    split at received
    next msg q first =>
      obtain ⟨rfl, refused⟩ := Prod.ext_iff.mp received
      have rest := ih (Prod.ext rfl refused) fun msg member => plain msg (List.mem_cons_of_mem _ member)
      rw [readPacket_message fuel first (plain msg List.mem_cons_self)]
      simp only [rest, List.map_cons]
    next => cases received
    next f q first =>
      cases received
      rw [readPacket_refused fuel first]
      rfl

/-- A tag is sent as a message of its type. -/
theorem arrivals_tag {type : UInt8} {timestamp : UInt32} {data : List UInt8} {streamId : Nat} {arrived : Arrived}
    (member : arrived ∈ (SrsCall.write type timestamp data).arrivals streamId) :
    arrived.messageType = typeAudio ∨ arrived.messageType = typeVideo ∨ arrived.messageType = typeScript := by
  simp only [SrsCall.arrivals] at member
  split_ifs at member with empty audio video script
  · cases member
  · obtain rfl := List.mem_singleton.mp member
    exact .inl audio
  · obtain rfl := List.mem_singleton.mp member
    exact .inr (.inl video)
  · obtain rfl := List.mem_singleton.mp member
    exact .inr (.inr script)
  · cases member

theorem arrivals_plain {call : SrsCall} {streamId : Nat} (valid : call.Valid) :
    ∀ arrived ∈ call.arrivals streamId, arrived.messageType ≠ msgAggregateMessage := by
  intro arrived member
  cases call with
  | packet out id =>
    simp only [SrsCall.arrivals] at member
    split at member
    · cases member
    · obtain rfl := List.mem_singleton.mp member
      cases out with
      | setChunkSize => exact (by decide : msgSetChunkSize ≠ msgAggregateMessage)
      | other => exact valid.1.2.2.2.2.1
  | write type timestamp data =>
    rcases arrivals_tag member with type | type | type <;> rw [type] <;> decide

theorem arrivals_fit {call : SrsCall} {streamId : Nat} (valid : call.Valid) (fits : call.FitsBuffer) :
    ∀ arrived ∈ call.arrivals streamId, arrived.messageType = msgSetChunkSize →
      2 * announcedChunkSize arrived.payload ≤ defaultRecvBufferSize := by
  intro arrived member announces
  cases call with
  | packet out id =>
    simp only [SrsCall.arrivals] at member
    split at member
    · cases member
    · obtain rfl := List.mem_singleton.mp member
      cases out with
      | setChunkSize chunkSize =>
        have half : 2 * chunkSize ≤ defaultRecvBufferSize := fits
        change 2 * announcedChunkSize (bigEndian 4 chunkSize) ≤ _
        rwa [OutPacket.announced_setChunkSize valid.1.2]
      | other => exact absurd announces valid.1.2.2.2.1
  | write type timestamp data =>
    rcases arrivals_tag member with type | type | type <;> exact absurd (type.symm.trans announces) (by decide)

/-- The messages that the other end receives of these packets and tags, however the socket cuts the bytes. -/
theorem calls_received (streamId : Nat) (small : streamId < 2 ^ 32) (calls : List SrsCall)
    (valid : ∀ call ∈ calls, call.Valid) (fits : ∀ call ∈ calls, call.FitsBuffer) :
    ∃ wire, SrsCall.sendAll streamId protocolChunkSize calls = some wire ∧
      ∀ (pieces : List (List UInt8)) fuel reads, pieces.flatten = wire → wire.length < fuel →
        (calls.flatMap SrsCall.packets).length < reads →
        ∃ received, receive fuel reads { inBuffer := ({ pieces } : SrsFastBuffer) } = (received, some .socketRead) ∧
          (received.map fun msg => msg.arrived.packet) = calls.flatMap SrsCall.packets ∧
          ∀ msg ∈ received, msg.header.messageType ≠ msgAggregateMessage := by
  obtain ⟨events, mux, wire, whole, sends, sent, done⟩ :=
    @calls_send calls streamId valid small {} (fun _ => rfl) (by decide : 0 < protocolChunkSize)
  have sent : mux.sent = wire := sent
  have done : mux.done = calls.flatMap (SrsCall.arrivals streamId) := done
  refine ⟨wire, sends, fun pieces fuel reads cut enough often => ?_⟩
  have packets : mux.done.map Arrived.packet = calls.flatMap SrsCall.packets := by
    rw [done, List.map_flatMap]
    exact congrArg (fun f => calls.flatMap f) (funext fun call => packets_eq streamId)
  have chunks : events.length < fuel := by
    have grown := sent_run whole
    rw [sent] at grown
    have start : ({} : Mux).sent.length = 0 := rfl
    omega
  have count : mux.done.length < reads := by
    rw [← packets, List.length_map] at often
    exact often
  have buffered : mux.FitsBuffer := by
    intro arrived member
    rw [done] at member
    obtain ⟨call, called, arrives⟩ := List.mem_flatMap.mp member
    exact arrivals_fit (valid call called) (fits call called) arrived arrives
  obtain ⟨received, all, arrived⟩ := receive_buffered whole buffered (cut.trans sent.symm) chunks count
  refine ⟨received, all, ?_, fun msg member => ?_⟩
  · rw [← packets, ← arrived, List.map_map]
    rfl
  · have arrives : msg.arrived ∈ calls.flatMap (SrsCall.arrivals streamId) := by
      rw [← done, ← arrived]
      exact List.mem_map_of_mem member
    obtain ⟨call, called, arrives⟩ := List.mem_flatMap.mp arrives
    exact arrivals_plain (valid call called) _ arrives

/-- Whatever packets one end sends and whatever tags it writes, the sender's assertions hold, and the other
end reads these packets and the tags that are sent, in their order, until the bytes are used up. -/
theorem read_what_is_written (streamId : Nat) (small : streamId < 2 ^ 32) (calls : List SrsCall)
    (valid : ∀ call ∈ calls, call.Valid) (fits : ∀ call ∈ calls, call.FitsBuffer) :
    ∃ wire, SrsCall.sendAll streamId protocolChunkSize calls = some wire ∧
      ∀ (pieces : List (List UInt8)) fuel reads, pieces.flatten = wire → wire.length < fuel →
        (calls.flatMap SrsCall.packets).length < reads →
        readPackets fuel reads { rtmp := { inBuffer := ({ pieces } : SrsFastBuffer) } } =
          (calls.flatMap SrsCall.packets, some .socketRead) := by
  obtain ⟨wire, sends, reading⟩ := calls_received streamId small calls valid fits
  refine ⟨wire, sends, fun pieces fuel reads cut enough often => ?_⟩
  obtain ⟨received, all, packets, plain⟩ := reading pieces fuel reads cut enough often
  obtain ⟨fuel, rfl⟩ := Nat.exists_eq_add_one_of_ne_zero (Nat.ne_of_gt (Nat.zero_lt_of_lt enough))
  rw [readPackets_messages fuel reads all plain, packets]

/-- A publisher sets its chunk size and writes a script, a video tag of several chunks and an audio tag. -/
def publisher : List SrsCall :=
  [.write typeScript 5 [2, 0, 1], .write typeVideo 0x81000000 (List.replicate 200 7),
    .packet (.setChunkSize srsChunkSize) 0, .write typeAudio 40 [1, 2]]

theorem read_what_is_written_publisher :
    ∃ wire, SrsCall.sendAll 1 protocolChunkSize publisher = some wire ∧
      ∀ (pieces : List (List UInt8)) fuel reads, pieces.flatten = wire → wire.length < fuel → 4 < reads →
        readPackets fuel reads { rtmp := { inBuffer := ({ pieces } : SrsFastBuffer) } } =
          ([⟨typeScript, 0, [2, 0, 1]⟩, ⟨typeVideo, 0x1000000, List.replicate 200 7⟩,
            ⟨msgSetChunkSize, 0, [0, 0, 0xea, 0x60]⟩, ⟨typeAudio, 40, [1, 2]⟩], some .socketRead) := by
  refine read_what_is_written 1 (by norm_num) publisher ?_ ?_
  · intro call member
    simp only [publisher, List.mem_cons, List.not_mem_nil, or_false] at member
    rcases member with rfl | rfl | rfl | rfl
    · exact (by norm_num : [2, 0, 1].length < 2 ^ 24)
    · exact (by rw [List.length_replicate]; norm_num : (List.replicate 200 (7 : UInt8)).length < 2 ^ 24)
    · exact ⟨⟨by norm_num [srsChunkSize], by norm_num [srsChunkSize]⟩, by norm_num⟩
    · exact (by norm_num : [1, 2].length < 2 ^ 24)
  · intro call member
    simp only [publisher, List.mem_cons, List.not_mem_nil, or_false] at member
    rcases member with rfl | rfl | rfl | rfl
    · trivial
    · trivial
    · exact (by decide : 2 * srsChunkSize ≤ defaultRecvBufferSize)
    · trivial

end AdTerminal.Rtmp
