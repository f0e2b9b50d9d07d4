import AdTerminal.Rtmp.SentMessages

/-! The packets that the callers of the library write and read: FLV tags carried in messages. -/

namespace AdTerminal.Rtmp

open BigEndian Simulation Transition

def typeAudio : UInt8 := 8
def typeVideo : UInt8 := 9
def typeScript : UInt8 := 18

/-- A tag is sent on the chunk stream of its type; a script has no timestamp. -/
def srsRtmpCreateMsg (type : UInt8) (timestamp : UInt32) (data : List UInt8) (streamId : Nat) :
    Except SrsError SrsSharedPtrMessage :=
  if type = typeAudio then
    .ok { messageType := msgAudioMessage, perferCid := cidAudio, payload := data, timestamp := timestamp.toNat, streamId }
  else if type = typeVideo then
    .ok { messageType := msgVideoMessage, perferCid := cidVideo, payload := data, timestamp := timestamp.toNat, streamId }
  else if type = typeScript then
    .ok { messageType := msgAmf0DataMessage, perferCid := cidOverConnection2, payload := data, timestamp := 0, streamId }
  else .error .streamCasterFlvTag

/-- What a caller of the library does on a connection. -/
inductive SrsCall
  /-- one of the packets that connect, play or publish -/
  | packet (packet : OutPacket) (streamId : Nat)
  /-- `srs_rtmp_write_packet` -/
  | write (type : UInt8) (timestamp : UInt32) (data : List UInt8)

namespace SrsCall

/-- What is written to the socket, and the chunk size from then on; `none` where an assertion fails. -/
def send (streamId outChunkSize : Nat) : SrsCall → Option (List UInt8 × Nat)
  | packet out id => some (sendAndFreePacket outChunkSize out id)
  | write type timestamp data =>
    match srsRtmpCreateMsg type timestamp data streamId with
    | .error _ => some ([], outChunkSize)
    | .ok msg => (sendAndFreeMessages outChunkSize [msg] streamId).map fun bytes => (bytes, outChunkSize)

def sendAll (streamId : Nat) : Nat → List SrsCall → Option (List UInt8)
  | _, [] => some []
  | outChunkSize, call :: calls => do
    let (bytes, outChunkSize) ← call.send streamId outChunkSize
    let rest ← sendAll streamId outChunkSize calls
    return bytes ++ rest

end SrsCall

structure RtmpPacket where
  type : UInt8
  timestamp : Nat
  data : List UInt8
  deriving DecidableEq, Repr

/-- `msgs` are those of an aggregate that are not handed out yet. -/
structure Context (β : Type) where
  rtmp : SrsProtocol β
  msgs : List SrsCommonMessage := []

/-- The loop of `srs_rtmp_on_aggregate` over the bytes left, of at most `fuel` turns: the messages it
finds, and what it fails with after them. -/
def onAggregateLoop (header : SrsMessageHeader) :
    Nat → Int → List UInt8 → List SrsCommonMessage × Option SrsError
  | 0, _, _ => ([], none)
  | fuel + 1, delta, bytes =>
    if bytes = [] then ([], none)
    else if bytes.length < 11 then ([], some .rtmpAggregate)
    else
      let type := bytes.headD 0
      let dataSize := ofBigEndian ((bytes.drop 1).take 3)
      let low := ofBigEndian ((bytes.drop 4).take 3)
      let timeH := ofBigEndian ((bytes.drop 7).take 1)
      let time : Nat := (timeH * 2 ^ 24 + low) % 2 ^ 31
      -- the aggregate message always use abs time
      let delta : Int := if delta < 0 then ((header.timestamp : Int) - time).bmod (2 ^ 32) else delta
      let timestamp : Nat := ((time + delta) % 2 ^ 32).toNat
      let streamId := ofBigEndian ((bytes.drop 8).take 3)
      let rest := bytes.drop 11
      if rest.length < dataSize + 4 then ([], some .rtmpAggregate)
      else
        let msg : SrsCommonMessage :=
          { header :=
              { timestampDelta := timestamp, payloadLength := dataSize, messageType := type, streamId, timestamp
                perferCid := header.perferCid }
            allocated := if dataSize = 0 then none else some dataSize
            payload := rest.take dataSize }
        let more := onAggregateLoop header fuel delta (rest.drop (dataSize + 4))
        (msg :: more.1, more.2)

def srsRtmpOnAggregate (msg : SrsCommonMessage) : List SrsCommonMessage × Option SrsError :=
  onAggregateLoop msg.header msg.payload.length (-1) msg.payload

section Reading

variable {β : Type} [ByteSource SrsError β]

/-- The packet of a message, or none where the message is an aggregate, whose messages are queued. -/
def srsRtmpGoPacket (msg : SrsCommonMessage) : EStateM SrsError (Context β) (Option RtmpPacket) := do
  let type := msg.header.messageType
  if type = msgAudioMessage then
    return some ⟨typeAudio, msg.header.timestamp % 2 ^ 32, msg.payload⟩
  else if type = msgVideoMessage then
    return some ⟨typeVideo, msg.header.timestamp % 2 ^ 32, msg.payload⟩
  -- the timestamp of other packets is left at zero
  else if type = msgAmf0DataMessage ∨ type = msgAmf3DataMessage then
    return some ⟨typeScript, 0, msg.payload⟩
  else if type = msgAggregateMessage then
    let (msgs, failed) := srsRtmpOnAggregate msg
    modify fun context => { context with msgs := context.msgs ++ msgs }
    match failed with
    | some e => throw e
    | none => return none
  else
    return some ⟨type, 0, msg.payload⟩

/-- A call of `recv_message` on the connection of the context. -/
def onRtmp {α : Type} (call : Reading β α) : EStateM SrsError (Context β) α := fun context =>
  match call.run context.rtmp with
  | .ok a rtmp => .ok a { context with rtmp }
  | .error e rtmp => .error e { context with rtmp }

/-- The next message: of the cache first, then of the connection. -/
def nextMessage (fuel : Nat) : EStateM SrsError (Context β) (Option SrsCommonMessage) := do
  match (← get).msgs with
  | msg :: msgs =>
    modify fun context => { context with msgs }
    return some msg
  | [] => onRtmp (recvMessage fuel)

/-- The loop of `srs_rtmp_read_packet`, of at most `turns` turns. -/
def srsRtmpReadPacket (fuel : Nat) : Nat → EStateM SrsError (Context β) (Option RtmpPacket)
  | 0 => return none
  | turns + 1 => do
    match ← nextMessage fuel with
    | none => return none
    | some msg =>
      match ← srsRtmpGoPacket msg with
      | some packet => return some packet
      | none => srsRtmpReadPacket fuel turns

/-- A caller that reads packet after packet, at most `calls` of them, until it is refused. -/
def readPackets (fuel : Nat) : Nat → Context β → List RtmpPacket × Option SrsError
  | 0, _ => ([], none)
  | calls + 1, context =>
    match (srsRtmpReadPacket fuel fuel).run context with
    | .ok (some packet) context =>
      let rest := readPackets fuel calls context
      (packet :: rest.1, rest.2)
    | .ok none _ => ([], none)
    | .error e _ => ([], some e)

end Reading

/-- The packet a message is read as, unless it is an aggregate. -/
def packetOf (type : UInt8) (timestamp : Nat) (payload : List UInt8) : RtmpPacket :=
  if type = msgAudioMessage then ⟨typeAudio, timestamp % 2 ^ 32, payload⟩
  else if type = msgVideoMessage then ⟨typeVideo, timestamp % 2 ^ 32, payload⟩
  else if type = msgAmf0DataMessage ∨ type = msgAmf3DataMessage then ⟨typeScript, 0, payload⟩
  else ⟨type, 0, payload⟩

namespace OutPacket

/-- The packets that the library sends of itself. -/
def Valid : OutPacket → Prop
  | setChunkSize chunkSize => 128 ≤ chunkSize ∧ chunkSize < 2 ^ 31
  | other messageType preferCid payload =>
    2 ≤ preferCid ∧ preferCid < 64 ∧ payload.length < 2 ^ 24 ∧ messageType ≠ msgSetChunkSize ∧
      messageType ≠ msgAggregateMessage ∧ WellFormedControl messageType payload

end OutPacket

namespace SrsCall

/-- A message's length has to fit in its header. -/
def Valid : SrsCall → Prop
  | packet out streamId => out.Valid ∧ streamId < 2 ^ 32
  | write _ _ data => data.length < 2 ^ 24

/-- What the other side reads of the call: a tag comes with 31 bits of its timestamp, a script with none. -/
def packets : SrsCall → List RtmpPacket
  | packet out _ => if out.encode = [] then [] else [packetOf out.messageType 0 out.encode]
  | write type timestamp data =>
    if data = [] then []
    else if type = typeAudio ∨ type = typeVideo then [⟨type, timestamp.toNat % 2 ^ 31, data⟩]
    else if type = typeScript then [⟨type, 0, data⟩]
    else []

end SrsCall

end AdTerminal.Rtmp
