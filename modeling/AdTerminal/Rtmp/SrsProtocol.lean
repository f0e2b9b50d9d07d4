import AdTerminal.Library.BigEndian
import AdTerminal.Library.Simulation

/-! The chunk stream of the RTMP library: how `SrsProtocol` cuts the messages it sends into chunks and
puts together the messages of the chunks it reads. Of the acknowledgements and ping responses that reading
sends back, only the outcome of the write is there. -/

namespace AdTerminal.Rtmp

open BigEndian Simulation

/-- What a call of the library fails with. -/
inductive SrsError
  | socketRead
  | socketWrite
  | readerBufferOverflow
  | rtmpChunkStart
  | rtmpPacketSize
  | rtmpChunkSize
  | rtmpMessageDecode
  | rtmpMessageEncode
  | rtmpAggregate
  | streamCasterFlvTag
  deriving DecidableEq, Repr

/-- The bytes a peer sends, read without a buffer between. -/
structure Wire where
  bytes : List UInt8
  deriving DecidableEq, Repr

instance : ByteSource SrsError Wire where
  read n := fun wire =>
    if n ≤ wire.bytes.length then .ok (wire.bytes.take n) ⟨wire.bytes.drop n⟩ else .error .socketRead wire
  peek n := fun wire =>
    if n ≤ wire.bytes.length then .ok (wire.bytes.take n) wire else .error .socketRead wire

def extendedTimestamp : Nat := 0xFFFFFF
def protocolChunkSize : Nat := 128
def minChunkSize : Nat := 128
def srsChunkSize : Nat := 60000

def cidProtocolControl : Nat := 0x02
def cidOverConnection : Nat := 0x03
def cidOverConnection2 : Nat := 0x04
def cidVideo : Nat := 0x06
def cidAudio : Nat := 0x07

def msgSetChunkSize : UInt8 := 0x01
def msgUserControlMessage : UInt8 := 0x04
def msgWindowAcknowledgementSize : UInt8 := 0x05
def msgAudioMessage : UInt8 := 8
def msgVideoMessage : UInt8 := 9
def msgAmf3DataMessage : UInt8 := 15
def msgAmf0DataMessage : UInt8 := 18
def msgAggregateMessage : UInt8 := 22

def pcucSetBufferLength : Nat := 0x03
def pcucPingRequest : Nat := 0x06
def pcucFmsEvent0 : Nat := 0x1a

/-- The stream id is the 32 bits of the `int32_t`. -/
structure SrsMessageHeader where
  timestampDelta : Nat := 0
  payloadLength : Nat := 0
  messageType : UInt8 := 0
  streamId : Nat := 0
  timestamp : Nat := 0
  perferCid : Nat := cidOverConnection
  deriving DecidableEq, Repr

/-- `allocated` is the size of the buffer `create_payload` made, and `payload` what was copied into it. -/
structure SrsCommonMessage where
  header : SrsMessageHeader := {}
  allocated : Option Nat := none
  payload : List UInt8 := []
  deriving DecidableEq, Repr

namespace SrsCommonMessage

def size (msg : SrsCommonMessage) : Nat :=
  msg.payload.length

end SrsCommonMessage

structure SrsChunkStream where
  cid : Nat
  header : SrsMessageHeader
  extendedTimestamp : Bool
  msg : Option SrsCommonMessage
  msgCount : Nat
  deriving DecidableEq, Repr

namespace SrsChunkStream

/-- A chunk stream that nothing was read on yet, in the cache or in the map. -/
def new (cid : Nat) : SrsChunkStream :=
  { cid, header := { perferCid := cid }, extendedTimestamp := false, msg := none, msgCount := 0 }

end SrsChunkStream

/-- How the writes end that a received message may lead to: of an acknowledgement, where the window is used
up, and of the response to a ping request. -/
structure Responses where
  acknowledgement : Except SrsError Unit := .ok ()
  ping : Except SrsError Unit := .ok ()

/-- The reading half: the chunk streams in `cs_cache` and those in the map are one family. The writes that
the messages to come lead to end as in `responses`, and succeed after these. -/
structure SrsProtocol (β : Type) where
  inBuffer : β
  inChunkSize : Nat := protocolChunkSize
  chunkStreams : Nat → SrsChunkStream := SrsChunkStream.new
  responses : List Responses := []

section Reading

variable {β : Type} [ByteSource SrsError β]

abbrev Reading (β : Type) (α : Type) : Type := EStateM SrsError (SrsProtocol β) α

/-- A call on `in_buffer`. -/
def onBuffer {α : Type} (call : EStateM SrsError β α) : Reading β α := fun p =>
  match call.run p.inBuffer with
  | .ok a b => .ok a { p with inBuffer := b }
  | .error e b => .error e { p with inBuffer := b }

/-- `grow` and then `read_slice` of as many bytes. -/
def readSlice (n : Nat) : Reading β (List UInt8) :=
  onBuffer (ByteSource.read n)

/-- `grow`, `read_slice` and then `skip` back. -/
def peekSlice (n : Nat) : Reading β (List UInt8) :=
  onBuffer (ByteSource.peek n)

def read1Byte : Reading β UInt8 := do
  let slice ← readSlice 1
  return slice.headD 0

def getChunk (cid : Nat) : Reading β SrsChunkStream := do
  return (← get).chunkStreams cid

def getInChunkSize : Reading β Nat := do
  return (← get).inChunkSize

def modifyChunk (cid : Nat) (f : SrsChunkStream → SrsChunkStream) : Reading β Unit :=
  modify fun p => { p with chunkStreams := Function.update p.chunkStreams cid (f (p.chunkStreams cid)) }

/-- The `fmt` and the chunk stream id. -/
def readBasicHeader : Reading β (Nat × Nat) := do
  let first ← read1Byte
  let cid := first.toNat &&& 0x3f
  let fmt := (first.toNat >>> 6) &&& 0x03
  -- 2-63, 1B chunk header
  if cid > 1 then
    return (fmt, cid)
  -- 64-319, 2B chunk header
  else if cid = 0 then
    let second ← read1Byte
    return (fmt, 64 + second.toNat)
  -- 64-65599, 3B chunk header
  else
    let more ← readSlice 2
    return (fmt, 64 + (more.headD 0).toNat + (more.getD 1 0).toNat * 256)

def mhSizes (fmt : Nat) : Nat :=
  if fmt = 0 then 11 else if fmt = 1 then 7 else if fmt = 2 then 3 else 0

namespace SrsChunkStream

/-- The three bytes of a header that carries a timestamp or a delta. -/
def setTimestamp (fmt delta : Nat) (chunk : SrsChunkStream) : SrsChunkStream :=
  let extended := decide (delta ≥ Rtmp.extendedTimestamp)
  { chunk with
    extendedTimestamp := extended
    header := { chunk.header with
      timestampDelta := delta
      timestamp :=
        if extended then chunk.header.timestamp
        else if fmt = 0 then delta
        else chunk.header.timestamp + delta } }

def setLength (length : Nat) (type : UInt8) (chunk : SrsChunkStream) : SrsChunkStream :=
  { chunk with header := { chunk.header with payloadLength := length, messageType := type } }

def setStreamId (streamId : Nat) (chunk : SrsChunkStream) : SrsChunkStream :=
  { chunk with header := { chunk.header with streamId } }

def setMsg (msg : Option SrsCommonMessage) (chunk : SrsChunkStream) : SrsChunkStream :=
  { chunk with msg }

/-- A message that starts with no header of its own goes on by the delta of the one before. -/
def addDelta (chunk : SrsChunkStream) : SrsChunkStream :=
  { chunk with header := { chunk.header with timestamp := chunk.header.timestamp + chunk.header.timestampDelta } }

def setExtended (timestamp : Nat) (chunk : SrsChunkStream) : SrsChunkStream :=
  { chunk with header := { chunk.header with timestamp } }

/-- The end of `read_message_header`: 31 bits of the timestamp are kept, and the message gets the header. -/
def closeHeader (chunk : SrsChunkStream) : SrsChunkStream :=
  let header := { chunk.header with timestamp := chunk.header.timestamp % 2 ^ 31 }
  { chunk with
    header
    msg := chunk.msg.map fun msg => { msg with header }
    msgCount := chunk.msgCount + 1 }

end SrsChunkStream

/-- The message header proper, after the checks that tell whether one may come. -/
def parseMessageHeader (cid fmt : Nat) (isFirstChunkOfMsg : Bool) : Reading β Unit := do
  if fmt ≤ 2 then
    let slice ← readSlice (mhSizes fmt)
    modifyChunk cid (·.setTimestamp fmt (ofBigEndian (slice.take 3)))
    if fmt ≤ 1 then
      let payloadLength := ofBigEndian ((slice.drop 3).take 3)
      let chunk ← getChunk cid
      if ¬ isFirstChunkOfMsg ∧ chunk.header.payloadLength ≠ payloadLength then
        throw .rtmpPacketSize
      else
        modifyChunk cid (·.setLength payloadLength (slice.getD 6 0))
        if fmt = 0 then
          modifyChunk cid (·.setStreamId (ofLittleEndian ((slice.drop 7).take 4)))
  else
    let chunk ← getChunk cid
    if isFirstChunkOfMsg ∧ ¬ chunk.extendedTimestamp then
      modifyChunk cid (·.addDelta)

/-- In a chunk that goes on with a message, four bytes that differ from its timestamp are payload. -/
def readExtendedTimestamp (cid : Nat) (isFirstChunkOfMsg : Bool) : Reading β Unit := do
  let chunk ← getChunk cid
  if chunk.extendedTimestamp then
    let slice ← peekSlice 4
    let timestamp := ofBigEndian slice % 2 ^ 31
    let chunkTimestamp := chunk.header.timestamp % 2 ^ 32
    if ¬ isFirstChunkOfMsg ∧ chunkTimestamp > 0 ∧ chunkTimestamp ≠ timestamp then
      return ()
    else
      let _ ← readSlice 4
      modifyChunk cid (·.setExtended timestamp)

namespace SrsChunkStream

/-- The message is made when its first chunk comes. -/
def createMsg (chunk : SrsChunkStream) : SrsChunkStream :=
  { chunk with msg := some (chunk.msg.getD {}) }

end SrsChunkStream

def readMessageHeader (cid fmt : Nat) : Reading β Unit := do
  let chunk ← getChunk cid
  let isFirstChunkOfMsg := chunk.msg.isNone
  -- a fresh chunk stream starts with all the fields, but for a ping of librtmp
  if chunk.msgCount = 0 ∧ fmt ≠ 0 ∧ ¬ (chunk.cid = cidProtocolControl ∧ fmt = 1) then
    throw .rtmpChunkStart
  -- a message under way cannot start anew
  else if chunk.msg.isSome ∧ fmt = 0 then
    throw .rtmpChunkStart
  else
    modifyChunk cid (·.createMsg)
    parseMessageHeader cid fmt isFirstChunkOfMsg
    readExtendedTimestamp cid isFirstChunkOfMsg
    modifyChunk cid (·.closeHeader)

/-- The whole message, once the last of its chunks is read. -/
def readMessagePayload (cid : Nat) : Reading β (Option SrsCommonMessage) := do
  let chunk ← getChunk cid
  match chunk.msg with
  -- `read_message_header` has made the message
  | none => return none
  | some msg =>
    if chunk.header.payloadLength = 0 then
      modifyChunk cid (·.setMsg none)
      return some msg
    else
      let payloadSize := min (chunk.header.payloadLength - msg.size) (← getInChunkSize)
      let msg := { msg with allocated := some (msg.allocated.getD chunk.header.payloadLength) }
      modifyChunk cid (·.setMsg (some msg))
      let slice ← readSlice payloadSize
      let msg := { msg with payload := msg.payload ++ slice }
      if chunk.header.payloadLength = msg.size then
        modifyChunk cid (·.setMsg none)
        return some msg
      else
        modifyChunk cid (·.setMsg (some msg))
        return none

def recvInterlacedMessage : Reading β (Option SrsCommonMessage) := do
  let (fmt, cid) ← readBasicHeader
  readMessageHeader cid fmt
  readMessagePayload cid

end Reading

/-- The packets that `on_recv_message` looks into. -/
inductive SrsPacket
  | setChunkSize (chunkSize : Int)
  | userControl (eventType : Nat) (eventData : Int) (extraData : Int)
  | setWindowAckSize (ackowledgementWindowSize : Int)
  deriving DecidableEq, Repr

/-- `read_4bytes` of a stream. -/
def read4Bytes (bytes : List UInt8) : Int :=
  (Int.ofNat (ofBigEndian (bytes.take 4))).bmod (2 ^ 32)

/-- `read_1bytes` of a stream. -/
def read1Bytes (bytes : List UInt8) : Int :=
  (Int.ofNat (ofBigEndian (bytes.take 1))).bmod (2 ^ 8)

def decodeUserControl (bytes : List UInt8) : Except SrsError SrsPacket :=
  if bytes.length < 2 then .error .rtmpMessageDecode
  else
    let eventType := ofBigEndian (bytes.take 2)
    let bytes := bytes.drop 2
    if eventType = pcucFmsEvent0 then
      if bytes.length < 1 then .error .rtmpMessageDecode
      else .ok (.userControl eventType (read1Bytes bytes) 0)
    else if bytes.length < 4 then .error .rtmpMessageDecode
    else if eventType = pcucSetBufferLength then
      if bytes.length < 8 then .error .rtmpMessageEncode
      else .ok (.userControl eventType (read4Bytes bytes) (read4Bytes (bytes.drop 4)))
    else .ok (.userControl eventType (read4Bytes bytes) 0)

/-- `decode_message`, on the three types that `on_recv_message` has it decode. -/
def decodeMessage (type : UInt8) (payload : List UInt8) : Except SrsError (Option SrsPacket) :=
  if type = msgUserControlMessage then (decodeUserControl payload).map some
  else if type = msgWindowAcknowledgementSize then
    if payload.length < 4 then .error .rtmpMessageDecode
    else .ok (some (.setWindowAckSize (read4Bytes payload)))
  else if type = msgSetChunkSize then
    if payload.length < 4 then .error .rtmpMessageDecode
    else .ok (some (.setChunkSize (read4Bytes payload)))
  else .ok none

/-- What a message does to the size of the chunks that follow it; to a ping request there is a response. -/
def controlChunkSize (response : Except SrsError Unit) (type : UInt8) (payload : List UInt8) (inChunkSize : Nat) :
    Except SrsError Nat :=
  match decodeMessage type payload with
  | .error e => .error e
  | .ok (some (.setChunkSize chunkSize)) =>
    if chunkSize < (minChunkSize : Int) then .error .rtmpChunkSize else .ok chunkSize.toNat
  | .ok (some (.userControl eventType _ _)) =>
    if eventType = pcucPingRequest then response.map fun _ => inChunkSize else .ok inChunkSize
  | .ok _ => .ok inChunkSize

section Receiving

variable {β : Type} [ByteSource SrsError β]

def onRecvMessage (msg : SrsCommonMessage) : Reading β Unit := fun p =>
  let written := p.responses.headD {}
  let p := { p with responses := p.responses.tail }
  match written.acknowledgement with
  | .error e => .error e p
  | .ok () =>
    match controlChunkSize written.ping msg.header.messageType msg.payload p.inChunkSize with
    | .error e => .error e p
    | .ok inChunkSize => .ok () { p with inChunkSize }

/-- One turn of the loop in `recv_message`. -/
def recvMessageTurn : Reading β (Option SrsCommonMessage) := do
  match ← recvInterlacedMessage with
  | none => return none
  | some msg =>
    if msg.size = 0 ∨ msg.header.payloadLength = 0 then
      return none
    else
      onRecvMessage msg
      return some msg

/-- The loop, of at most `fuel` turns. -/
def recvMessage : Nat → Reading β (Option SrsCommonMessage)
  | 0 => return none
  | fuel + 1 => do
    match ← recvMessageTurn with
    | none => recvMessage fuel
    | some msg => return some msg

/-- A caller that asks for message after message, at most `calls` of them, until it is refused. -/
def receive (fuel : Nat) : Nat → SrsProtocol β → List SrsCommonMessage × Option SrsError
  | 0, _ => ([], none)
  | calls + 1, p =>
    match (recvMessage fuel).run p with
    | .ok (some msg) q =>
      let rest := receive fuel calls q
      (msg :: rest.1, rest.2)
    | .ok none _ => ([], none)
    | .error e _ => ([], some e)

end Receiving

end AdTerminal.Rtmp
