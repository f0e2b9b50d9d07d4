import AdTerminal.Rtmp.SrsProtocol

/-! The sending half of `SrsProtocol`. A write to the socket does not fail here. -/

namespace AdTerminal.Rtmp

open BigEndian

def maxFmt0HeaderSize : Nat := 16
def maxFmt3HeaderSize : Nat := 5
def c0c3HeadersMax : Nat := 128 * 32

/-- The four bytes that follow a header whose timestamp does not fit in three. -/
def extendedField (timestamp : Nat) : List UInt8 :=
  if timestamp ≥ extendedTimestamp then bigEndian 4 timestamp else []

/-- `timestamp` is a `u_int32_t`; no bytes are written where the cache is too small. -/
def srsChunkHeaderC0 (perferCid timestamp payloadLength : Nat) (messageType : UInt8) (streamId nbCache : Nat) :
    List UInt8 :=
  if nbCache < maxFmt0HeaderSize then []
  else
    [UInt8.ofNat (perferCid &&& 0x3F)]
      ++ bigEndian 3 (if timestamp < extendedTimestamp then timestamp else 0xFFFFFF)
      ++ bigEndian 3 payloadLength
      ++ [messageType]
      ++ littleEndian 4 streamId
      ++ extendedField timestamp

def srsChunkHeaderC3 (perferCid timestamp nbCache : Nat) : List UInt8 :=
  if nbCache < maxFmt3HeaderSize then []
  else [UInt8.ofNat (0xC0 ||| (perferCid &&& 0x3F))] ++ extendedField timestamp

structure SrsSharedPtrMessage where
  messageType : UInt8
  perferCid : Nat
  payload : List UInt8
  timestamp : Nat
  streamId : Nat
  deriving DecidableEq, Repr

namespace SrsSharedPtrMessage

/-- The message gets the stream id; whether it had it already. -/
def check (streamId : Nat) (msg : SrsSharedPtrMessage) : Bool × SrsSharedPtrMessage :=
  let perferCid := if msg.perferCid < 2 then cidProtocolControl else msg.perferCid
  (decide (msg.streamId = streamId), { msg with perferCid, streamId })

def chunkHeader (msg : SrsSharedPtrMessage) (nbCache : Nat) (c0 : Bool) : List UInt8 :=
  if c0 then
    srsChunkHeaderC0 msg.perferCid (msg.timestamp % 2 ^ 32) msg.payload.length msg.messageType msg.streamId nbCache
  else
    srsChunkHeaderC3 msg.perferCid (msg.timestamp % 2 ^ 32) nbCache

end SrsSharedPtrMessage

/-- The vectors not handed to the socket yet, and how much of the header cache they take. -/
structure Iovs where
  written : List UInt8 := []
  iovs : List (List UInt8) := []
  c0c3CacheIndex : Nat := 0
  deriving DecidableEq, Repr

namespace Iovs

def doIovsSend (io : Iovs) : Iovs :=
  { written := io.written ++ io.iovs.flatten, iovs := [], c0c3CacheIndex := 0 }

/-- One turn of the loop over a message's chunks; `none` where the assertion on the header fails. -/
def putChunk (outChunkSize : Nat) (msg : SrsSharedPtrMessage) (p : Nat) (io : Iovs) : Option Iovs :=
  let header := msg.chunkHeader (c0c3HeadersMax - io.c0c3CacheIndex) (decide (p = 0))
  if header.length = 0 then none
  else
    let payloadSize := min outChunkSize (msg.payload.length - p)
    let io := { io with
      iovs := io.iovs ++ [header, (msg.payload.drop p).take payloadSize]
      c0c3CacheIndex := io.c0c3CacheIndex + header.length }
    -- when c0c3 cache dry
    if c0c3HeadersMax - io.c0c3CacheIndex < maxFmt0HeaderSize then some io.doIovsSend else some io

/-- The loop, of at most `fuel` turns. -/
def putMessage (outChunkSize : Nat) (msg : SrsSharedPtrMessage) : Nat → Nat → Iovs → Option Iovs
  | 0, _, io => some io
  | fuel + 1, p, io =>
    if p < msg.payload.length then do
      let io ← putChunk outChunkSize msg p io
      putMessage outChunkSize msg fuel (p + min outChunkSize (msg.payload.length - p)) io
    else some io

def putMessages (outChunkSize : Nat) : List SrsSharedPtrMessage → Iovs → Option Iovs
  | [], io => some io
  | msg :: msgs, io => do
    -- an empty message has no turn
    let io ← putMessage outChunkSize msg msg.payload.length 0 io
    putMessages outChunkSize msgs io

end Iovs

/-- What reaches the socket. -/
def doSendMessages (outChunkSize : Nat) (msgs : List SrsSharedPtrMessage) : Option (List UInt8) := do
  let io ← Iovs.putMessages outChunkSize msgs {}
  return if io.iovs = [] then io.written else io.doIovsSend.written

/-- The messages up to the first that has the stream id already get it. -/
def checkMessages (streamId : Nat) : List SrsSharedPtrMessage → List SrsSharedPtrMessage
  | [] => []
  | msg :: msgs =>
    let checked := msg.check streamId
    if checked.1 then checked.2 :: msgs else checked.2 :: checkMessages streamId msgs

/-- `send_and_free_messages`. -/
def sendAndFreeMessages (outChunkSize : Nat) (msgs : List SrsSharedPtrMessage) (streamId : Nat) :
    Option (List UInt8) :=
  doSendMessages outChunkSize (checkMessages streamId msgs)

/-- One turn of `do_simple_send`; the cache on the stack is large enough for either header. -/
def simpleChunk (outChunkSize : Nat) (mh : SrsMessageHeader) (payload : List UInt8) (p : Nat) : List UInt8 :=
  let header :=
    if p = 0 then
      srsChunkHeaderC0 mh.perferCid (mh.timestamp % 2 ^ 32) mh.payloadLength mh.messageType mh.streamId
        maxFmt0HeaderSize
    else
      srsChunkHeaderC3 mh.perferCid (mh.timestamp % 2 ^ 32) maxFmt0HeaderSize
  header ++ (payload.drop p).take (min outChunkSize (payload.length - p))

/-- The loop, of at most `fuel` turns. -/
def doSimpleSend (outChunkSize : Nat) (mh : SrsMessageHeader) (payload : List UInt8) : Nat → Nat → List UInt8
  | 0, _ => []
  | fuel + 1, p =>
    if p < payload.length then
      simpleChunk outChunkSize mh payload p ++
        doSimpleSend outChunkSize mh payload fuel (p + min outChunkSize (payload.length - p))
    else []

/-- What a caller hands to `send_and_free_packet`; of the packets' own encodings only the one
that the sender looks into is spelled out. -/
inductive OutPacket
  | setChunkSize (chunkSize : Nat)
  | other (messageType : UInt8) (preferCid : Nat) (payload : List UInt8)
  deriving DecidableEq, Repr

namespace OutPacket

def messageType : OutPacket → UInt8
  | setChunkSize _ => msgSetChunkSize
  | other messageType _ _ => messageType

def preferCid : OutPacket → Nat
  | setChunkSize _ => cidProtocolControl
  | other _ preferCid _ => preferCid

def encode : OutPacket → List UInt8
  | setChunkSize chunkSize => bigEndian 4 chunkSize
  | other _ _ payload => payload

end OutPacket

/-- `on_send_packet`. -/
def onSendPacket (packet : OutPacket) (outChunkSize : Nat) : Nat :=
  match packet with
  | .setChunkSize chunkSize => chunkSize
  | .other .. => outChunkSize

/-- `send_and_free_packet`: what is written, and the chunk size from then on. -/
def sendAndFreePacket (outChunkSize : Nat) (packet : OutPacket) (streamId : Nat) : List UInt8 × Nat :=
  let payload := packet.encode
  if payload.length = 0 then ([], outChunkSize)
  else
    let header : SrsMessageHeader :=
      { payloadLength := payload.length, messageType := packet.messageType, streamId, perferCid := packet.preferCid }
    (doSimpleSend outChunkSize header payload payload.length 0, onSendPacket packet outChunkSize)

end AdTerminal.Rtmp
