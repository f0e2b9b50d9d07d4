import AdTerminal.Library.BigEndian
import AdTerminal.Library.Transition

/-! A peer that sends RTMP messages on several chunk streams at once: between two chunks of one message
it may send chunks of others, and it may leave out of a message's header what has not changed on its
chunk stream. -/

namespace AdTerminal.Rtmp

open BigEndian

/-- A message that can be sent in chunks. -/
structure RtmpMessage where
  messageType : UInt8
  streamId : Nat
  timestamp : Nat
  payload : List UInt8
  streamId_lt : streamId < 2 ^ 32
  timestamp_lt : timestamp < 2 ^ 32
  nonempty : 0 < payload.length
  length_lt : payload.length < 2 ^ 24

def controlEvent (payload : List UInt8) : Nat :=
  ofBigEndian (payload.take 2)

def announcedChunkSize (payload : List UInt8) : Nat :=
  ofBigEndian (payload.take 4)

/-- A control message has the fields of its kind, and announces no chunk size under 128. -/
def WellFormedControl (messageType : UInt8) (payload : List UInt8) : Prop :=
  (messageType = 1 → 4 ≤ payload.length ∧ 128 ≤ announcedChunkSize payload ∧ announcedChunkSize payload < 2 ^ 31) ∧
    (messageType = 4 → 3 ≤ payload.length ∧ (controlEvent payload ≠ 26 → 6 ≤ payload.length) ∧
      (controlEvent payload = 3 → 10 ≤ payload.length)) ∧
    (messageType = 5 → 4 ≤ payload.length)

instance (messageType : UInt8) (payload : List UInt8) : Decidable (WellFormedControl messageType payload) :=
  inferInstanceAs (Decidable (_ ∧ _ ∧ _))

/-- The timestamps below this one fit in the three bytes of a header. -/
def timestampEscape : Nat := 0xFFFFFF

namespace RtmpMessage

/-- Receivers compute with 31 bits of the timestamp. -/
def clock (msg : RtmpMessage) : Nat :=
  msg.timestamp % 2 ^ 31

/-- The event of a user control message. -/
def event (msg : RtmpMessage) : Nat :=
  controlEvent msg.payload

/-- The chunk size that a set chunk size message announces. -/
def announced (msg : RtmpMessage) : Nat :=
  announcedChunkSize msg.payload

def WellFormed (msg : RtmpMessage) : Prop :=
  WellFormedControl msg.messageType msg.payload

instance (msg : RtmpMessage) : Decidable msg.WellFormed :=
  inferInstanceAs (Decidable (WellFormedControl _ _))

/-- The size of the chunks after the message. -/
def chunkSizeAfter (msg : RtmpMessage) (chunkSize : Nat) : Nat :=
  if msg.messageType = 1 then msg.announced else chunkSize

end RtmpMessage

/-- How much of its header a message is sent with. -/
inductive HeaderKind
  | full
  /-- on the message stream of the one before, so much later -/
  | sameStream (delta : Nat)
  /-- and of the same type and length -/
  | sameLength (delta : Nat)
  /-- and as much later as the one before was -/
  | sameDelta
  deriving DecidableEq, Repr

/-- The header that the next message on a chunk stream can refer to. -/
structure LastHeader where
  field : Nat
  length : Nat
  messageType : UInt8
  streamId : Nat
  clock : Nat

namespace LastHeader

/-- The timestamp was too large for the header. -/
def Escaped (last : LastHeader) : Prop :=
  timestampEscape ≤ last.field

instance (last : LastHeader) : Decidable last.Escaped :=
  inferInstanceAs (Decidable (_ ≤ _))

end LastHeader

/-- A chunk stream as its sender sees it: the header sent last, and the message under way with the
number of its bytes already sent. -/
structure Lane where
  last : Option LastHeader := none
  pending : Option (RtmpMessage × Nat) := none

namespace HeaderKind

def fmt : HeaderKind → Nat
  | full => 0
  | sameStream _ => 1
  | sameLength _ => 2
  | sameDelta => 3

/-- What the header leaves out is as in the one before. -/
def Continues (kind : HeaderKind) (last : LastHeader) (msg : RtmpMessage) : Prop :=
  match kind with
  | full => True
  | sameStream delta =>
    delta < timestampEscape ∧ last.streamId = msg.streamId ∧ (last.clock + delta) % 2 ^ 31 = msg.clock
  | sameLength delta =>
    delta < timestampEscape ∧ last.streamId = msg.streamId ∧ (last.clock + delta) % 2 ^ 31 = msg.clock ∧
      last.length = msg.payload.length ∧ last.messageType = msg.messageType
  | sameDelta =>
    last.streamId = msg.streamId ∧ last.length = msg.payload.length ∧ last.messageType = msg.messageType ∧
      (last.Escaped ∨ (last.clock + last.field) % 2 ^ 31 = msg.clock)

instance (last : LastHeader) (msg : RtmpMessage) : ∀ kind : HeaderKind, Decidable (kind.Continues last msg)
  | full => .isTrue trivial
  | sameStream _ => inferInstanceAs (Decidable (_ ∧ _))
  | sameLength _ => inferInstanceAs (Decidable (_ ∧ _))
  | sameDelta => inferInstanceAs (Decidable (_ ∧ _))

/-- The kind of header may be used; nothing can be left out of the first one. -/
def Fits (kind : HeaderKind) (lane : Lane) (msg : RtmpMessage) : Prop :=
  match lane.last with
  | some last => kind.Continues last msg
  | none => kind = full

instance (kind : HeaderKind) (msg : RtmpMessage) : ∀ lane : Lane, Decidable (kind.Fits lane msg)
  | ⟨some last, _⟩ => inferInstanceAs (Decidable (kind.Continues last msg))
  | ⟨none, _⟩ => inferInstanceAs (Decidable (kind = full))

/-- What the three bytes for the timestamp are set to. -/
def field (kind : HeaderKind) (lane : Lane) (msg : RtmpMessage) : Nat :=
  match kind with
  | full => min msg.timestamp timestampEscape
  | sameStream delta => delta
  | sameLength delta => delta
  | sameDelta => (lane.last.map LastHeader.field).getD 0

/-- The header left behind on the chunk stream. -/
def leaves (kind : HeaderKind) (lane : Lane) (msg : RtmpMessage) : LastHeader :=
  { field := kind.field lane msg
    length := msg.payload.length
    messageType := msg.messageType
    streamId := msg.streamId
    clock := msg.clock }

/-- The message header. -/
def bytes (kind : HeaderKind) (msg : RtmpMessage) : List UInt8 :=
  match kind with
  | full =>
    bigEndian 3 (min msg.timestamp timestampEscape) ++ bigEndian 3 msg.payload.length ++ [msg.messageType]
      ++ littleEndian 4 msg.streamId
  | sameStream delta => bigEndian 3 delta ++ bigEndian 3 msg.payload.length ++ [msg.messageType]
  | sameLength delta => bigEndian 3 delta
  | sameDelta => []

end HeaderKind

/-- A chunk stream id in the smallest form that has room for it. -/
def basicHeader (fmt cid : Nat) : List UInt8 :=
  if cid < 64 then [UInt8.ofNat (fmt * 64 + cid)]
  else if cid < 320 then [UInt8.ofNat (fmt * 64), UInt8.ofNat (cid - 64)]
  else [UInt8.ofNat (fmt * 64 + 1), UInt8.ofNat (cid - 64), UInt8.ofNat ((cid - 64) / 256)]

/-- The timestamp in full, in each chunk of a message whose header has no room for it. -/
def escapedTimestamp (last : LastHeader) (msg : RtmpMessage) : List UInt8 :=
  if last.Escaped then bigEndian 4 msg.timestamp else []

/-- What arrives: a whole message and the chunk stream it came on. -/
structure Arrived where
  cid : Nat
  messageType : UInt8
  streamId : Nat
  clock : Nat
  payload : List UInt8
  deriving DecidableEq, Repr

namespace RtmpMessage

def arrived (msg : RtmpMessage) (cid : Nat) : Arrived :=
  { cid, messageType := msg.messageType, streamId := msg.streamId, clock := msg.clock, payload := msg.payload }

end RtmpMessage

/-- The peer: what it has sent so far, and the messages that are complete in it. -/
structure Mux where
  chunkSize : Nat := 128
  lanes : Nat → Lane := fun _ => {}
  sent : List UInt8 := []
  done : List Arrived := []

/-- The first chunk of a message, or the next one of the message under way. -/
inductive ChunkEvent
  | start (cid : Nat) (kind : HeaderKind) (msg : RtmpMessage)
  | next (cid : Nat)

namespace Mux

/-- A chunk of a message of which `offset` bytes are sent: the rest of it, as far as a chunk has room. -/
def chunkBytes (mux : Mux) (header : List UInt8) (last : LastHeader) (msg : RtmpMessage) (offset : Nat) : List UInt8 :=
  header ++ escapedTimestamp last msg ++
    (msg.payload.take (offset + min mux.chunkSize (msg.payload.length - offset))).drop offset

def putChunk (mux : Mux) (cid : Nat) (header : List UInt8) (last : LastHeader) (msg : RtmpMessage) (offset : Nat) :
    Mux :=
  let stop := offset + min mux.chunkSize (msg.payload.length - offset)
  let sent := mux.sent ++ mux.chunkBytes header last msg offset
  if stop = msg.payload.length then
    { chunkSize := msg.chunkSizeAfter mux.chunkSize
      lanes := Function.update mux.lanes cid { last := some last, pending := none }
      sent
      done := mux.done ++ [msg.arrived cid] }
  else
    { mux with lanes := Function.update mux.lanes cid { last := some last, pending := some (msg, stop) }, sent }

theorem sent_putChunk (mux : Mux) (cid : Nat) (header : List UInt8) (last : LastHeader) (msg : RtmpMessage)
    (offset : Nat) :
    (mux.putChunk cid header last msg offset).sent = mux.sent ++ mux.chunkBytes header last msg offset := by
  simp only [putChunk]
  split <;> rfl

def step (mux : Mux) : ChunkEvent → Option Mux
  | .start cid kind msg =>
    let lane := mux.lanes cid
    if 2 ≤ cid ∧ cid < 65600 ∧ lane.pending.isNone ∧ kind.Fits lane msg ∧ msg.WellFormed then
      some (mux.putChunk cid (basicHeader kind.fmt cid ++ kind.bytes msg) (kind.leaves lane msg) msg 0)
    else none
  | .next cid =>
    match mux.lanes cid with
    | { last := some last, pending := some (msg, offset) } =>
      some (mux.putChunk cid (basicHeader 3 cid) last msg offset)
    | _ => none

end Mux

end AdTerminal.Rtmp
