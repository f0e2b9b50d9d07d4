import AdTerminal.Rtmp.Demultiplexing
import AdTerminal.Rtmp.SrsSending

/-! The library's own sender as one such peer: it sends its messages one after the other, each with a
header in full, and writes the same bytes whether it collects chunks in the header cache or not. -/

namespace AdTerminal.Rtmp

open BigEndian Simulation Transition

theorem length_extendedField (timestamp : Nat) : (extendedField timestamp).length ≤ 4 := by
  unfold extendedField
  split <;> simp

namespace SrsSharedPtrMessage

/-- The header that `do_simple_send` would be given for the message. -/
def header (msg : SrsSharedPtrMessage) : SrsMessageHeader :=
  { payloadLength := msg.payload.length
    messageType := msg.messageType
    streamId := msg.streamId
    timestamp := msg.timestamp
    perferCid := msg.perferCid }

/-- Room for the larger of the headers is room for each. -/
theorem chunkHeader_of_room (msg : SrsSharedPtrMessage) {nbCache : Nat} (room : maxFmt0HeaderSize ≤ nbCache) (c0 : Bool) :
    msg.chunkHeader nbCache c0 = msg.chunkHeader maxFmt0HeaderSize c0 := by
  have large : ¬ nbCache < maxFmt0HeaderSize := Nat.not_lt.mpr room
  have large' : ¬ nbCache < maxFmt3HeaderSize :=
    Nat.not_lt.mpr (le_trans (by decide : maxFmt3HeaderSize ≤ maxFmt0HeaderSize) room)
  have least : ¬ maxFmt0HeaderSize < maxFmt3HeaderSize := by decide
  simp only [chunkHeader, srsChunkHeaderC0, srsChunkHeaderC3, if_neg large, if_neg large', if_neg least, lt_irrefl,
    if_false]

theorem length_chunkHeader (msg : SrsSharedPtrMessage) (c0 : Bool) :
    0 < (msg.chunkHeader maxFmt0HeaderSize c0).length ∧
      (msg.chunkHeader maxFmt0HeaderSize c0).length ≤ maxFmt0HeaderSize := by
  have field := length_extendedField (msg.timestamp % 2 ^ 32)
  have size : maxFmt0HeaderSize = 16 := rfl
  have least : ¬ maxFmt0HeaderSize < maxFmt3HeaderSize := by decide
  simp only [chunkHeader, srsChunkHeaderC0, srsChunkHeaderC3, if_neg least, lt_irrefl, if_false]
  cases c0
  · rw [if_neg Bool.false_ne_true, List.length_append, List.length_singleton]
    omega
  · rw [if_pos rfl]
    simp only [List.length_append, List.length_singleton, length_bigEndian, length_littleEndian]
    omega

end SrsSharedPtrMessage

namespace Iovs

/-- What the socket has and will get of what is collected. -/
def output (io : Iovs) : List UInt8 :=
  io.written ++ io.iovs.flatten

/-- There is room for another header. -/
def Room (io : Iovs) : Prop :=
  maxFmt0HeaderSize ≤ c0c3HeadersMax - io.c0c3CacheIndex

theorem room_empty : maxFmt0HeaderSize ≤ c0c3HeadersMax - 0 := by decide

theorem output_doIovsSend (io : Iovs) : io.doIovsSend.output = io.output := by
  simp [output, doIovsSend]

theorem putChunk_output {io : Iovs} (room : io.Room) (outChunkSize : Nat) (msg : SrsSharedPtrMessage) (p : Nat) :
    ∃ io', putChunk outChunkSize msg p io = some io' ∧ io'.Room ∧
      io'.output = io.output ++ simpleChunk outChunkSize msg.header msg.payload p := by
  obtain ⟨some_header, -⟩ := msg.length_chunkHeader (decide (p = 0))
  have header := msg.chunkHeader_of_room room (decide (p = 0))
  have simple : simpleChunk outChunkSize msg.header msg.payload p =
      msg.chunkHeader maxFmt0HeaderSize (decide (p = 0)) ++
        (msg.payload.drop p).take (min outChunkSize (msg.payload.length - p)) := by
    by_cases first : p = 0
    · simp [simpleChunk, SrsSharedPtrMessage.chunkHeader, SrsSharedPtrMessage.header, first]
    · simp [simpleChunk, SrsSharedPtrMessage.chunkHeader, SrsSharedPtrMessage.header, first]
  unfold putChunk
  simp only [header]
  rw [if_neg some_header.ne']
  split
  · refine ⟨_, rfl, room_empty, ?_⟩
    rw [output_doIovsSend, simple]
    simp [output]
  next left =>
    refine ⟨_, rfl, Nat.not_lt.mp left, ?_⟩
    rw [simple]
    simp [output]

theorem putMessage_output (outChunkSize : Nat) (msg : SrsSharedPtrMessage) (fuel p : Nat) {io : Iovs} (room : io.Room) :
    ∃ io', putMessage outChunkSize msg fuel p io = some io' ∧ io'.Room ∧
      io'.output = io.output ++ doSimpleSend outChunkSize msg.header msg.payload fuel p := by
  induction fuel generalizing p io with
  | zero => exact ⟨io, rfl, room, (List.append_nil _).symm⟩
  | succ fuel ih =>
    rw [putMessage, doSimpleSend]
    by_cases more : p < msg.payload.length
    · obtain ⟨next, taken, room, output⟩ := putChunk_output room outChunkSize msg p
      obtain ⟨last, rest, room, output'⟩ := ih (p + min outChunkSize (msg.payload.length - p)) room
      rw [if_pos more, if_pos more, taken]
      exact ⟨last, rest, room, by rw [output', output, List.append_assoc]⟩
    · rw [if_neg more, if_neg more]
      exact ⟨io, rfl, room, (List.append_nil _).symm⟩

end Iovs

/-- A message written chunk by chunk. -/
def simpleSend (outChunkSize : Nat) (msg : SrsSharedPtrMessage) : List UInt8 :=
  doSimpleSend outChunkSize msg.header msg.payload msg.payload.length 0

theorem Iovs.putMessages_output (outChunkSize : Nat) (msgs : List SrsSharedPtrMessage) {io : Iovs} (room : io.Room) :
    ∃ io', putMessages outChunkSize msgs io = some io' ∧
      io'.output = io.output ++ msgs.flatMap (simpleSend outChunkSize) := by
  induction msgs generalizing io with
  | nil => exact ⟨io, rfl, by simp⟩
  | cons msg msgs ih =>
    obtain ⟨next, taken, room, output⟩ := putMessage_output outChunkSize msg msg.payload.length 0 room
    obtain ⟨last, rest, output'⟩ := ih room
    rw [putMessages, taken]
    exact ⟨last, rest, by rw [output', output, List.append_assoc]; rfl⟩

/-- The header cache never runs out under a message: collecting the chunks of any messages succeeds, and
writes what sending them chunk by chunk writes. -/
theorem doSendMessages_simple (outChunkSize : Nat) (msgs : List SrsSharedPtrMessage) :
    doSendMessages outChunkSize msgs = some (msgs.flatMap (simpleSend outChunkSize)) := by
  obtain ⟨io, taken, output⟩ := @Iovs.putMessages_output outChunkSize msgs {} Iovs.room_empty
  have written : (if io.iovs = [] then io.written else io.doIovsSend.written) = io.output := by
    split
    next none => simp [Iovs.output, none]
    next => rfl
  unfold doSendMessages
  rw [taken]
  exact congrArg some (written.trans output)

/-- No message is under way on any chunk stream. -/
def Mux.Idle (mux : Mux) : Prop :=
  ∀ cid, (mux.lanes cid).pending = none

theorem low_bits {cid : Nat} (small : cid < 64) : cid &&& 0x3F = cid ∧ 0xC0 ||| (cid &&& 0x3F) = 3 * 64 + cid := by
  revert small
  revert cid
  decide

theorem basicHeader_small {fmt cid : Nat} (small : cid < 64) : basicHeader fmt cid = [UInt8.ofNat (fmt * 64 + cid)] :=
  if_pos small

/-- The library's header in full is the peer's. -/
theorem srsChunkHeaderC0_eq {cid : Nat} (small : cid < 64) (lane : Lane) (msg : RtmpMessage) :
    srsChunkHeaderC0 cid msg.timestamp msg.payload.length msg.messageType msg.streamId maxFmt0HeaderSize =
      basicHeader 0 cid ++ HeaderKind.full.bytes msg ++ escapedTimestamp (HeaderKind.full.leaves lane msg) msg := by
  have time : (if msg.timestamp < extendedTimestamp then msg.timestamp else 0xFFFFFF) =
      min msg.timestamp timestampEscape := by
    have same : extendedTimestamp = timestampEscape := rfl
    have value : timestampEscape = 0xFFFFFF := rfl
    split <;> omega
  have escaped : (HeaderKind.full.leaves lane msg).Escaped ↔ msg.timestamp ≥ extendedTimestamp := by
    have same : extendedTimestamp = timestampEscape := rfl
    simp only [LastHeader.Escaped, HeaderKind.leaves, HeaderKind.field]
    omega
  unfold srsChunkHeaderC0 HeaderKind.bytes escapedTimestamp extendedField
  rw [if_neg (lt_irrefl _), time, (low_bits small).1, basicHeader_small small, Nat.zero_mul, Nat.zero_add]
  simp only [List.append_assoc, escaped]

theorem srsChunkHeaderC3_eq {cid : Nat} (small : cid < 64) (lane : Lane) (msg : RtmpMessage) :
    srsChunkHeaderC3 cid msg.timestamp maxFmt0HeaderSize =
      basicHeader 3 cid ++ escapedTimestamp (HeaderKind.full.leaves lane msg) msg := by
  have escaped : (HeaderKind.full.leaves lane msg).Escaped ↔ msg.timestamp ≥ extendedTimestamp := by
    have same : extendedTimestamp = timestampEscape := rfl
    simp only [LastHeader.Escaped, HeaderKind.leaves, HeaderKind.field]
    omega
  have room : ¬ maxFmt0HeaderSize < maxFmt3HeaderSize := by decide
  unfold srsChunkHeaderC3 escapedTimestamp extendedField
  rw [if_neg room, (low_bits small).2, basicHeader_small small]
  simp only [escaped]

/-- The header that the library sends the message with on a chunk stream. -/
def RtmpMessage.srsHeader (msg : RtmpMessage) (cid : Nat) : SrsMessageHeader :=
  { payloadLength := msg.payload.length
    messageType := msg.messageType
    streamId := msg.streamId
    timestamp := msg.timestamp
    perferCid := cid }

theorem drop_take_eq {α : Type} (xs : List α) (p n : Nat) : (xs.take (p + n)).drop p = (xs.drop p).take n := by
  rw [List.drop_take, Nat.add_sub_cancel_left]

/-- One turn of the library's loop is one chunk of the peer. -/
theorem simpleChunk_eq {cid : Nat} (small : cid < 64) (mux : Mux) (lane : Lane) (msg : RtmpMessage) (p : Nat) :
    simpleChunk mux.chunkSize (msg.srsHeader cid) msg.payload p =
      mux.chunkBytes (if p = 0 then basicHeader 0 cid ++ HeaderKind.full.bytes msg else basicHeader 3 cid)
        (HeaderKind.full.leaves lane msg) msg p := by
  have clock : msg.timestamp % 2 ^ 32 = msg.timestamp := Nat.mod_eq_of_lt msg.timestamp_lt
  unfold simpleChunk Mux.chunkBytes RtmpMessage.srsHeader
  simp only [clock, drop_take_eq]
  by_cases first : p = 0
  · simp only [first, if_true, srsChunkHeaderC0_eq small lane msg]
  · simp only [first, if_false, srsChunkHeaderC3_eq small lane msg]

/-- From a chunk of a message on, going on with it alone sends what is left of it. -/
theorem chunks_run {cid : Nat} (small : cid < 64) (msg : RtmpMessage) (lane : Lane) (left : Nat) {mux : Mux} {p : Nat}
    {event : ChunkEvent}
    (taken : mux.step event = some (mux.putChunk cid
      (if p = 0 then basicHeader 0 cid ++ HeaderKind.full.bytes msg else basicHeader 3 cid)
      (HeaderKind.full.leaves lane msg) msg p))
    (others : ∀ other, other ≠ cid → (mux.lanes other).pending = none) (some_left : p < msg.payload.length)
    (amount : msg.payload.length - p ≤ left) (chunks : 0 < mux.chunkSize) :
    ∃ events mux', run Mux.step mux events = some mux' ∧
      mux'.sent = mux.sent ++ doSimpleSend mux.chunkSize (msg.srsHeader cid) msg.payload left p ∧
      mux'.chunkSize = msg.chunkSizeAfter mux.chunkSize ∧ mux'.Idle ∧ mux'.done = mux.done ++ [msg.arrived cid] := by
  induction left generalizing mux p event with
  | zero => omega
  | succ left ih =>
    set header := if p = 0 then basicHeader 0 cid ++ HeaderKind.full.bytes msg else basicHeader 3 cid with isHeader
    have sent := Mux.sent_putChunk mux cid header (HeaderKind.full.leaves lane msg) msg p
    rw [isHeader, ← simpleChunk_eq small mux lane msg p, ← isHeader] at sent
    by_cases complete : p + min mux.chunkSize (msg.payload.length - p) = msg.payload.length
    · refine ⟨[event], _, by simp only [run, taken]; rfl, ?_, ?_, ?_, ?_⟩
      · have ended : doSimpleSend mux.chunkSize (msg.srsHeader cid) msg.payload left msg.payload.length = [] := by
          cases left with
          | zero => rfl
          | succ left => rw [doSimpleSend, if_neg (lt_irrefl _)]
        rw [sent, doSimpleSend, if_pos some_left, complete, ended, List.append_nil]
      · simp only [Mux.putChunk, if_pos complete]
      · intro other
        simp only [Mux.putChunk, if_pos complete]
        by_cases same : other = cid
        · rw [same, Function.update_self]
        · rw [Function.update_of_ne same]
          exact others other same
      · simp only [Mux.putChunk, if_pos complete]
    · set next := mux.putChunk cid header (HeaderKind.full.leaves lane msg) msg p with isNext
      have size : next.chunkSize = mux.chunkSize := by simp only [isNext, Mux.putChunk, if_neg complete]
      have before : next.done = mux.done := by simp only [isNext, Mux.putChunk, if_neg complete]
      have here : next.lanes cid =
          ⟨some (HeaderKind.full.leaves lane msg), some (msg, p + min mux.chunkSize (msg.payload.length - p))⟩ := by
        simp only [isNext, Mux.putChunk, if_neg complete, Function.update_self]
      have still : ∀ other, other ≠ cid → (next.lanes other).pending = none := by
        intro other different
        simp only [isNext, Mux.putChunk, if_neg complete]
        rw [Function.update_of_ne different]
        exact others other different
      have goes : next.step (.next cid) = some (next.putChunk cid
          (if p + min mux.chunkSize (msg.payload.length - p) = 0 then basicHeader 0 cid ++ HeaderKind.full.bytes msg
            else basicHeader 3 cid) (HeaderKind.full.leaves lane msg) msg
          (p + min mux.chunkSize (msg.payload.length - p))) := by
        rw [if_neg (by omega)]
        simp only [Mux.step, here]
      obtain ⟨events, mux', whole, rest, size', idle, done⟩ :=
        ih goes still (by omega) (by omega) (size.symm ▸ chunks)
      refine ⟨event :: events, mux', ?_, ?_, size'.trans (by rw [size]), idle, done.trans (by rw [before])⟩
      · simp only [run, taken]
        exact whole
      · rw [rest, sent, size, doSimpleSend, if_pos some_left, List.append_assoc]

/-- The library sends a message as the peer does that sends it alone. -/
theorem message_run {cid : Nat} (least : 2 ≤ cid) (small : cid < 64) (msg : RtmpMessage) (wellFormed : msg.WellFormed)
    {mux : Mux} (idle : mux.Idle) (chunks : 0 < mux.chunkSize) :
    ∃ events mux', run Mux.step mux events = some mux' ∧
      mux'.sent = mux.sent ++ doSimpleSend mux.chunkSize (msg.srsHeader cid) msg.payload msg.payload.length 0 ∧
      mux'.chunkSize = msg.chunkSizeAfter mux.chunkSize ∧ mux'.Idle ∧ mux'.done = mux.done ++ [msg.arrived cid] := by
  have fits : HeaderKind.full.Fits (mux.lanes cid) msg := by
    unfold HeaderKind.Fits
    split
    · trivial
    · rfl
  have taken : mux.step (.start cid .full msg) = some (mux.putChunk cid
      (if 0 = 0 then basicHeader 0 cid ++ HeaderKind.full.bytes msg else basicHeader 3 cid)
      (HeaderKind.full.leaves (mux.lanes cid) msg) msg 0) := by
    have free : (mux.lanes cid).pending.isNone = true := by rw [idle cid]; rfl
    rw [if_pos rfl]
    simp only [Mux.step]
    rw [if_pos ⟨least, by omega, free, fits, wellFormed⟩]
    rfl
  exact chunks_run small msg (mux.lanes cid) msg.payload.length taken (fun other _ => idle other) msg.nonempty le_rfl
    chunks

end AdTerminal.Rtmp
