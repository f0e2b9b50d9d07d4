import AdTerminal.Rtmp.SrsFastBuffer

/-! The reader follows a peer that sends on several chunk streams at once: after each chunk it knows of
every chunk stream what the peer knows, and it has got the messages that are complete. -/

namespace AdTerminal.Rtmp

open BigEndian Simulation Transition

namespace LastHeader

/-- What the reader keeps of the header. -/
def header (last : LastHeader) (cid : Nat) : SrsMessageHeader :=
  { timestampDelta := last.field
    payloadLength := last.length
    messageType := last.messageType
    streamId := last.streamId
    timestamp := last.clock
    perferCid := cid }

/-- The header is that of the message. -/
structure Of (last : LastHeader) (msg : RtmpMessage) : Prop where
  length : last.length = msg.payload.length
  messageType : last.messageType = msg.messageType
  streamId : last.streamId = msg.streamId
  clock : last.clock = msg.clock

end LastHeader

/-- The reader's view of a chunk stream is the sender's. -/
structure Follows (cid : Nat) (lane : Lane) (chunk : SrsChunkStream) : Prop where
  sameCid : chunk.cid = cid
  perferCid : chunk.header.perferCid = cid
  header : ∀ last, lane.last = some last →
    chunk.header = last.header cid ∧ chunk.extendedTimestamp = decide last.Escaped ∧ 0 < chunk.msgCount ∧
      last.clock < 2 ^ 31
  idle : lane.pending = none → chunk.msg = none
  busy : ∀ msg offset, lane.pending = some (msg, offset) → ∃ last, lane.last = some last ∧ last.Of msg ∧
    msg.WellFormed ∧ 2 ≤ cid ∧ cid < 65600 ∧ offset < msg.payload.length ∧
    chunk.msg = some ⟨last.header cid, some msg.payload.length, msg.payload.take offset⟩

/-- The chunk stream once the header of a message is read. -/
def opened (cid : Nat) (last : LastHeader) (count : Nat) : SrsChunkStream :=
  { cid, header := last.header cid, extendedTimestamp := decide last.Escaped
    msg := some ⟨last.header cid, none, []⟩, msgCount := count + 1 }

theorem clock_lt (msg : RtmpMessage) : msg.clock < 2 ^ 31 := Nat.mod_lt _ (by decide)

theorem ofBigEndian_timestamp (msg : RtmpMessage) : ofBigEndian (bigEndian 4 msg.timestamp) % 2 ^ 31 = msg.clock := by
  rw [ofBigEndian_bigEndian_of_lt msg.timestamp_lt, RtmpMessage.clock]

/-- The timestamp in full is read where it is due: in a message's first chunk, and again in the others. -/
theorem readExtendedTimestamp_atBytes {cid : Nat} {last : LastHeader} {msg : RtmpMessage} {isFirst : Bool}
    (p : SrsProtocol Wire) (rest : List UInt8)
    (extended : (p.chunkStreams cid).extendedTimestamp = decide last.Escaped)
    (same : isFirst = false → (p.chunkStreams cid).header.timestamp = msg.clock) :
    (readExtendedTimestamp cid isFirst).run (p.atBytes (escapedTimestamp last msg ++ rest)) =
      .ok () ((if last.Escaped then p.setChunk cid ((p.chunkStreams cid).setExtended msg.clock) else p).atBytes
        rest) := by
  unfold readExtendedTimestamp escapedTimestamp
  rw [bind_ok (run_getChunk ..), SrsProtocol.chunkStreams_atBytes, extended]
  by_cases escaped : last.Escaped
  · have long : (bigEndian 4 msg.timestamp).length = 4 := length_bigEndian 4 _
    have matches_ : ¬ (¬ isFirst = true ∧ (p.chunkStreams cid).header.timestamp % 2 ^ 32 > 0 ∧
        (p.chunkStreams cid).header.timestamp % 2 ^ 32 ≠ msg.clock) := by
      rintro ⟨later, -, different⟩
      have small := clock_lt msg
      rw [same (Bool.not_eq_true _ ▸ later), Nat.mod_eq_of_lt (by omega)] at different
      exact different rfl
    rw [if_pos escaped, if_pos escaped, if_pos (decide_eq_true escaped), bind_ok (peekSlice_atBytes long ..),
      ofBigEndian_timestamp, if_neg matches_, bind_ok (readSlice_atBytes long ..)]
    rfl
  · rw [if_neg escaped, if_neg escaped, if_neg (by simp [escaped])]
    rfl

/-- What the header of a message does to its chunk stream, before the timestamp in full is looked for. -/
structure Parsed (cid : Nat) (last : LastHeader) (before after : SrsChunkStream) : Prop where
  sameCid : after.cid = before.cid
  msg : after.msg = before.msg
  msgCount : after.msgCount = before.msgCount
  extendedTimestamp : after.extendedTimestamp = decide last.Escaped
  header : after.header = { last.header cid with timestamp := after.header.timestamp }
  timestamp : ¬ last.Escaped → after.header.timestamp % 2 ^ 31 = last.clock

theorem fields_of_slice (first second : List UInt8) (type : UInt8) (more : List UInt8) (long : first.length = 3)
    (long' : second.length = 3) :
    (first ++ second ++ [type] ++ more).take 3 = first ∧
      ((first ++ second ++ [type] ++ more).drop 3).take 3 = second ∧
      (first ++ second ++ [type] ++ more).getD 6 0 = type ∧ (first ++ second ++ [type] ++ more).drop 7 = more := by
  match first, long, second, long' with
  | [_, _, _], _, [_, _, _], _ => exact ⟨rfl, rfl, rfl, rfl⟩

namespace HeaderKind

theorem fits_some {kind : HeaderKind} {lane : Lane} {msg : RtmpMessage} {last : LastHeader}
    (known : lane.last = some last) : kind.Fits lane msg ↔ kind.Continues last msg := by
  simp only [Fits, known]

theorem fits_none {kind : HeaderKind} {lane : Lane} {msg : RtmpMessage} (fresh : lane.last = none) :
    kind.Fits lane msg ↔ kind = full := by
  simp only [Fits, fresh]

end HeaderKind

/-- A header in full sets all the fields. -/
theorem parse_full {cid : Nat} {lane : Lane} (msg : RtmpMessage) (p : SrsProtocol Wire) (rest : List UInt8)
    (perferCid : (p.chunkStreams cid).header.perferCid = cid) :
    ∃ after, (parseMessageHeader cid 0 true).run (p.atBytes (HeaderKind.full.bytes msg ++ rest)) =
      .ok () ((p.setChunk cid after).atBytes rest) ∧
      Parsed cid (HeaderKind.full.leaves lane msg) (p.chunkStreams cid) after := by
  have field := @ofBigEndian_bigEndian_of_lt 3 (min msg.timestamp timestampEscape)
    (lt_of_le_of_lt (Nat.min_le_right _ _) (by decide))
  have length := @ofBigEndian_bigEndian_of_lt 3 _ msg.length_lt
  have streamId := @ofLittleEndian_littleEndian_of_lt 4 _ msg.streamId_lt
  obtain ⟨time, size, type, more⟩ := fields_of_slice (bigEndian 3 (min msg.timestamp timestampEscape))
    (bigEndian 3 msg.payload.length) msg.messageType (littleEndian 4 msg.streamId) (length_bigEndian ..)
    (length_bigEndian ..)
  have four : (littleEndian 4 msg.streamId).take 4 = littleEndian 4 msg.streamId :=
    List.take_of_length_le (length_littleEndian ..).le
  have long : (HeaderKind.full.bytes msg).length = mhSizes 0 := by
    simp [HeaderKind.bytes, mhSizes]
  refine ⟨(((p.chunkStreams cid).setTimestamp 0 (min msg.timestamp timestampEscape)).setLength msg.payload.length
    msg.messageType).setStreamId msg.streamId, ?_, ?_⟩
  · unfold parseMessageHeader
    rw [if_pos (by decide), bind_ok (readSlice_atBytes long p rest), bind_ok (run_modifyChunk ..), if_pos (by decide),
      bind_ok (run_getChunk ..), if_neg (by simp), bind_ok (run_modifyChunk ..), if_pos rfl, run_modifyChunk]
    simp only [HeaderKind.bytes, time, size, type, more, four, field, length, streamId,
      SrsProtocol.chunkStreams_setChunk_self, SrsProtocol.setChunk_setChunk, SrsProtocol.chunkStreams_atBytes,
      SrsProtocol.setChunk_atBytes]
  · exact {
      sameCid := rfl
      msg := rfl
      msgCount := rfl
      extendedTimestamp := rfl
      header := by
        simp [SrsChunkStream.setTimestamp, SrsChunkStream.setLength, SrsChunkStream.setStreamId, LastHeader.header,
          HeaderKind.leaves, HeaderKind.field, perferCid]
      timestamp := by
        intro small
        have below : msg.timestamp < timestampEscape := by
          simp only [LastHeader.Escaped, HeaderKind.leaves, HeaderKind.field] at small
          omega
        have fits : ¬ extendedTimestamp ≤ msg.timestamp := Nat.not_le.mpr below
        simp [SrsChunkStream.setTimestamp, SrsChunkStream.setLength, SrsChunkStream.setStreamId,
          HeaderKind.leaves, RtmpMessage.clock, Nat.min_eq_left below.le, fits] }

/-- A header without the message stream, or without the length too, keeps them as they were. -/
theorem parse_delta {cid : Nat} {lane : Lane} {last : LastHeader} {kind : HeaderKind} {delta : Nat}
    (which : kind = .sameStream delta ∨ kind = .sameLength delta) (msg : RtmpMessage) (p : SrsProtocol Wire)
    (rest : List UInt8) (known : lane.last = some last) (fits : kind.Fits lane msg)
    (same : (p.chunkStreams cid).header = last.header cid) :
    ∃ after, (parseMessageHeader cid kind.fmt true).run (p.atBytes (kind.bytes msg ++ rest)) =
      .ok () ((p.setChunk cid after).atBytes rest) ∧
      Parsed cid (kind.leaves lane msg) (p.chunkStreams cid) after := by
  have small : delta < timestampEscape ∧ last.streamId = msg.streamId ∧ (last.clock + delta) % 2 ^ 31 = msg.clock := by
    rcases which with rfl | rfl
    · exact (HeaderKind.fits_some known).mp fits
    · obtain ⟨small, streamId, time, -⟩ := (HeaderKind.fits_some known).mp fits
      exact ⟨small, streamId, time⟩
  have field := @ofBigEndian_bigEndian_of_lt 3 delta (small.1.trans (by decide))
  have notExtended : ¬ delta ≥ extendedTimestamp := Nat.not_le.mpr small.1
  have time : ((p.chunkStreams cid).setTimestamp kind.fmt delta).header.timestamp = last.clock + delta := by
    rcases which with rfl | rfl <;> simp [SrsChunkStream.setTimestamp, notExtended, same, LastHeader.header,
      HeaderKind.fmt]
  rcases which with rfl | rfl
  · have length := @ofBigEndian_bigEndian_of_lt 3 _ msg.length_lt
    obtain ⟨three, size, type, -⟩ := fields_of_slice (bigEndian 3 delta) (bigEndian 3 msg.payload.length)
      msg.messageType [] (length_bigEndian ..) (length_bigEndian ..)
    rw [List.append_nil] at three size type
    have long : ((HeaderKind.sameStream delta).bytes msg).length = mhSizes 1 := by
      simp [HeaderKind.bytes, mhSizes]
    refine ⟨((p.chunkStreams cid).setTimestamp 1 delta).setLength msg.payload.length msg.messageType, ?_, ?_⟩
    · change (parseMessageHeader cid 1 true).run _ = _
      unfold parseMessageHeader
      rw [if_pos (by decide), bind_ok (readSlice_atBytes long p rest), bind_ok (run_modifyChunk ..), if_pos (by decide),
        bind_ok (run_getChunk ..), if_neg (by simp), bind_ok (run_modifyChunk ..), if_neg (by decide)]
      simp only [HeaderKind.bytes, three, size, type, field, length, SrsProtocol.chunkStreams_setChunk_self,
        SrsProtocol.setChunk_setChunk, SrsProtocol.chunkStreams_atBytes, SrsProtocol.setChunk_atBytes,
        EStateM.run_pure]
    · exact {
        sameCid := rfl
        msg := rfl
        msgCount := rfl
        extendedTimestamp := rfl
        header := by
          simp [SrsChunkStream.setTimestamp, SrsChunkStream.setLength, LastHeader.header, HeaderKind.leaves,
            HeaderKind.field, same, small.2.1]
        timestamp := fun _ => (congrArg (· % 2 ^ 31) time).trans small.2.2 }
  · have long : ((HeaderKind.sameLength delta).bytes msg).length = mhSizes 2 := by
      simp [HeaderKind.bytes, mhSizes]
    have three : (bigEndian 3 delta).take 3 = bigEndian 3 delta := List.take_of_length_le (length_bigEndian ..).le
    obtain ⟨-, -, -, kept⟩ := (HeaderKind.fits_some known).mp fits
    refine ⟨(p.chunkStreams cid).setTimestamp 2 delta, ?_, ?_⟩
    · change (parseMessageHeader cid 2 true).run _ = _
      unfold parseMessageHeader
      rw [if_pos (by decide), bind_ok (readSlice_atBytes long p rest), bind_ok (run_modifyChunk ..), if_neg (by decide)]
      simp only [HeaderKind.bytes, three, field, SrsProtocol.chunkStreams_atBytes, SrsProtocol.setChunk_atBytes,
        EStateM.run_pure]
    · exact {
        sameCid := rfl
        msg := rfl
        msgCount := rfl
        extendedTimestamp := rfl
        header := by
          simp [SrsChunkStream.setTimestamp, LastHeader.header, HeaderKind.leaves, HeaderKind.field, same, small.2.1,
            kept.1, kept.2]
        timestamp := fun _ => (congrArg (· % 2 ^ 31) time).trans small.2.2 }

/-- Without a header everything is as before, and the message as much later as the one before was. -/
theorem parse_sameDelta {cid : Nat} {lane : Lane} {last : LastHeader} (msg : RtmpMessage) (p : SrsProtocol Wire)
    (rest : List UInt8) (known : lane.last = some last) (fits : HeaderKind.sameDelta.Fits lane msg)
    (same : (p.chunkStreams cid).header = last.header cid)
    (extended : (p.chunkStreams cid).extendedTimestamp = decide last.Escaped) :
    ∃ after, (parseMessageHeader cid 3 true).run (p.atBytes (HeaderKind.sameDelta.bytes msg ++ rest)) =
      .ok () ((p.setChunk cid after).atBytes rest) ∧
      Parsed cid (HeaderKind.sameDelta.leaves lane msg) (p.chunkStreams cid) after := by
  obtain ⟨streamId, length, type, time⟩ := (HeaderKind.fits_some known).mp fits
  have left : (HeaderKind.sameDelta.leaves lane msg).Escaped ↔ last.Escaped := by
    simp [LastHeader.Escaped, HeaderKind.leaves, HeaderKind.field, known]
  refine ⟨if last.Escaped then p.chunkStreams cid else (p.chunkStreams cid).addDelta, ?_, ?_⟩
  · unfold parseMessageHeader
    rw [if_neg (by decide), bind_ok (run_getChunk ..), SrsProtocol.chunkStreams_atBytes, extended]
    by_cases escaped : last.Escaped
    · have unchanged : p.setChunk cid (p.chunkStreams cid) = p := by
        simp [SrsProtocol.setChunk]
      rw [if_neg (by simp [escaped]), if_pos escaped, unchanged]
      rfl
    · rw [if_pos (by simp [escaped]), if_neg escaped]
      rfl
  · by_cases escaped : last.Escaped
    · rw [if_pos escaped]
      exact {
        sameCid := rfl
        msg := rfl
        msgCount := rfl
        extendedTimestamp := by rw [extended]; exact decide_eq_decide.mpr left.symm
        header := by
          simp [same, LastHeader.header, HeaderKind.leaves, HeaderKind.field, known, streamId, length, type]
        timestamp := fun plain => absurd (left.mpr escaped) plain }
    · rw [if_neg escaped]
      exact {
        sameCid := rfl
        msg := rfl
        msgCount := rfl
        extendedTimestamp := by
          change (p.chunkStreams cid).extendedTimestamp = _
          rw [extended]
          exact decide_eq_decide.mpr left.symm
        header := by
          simp [SrsChunkStream.addDelta, same, LastHeader.header, HeaderKind.leaves, HeaderKind.field, known, streamId,
            length, type]
        timestamp := fun _ => by
          have later := time.resolve_left escaped
          simpa [SrsChunkStream.addDelta, same, LastHeader.header, HeaderKind.leaves] using later }

/-- The header of a message's first chunk, by whichever of its forms. -/
theorem parse_start {cid : Nat} {lane : Lane} {kind : HeaderKind} (msg : RtmpMessage) (p : SrsProtocol Wire)
    (rest : List UInt8) (fits : kind.Fits lane msg) (perferCid : (p.chunkStreams cid).header.perferCid = cid)
    (known : ∀ last, lane.last = some last → (p.chunkStreams cid).header = last.header cid ∧
      (p.chunkStreams cid).extendedTimestamp = decide last.Escaped) :
    ∃ after, (parseMessageHeader cid kind.fmt true).run (p.atBytes (kind.bytes msg ++ rest)) =
      .ok () ((p.setChunk cid after).atBytes rest) ∧
      Parsed cid (kind.leaves lane msg) (p.chunkStreams cid) after := by
  cases kind with
  | full => exact parse_full msg p rest perferCid
  | sameStream delta =>
    match last : lane.last with
    | none => exact absurd ((HeaderKind.fits_none last).mp fits) nofun
    | some header => exact parse_delta (.inl rfl) msg p rest last fits (known header last).1
  | sameLength delta =>
    match last : lane.last with
    | none => exact absurd ((HeaderKind.fits_none last).mp fits) nofun
    | some header => exact parse_delta (.inr rfl) msg p rest last fits (known header last).1
  | sameDelta =>
    match last : lane.last with
    | none => exact absurd ((HeaderKind.fits_none last).mp fits) nofun
    | some header => exact parse_sameDelta msg p rest last fits (known header last).1 (known header last).2

theorem leaves_of (kind : HeaderKind) (lane : Lane) (msg : RtmpMessage) : (kind.leaves lane msg).Of msg :=
  ⟨rfl, rfl, rfl, rfl⟩

/-- A message's first header opens it on its chunk stream. -/
theorem readMessageHeader_start {cid : Nat} {lane : Lane} {kind : HeaderKind} (msg : RtmpMessage)
    (p : SrsProtocol Wire) (rest : List UInt8) (follows : Follows cid lane (p.chunkStreams cid))
    (free : lane.pending = none) (fits : kind.Fits lane msg) :
    (readMessageHeader cid kind.fmt).run
        (p.atBytes (kind.bytes msg ++ (escapedTimestamp (kind.leaves lane msg) msg ++ rest))) =
      .ok () ((p.setChunk cid (opened cid (kind.leaves lane msg) (p.chunkStreams cid).msgCount)).atBytes rest) := by
  have absent : (p.chunkStreams cid).msg = none := follows.idle free
  have allowed : ¬ ((p.chunkStreams cid).msgCount = 0 ∧ kind.fmt ≠ 0 ∧
      ¬ ((p.chunkStreams cid).cid = cidProtocolControl ∧ kind.fmt = 1)) := by
    rintro ⟨fresh, later, -⟩
    match last : lane.last with
    | some header => exact absurd fresh (follows.header header last).2.2.1.ne'
    | none =>
      cases kind with
      | full => exact later rfl
      | sameStream delta => exact absurd ((HeaderKind.fits_none last).mp fits) nofun
      | sameLength delta => exact absurd ((HeaderKind.fits_none last).mp fits) nofun
      | sameDelta => exact absurd ((HeaderKind.fits_none last).mp fits) nofun
  obtain ⟨after, parsed, does⟩ := @parse_start cid lane kind msg
    (p.setChunk cid (p.chunkStreams cid).createMsg) (escapedTimestamp (kind.leaves lane msg) msg ++ rest) fits
    (by rw [SrsProtocol.chunkStreams_setChunk_self]; exact follows.perferCid)
    (fun last known => by
      rw [SrsProtocol.chunkStreams_setChunk_self]
      exact ⟨(follows.header last known).1, (follows.header last known).2.1⟩)
  rw [SrsProtocol.setChunk_setChunk] at parsed
  rw [SrsProtocol.chunkStreams_setChunk_self] at does
  have field := @readExtendedTimestamp_atBytes cid (kind.leaves lane msg) msg true (p.setChunk cid after) rest
    (by rw [SrsProtocol.chunkStreams_setChunk_self]; exact does.extendedTimestamp) (fun later => nomatch later)
  unfold readMessageHeader
  rw [bind_ok (run_getChunk ..), SrsProtocol.chunkStreams_atBytes, if_neg allowed, if_neg (by simp [absent]),
    bind_ok (run_modifyChunk ..), SrsProtocol.chunkStreams_atBytes, SrsProtocol.setChunk_atBytes, absent,
    Option.isNone_none, bind_ok parsed, bind_ok field, run_modifyChunk]
  have closed : ∀ time, time % 2 ^ 31 = msg.clock →
      (after.setExtended time).closeHeader = opened cid (kind.leaves lane msg) (p.chunkStreams cid).msgCount := by
    intro time clock
    have header : { after.header with timestamp := msg.clock } = (kind.leaves lane msg).header cid := by
      rw [does.header]
      rfl
    simp only [SrsChunkStream.closeHeader, SrsChunkStream.setExtended, clock, header, opened, does.msg, does.sameCid,
      does.msgCount, does.extendedTimestamp, SrsChunkStream.createMsg, absent, follows.sameCid]
    rfl
  by_cases escaped : (kind.leaves lane msg).Escaped
  · simp only [if_pos escaped, SrsProtocol.chunkStreams_atBytes, SrsProtocol.chunkStreams_setChunk_self,
      SrsProtocol.setChunk_setChunk, SrsProtocol.setChunk_atBytes]
    rw [closed _ (Nat.mod_eq_of_lt (clock_lt msg))]
  · have kept : after.setExtended after.header.timestamp = after := rfl
    simp only [if_neg escaped, SrsProtocol.chunkStreams_atBytes, SrsProtocol.chunkStreams_setChunk_self,
      SrsProtocol.setChunk_setChunk, SrsProtocol.setChunk_atBytes]
    rw [← closed _ (does.timestamp escaped), kept]

/-- A chunk that goes on with a message leaves its header as it is. -/
theorem readMessageHeader_next {cid : Nat} {lane : Lane} {last : LastHeader} {msg : RtmpMessage} {offset : Nat}
    (p : SrsProtocol Wire) (rest : List UInt8) (follows : Follows cid lane (p.chunkStreams cid))
    (known : lane.last = some last) (pending : lane.pending = some (msg, offset)) :
    (readMessageHeader cid 3).run (p.atBytes (escapedTimestamp last msg ++ rest)) =
      .ok () ((p.setChunk cid { p.chunkStreams cid with msgCount := (p.chunkStreams cid).msgCount + 1 }).atBytes
        rest) := by
  obtain ⟨same, extended, counted, small⟩ := follows.header last known
  obtain ⟨last', known', of, -, -, -, -, stored⟩ := follows.busy msg offset pending
  rw [known, Option.some_inj] at known'
  subst known'
  have created : (p.chunkStreams cid).createMsg = p.chunkStreams cid := by
    simp only [SrsChunkStream.createMsg, stored, Option.getD_some]
    rw [← stored]
  have unchanged : p.setChunk cid (p.chunkStreams cid) = p := by
    simp [SrsProtocol.setChunk]
  have clock : (p.chunkStreams cid).header.timestamp = msg.clock := by
    rw [same]
    exact of.clock
  have parsed : (parseMessageHeader cid 3 false).run (p.atBytes (escapedTimestamp last msg ++ rest)) =
      .ok () (p.atBytes (escapedTimestamp last msg ++ rest)) := by
    unfold parseMessageHeader
    rw [if_neg (by decide), bind_ok (run_getChunk ..), if_neg (by simp)]
    rfl
  have field := @readExtendedTimestamp_atBytes cid last msg false p rest extended fun _ => clock
  have kept : (p.chunkStreams cid).setExtended msg.clock = p.chunkStreams cid := by
    rw [SrsChunkStream.setExtended, ← clock]
  unfold readMessageHeader
  rw [bind_ok (run_getChunk ..), SrsProtocol.chunkStreams_atBytes, if_neg (by simp [counted.ne']), if_neg (by simp),
    bind_ok (run_modifyChunk ..), SrsProtocol.chunkStreams_atBytes, SrsProtocol.setChunk_atBytes, created, unchanged,
    stored, Option.isNone_some, bind_ok parsed, bind_ok field, kept, unchanged, ite_self, run_modifyChunk]
  have closed : (p.chunkStreams cid).closeHeader =
      { p.chunkStreams cid with msgCount := (p.chunkStreams cid).msgCount + 1 } := by
    have header : { (p.chunkStreams cid).header with timestamp := (p.chunkStreams cid).header.timestamp % 2 ^ 31 } =
        last.header cid := by
      rw [same]
      simp only [LastHeader.header, Nat.mod_eq_of_lt small]
    simp only [SrsChunkStream.closeHeader, header, stored, Option.map_some]
    rw [same, ← stored]
  rw [SrsProtocol.chunkStreams_atBytes, closed, SrsProtocol.setChunk_atBytes]

/-- The payload of a chunk is added to what the message has; with the last of it the message is done. -/
theorem readMessagePayload_atBytes {cid offset : Nat} {msg : RtmpMessage} {stored : SrsCommonMessage}
    (p : SrsProtocol Wire) (rest : List UInt8) (pending : (p.chunkStreams cid).msg = some stored)
    (length : (p.chunkStreams cid).header.payloadLength = msg.payload.length) (within : offset < msg.payload.length)
    (payload : stored.payload = msg.payload.take offset)
    (allocated : stored.allocated.getD msg.payload.length = msg.payload.length) :
    (readMessagePayload cid).run (p.atBytes
        ((msg.payload.take (offset + min p.inChunkSize (msg.payload.length - offset))).drop offset ++ rest)) =
      if offset + min p.inChunkSize (msg.payload.length - offset) = msg.payload.length then
        .ok (some { stored with allocated := some msg.payload.length, payload := msg.payload })
          ((p.setChunk cid ((p.chunkStreams cid).setMsg none)).atBytes rest)
      else
        .ok none ((p.setChunk cid ((p.chunkStreams cid).setMsg (some { stored with
          allocated := some msg.payload.length
          payload := msg.payload.take (offset + min p.inChunkSize (msg.payload.length - offset)) }))).atBytes rest) := by
  have size : stored.size = offset := by
    rw [SrsCommonMessage.size, payload, List.length_take, Nat.min_eq_left within.le]
  have some_left : ¬ msg.payload.length = 0 := Nat.ne_of_gt (Nat.zero_lt_of_lt within)
  generalize amount : min p.inChunkSize (msg.payload.length - offset) = n
  have bounded : offset + n ≤ msg.payload.length := by omega
  have long : ((msg.payload.take (offset + n)).drop offset).length = n := by
    rw [List.length_drop, List.length_take]
    omega
  have joined : msg.payload.take offset ++ (msg.payload.take (offset + n)).drop offset =
      msg.payload.take (offset + n) := by
    have first : msg.payload.take offset = (msg.payload.take (offset + n)).take offset := by
      rw [List.take_take, Nat.min_eq_left (Nat.le_add_right ..)]
    rw [first, List.take_append_drop]
  have total : (msg.payload.take (offset + n)).length = offset + n := by
    rw [List.length_take, Nat.min_eq_left bounded]
  unfold readMessagePayload
  rw [bind_ok (run_getChunk ..), SrsProtocol.chunkStreams_atBytes, pending]
  simp only [length]
  rw [if_neg some_left, bind_ok (run_getInChunkSize ..), bind_ok (run_modifyChunk ..), size,
    SrsProtocol.inChunkSize_atBytes, Nat.min_comm, amount, allocated, SrsProtocol.setChunk_atBytes,
    bind_ok (readSlice_atBytes long _ rest), payload, joined]
  simp only [SrsCommonMessage.size, total]
  by_cases last : offset + n = msg.payload.length
  · have whole : msg.payload.take (offset + n) = msg.payload := by rw [last, List.take_length]
    rw [if_pos last.symm, if_pos last, bind_ok (run_modifyChunk ..), whole]
    simp only [SrsProtocol.chunkStreams_atBytes, SrsProtocol.chunkStreams_setChunk_self, SrsProtocol.setChunk_setChunk,
      SrsProtocol.setChunk_atBytes, EStateM.run_pure]
    rfl
  · rw [if_neg (Ne.symm last), if_neg last, bind_ok (run_modifyChunk ..)]
    simp only [SrsProtocol.chunkStreams_atBytes, SrsProtocol.chunkStreams_setChunk_self, SrsProtocol.setChunk_setChunk,
      SrsProtocol.setChunk_atBytes, EStateM.run_pure]
    rfl

theorem bmod_small {n : Nat} (small : n < 2 ^ 31) : (n : Int).bmod (2 ^ 32) = n :=
  Int.bmod_eq_of_le_mul_two (by omega) (by norm_num; omega)

theorem read4Bytes_of_lt {bytes : List UInt8} (small : ofBigEndian (bytes.take 4) < 2 ^ 31) :
    read4Bytes bytes = (ofBigEndian (bytes.take 4) : Int) :=
  bmod_small small

/-- A well-formed message is accepted, and the chunks after it have the size it may announce. -/
theorem controlChunkSize_wellFormed {msg : RtmpMessage} (wellFormed : msg.WellFormed) (chunkSize : Nat) :
    controlChunkSize (.ok ()) msg.messageType msg.payload chunkSize = .ok (msg.chunkSizeAfter chunkSize) := by
  obtain ⟨resize, user, window⟩ := wellFormed
  unfold controlChunkSize decodeMessage RtmpMessage.chunkSizeAfter
  by_cases control : msg.messageType = 1
  · obtain ⟨four, least, most⟩ := resize control
    have value : read4Bytes msg.payload = (msg.announced : Int) := read4Bytes_of_lt most
    have accepted : ¬ (msg.announced : Int) < (minChunkSize : Int) := by
      have least' : 128 ≤ msg.announced := least
      have minimum : minChunkSize = 128 := rfl
      omega
    simp [control, msgUserControlMessage, msgWindowAcknowledgementSize, msgSetChunkSize, Nat.not_lt.mpr four, value,
      accepted]
  by_cases event : msg.messageType = 4
  · obtain ⟨three, others, buffer⟩ := user event
    have decoded : ∃ data extra, decodeUserControl msg.payload = .ok (.userControl msg.event data extra) := by
      unfold decodeUserControl
      rw [if_neg (by omega)]
      simp only [List.length_drop, pcucFmsEvent0, pcucSetBufferLength]
      change ∃ data extra, (if msg.event = 0x1a then _ else _) = _
      by_cases fms : msg.event = 0x1a
      · rw [if_pos fms, if_neg (by omega)]
        exact ⟨_, _, rfl⟩
      · have six := others fms
        rw [if_neg fms, if_neg (by omega)]
        change ∃ data extra, (if msg.event = 0x03 then _ else _) = _
        by_cases length : msg.event = 0x03
        · have ten := buffer length
          rw [if_pos length, if_neg (by omega)]
          exact ⟨_, _, rfl⟩
        · rw [if_neg length]
          exact ⟨_, _, rfl⟩
    obtain ⟨data, extra, decoded⟩ := decoded
    simp [event, msgUserControlMessage, decoded, Except.map]
  by_cases size : msg.messageType = 5
  · simp [size, msgUserControlMessage, msgWindowAcknowledgementSize, Nat.not_lt.mpr (window size)]
  · simp [event, size, control, msgUserControlMessage, msgWindowAcknowledgementSize, msgSetChunkSize]

namespace SrsCommonMessage

/-- What a caller can tell of a message. -/
def arrived (msg : SrsCommonMessage) : Arrived :=
  { cid := msg.header.perferCid
    messageType := msg.header.messageType
    streamId := msg.header.streamId
    clock := msg.header.timestamp
    payload := msg.payload }

end SrsCommonMessage

/-- The reader knows what the peer knows. -/
structure Tracks (mux : Mux) (p : SrsProtocol Wire) : Prop where
  chunkSize : p.inChunkSize = mux.chunkSize
  responses : p.responses = []
  lanes : ∀ cid, Follows cid (mux.lanes cid) (p.chunkStreams cid)

/-- A chunk stream with a header read on it and a part of its message stored. -/
structure Underway (cid offset : Nat) (last : LastHeader) (msg : RtmpMessage) (chunk : SrsChunkStream) : Prop where
  sameCid : chunk.cid = cid
  header : chunk.header = last.header cid
  extendedTimestamp : chunk.extendedTimestamp = decide last.Escaped
  msgCount : 0 < chunk.msgCount
  stored : ∃ stored, chunk.msg = some stored ∧ stored.header = last.header cid ∧
    stored.payload = msg.payload.take offset ∧ stored.allocated.getD msg.payload.length = msg.payload.length

theorem follows_idle {cid offset : Nat} {last : LastHeader} {msg : RtmpMessage} {chunk : SrsChunkStream} (of : last.Of msg)
    (underway : Underway cid offset last msg chunk) :
    Follows cid { last := some last, pending := none } (chunk.setMsg none) where
  sameCid := underway.sameCid
  perferCid := by
    change chunk.header.perferCid = cid
    rw [underway.header]
    rfl
  header := by
    intro last' known
    cases known
    exact ⟨underway.header, underway.extendedTimestamp, underway.msgCount, of.clock ▸ clock_lt msg⟩
  idle := fun _ => rfl
  busy := fun _ _ pending => nomatch pending

theorem follows_busy {cid offset stop : Nat} {last : LastHeader} {msg : RtmpMessage} {chunk : SrsChunkStream}
    (of : last.Of msg) (underway : Underway cid offset last msg chunk) (wellFormed : msg.WellFormed)
    (least : 2 ≤ cid) (most : cid < 65600) (within : stop < msg.payload.length) :
    Follows cid { last := some last, pending := some (msg, stop) }
      (chunk.setMsg (some ⟨last.header cid, some msg.payload.length, msg.payload.take stop⟩)) where
  sameCid := underway.sameCid
  perferCid := by
    change chunk.header.perferCid = cid
    rw [underway.header]
    rfl
  header := by
    intro last' known
    cases known
    exact ⟨underway.header, underway.extendedTimestamp, underway.msgCount, of.clock ▸ clock_lt msg⟩
  idle := fun none => nomatch none
  busy := by
    intro msg' offset' pending
    cases pending
    exact ⟨last, rfl, of, wellFormed, least, most, within, rfl⟩

/-- Chunk streams that a chunk is not on are followed as before. -/
theorem lanes_update {mux : Mux} {p : SrsProtocol Wire} {cid : Nat} {lane : Lane} {chunk : SrsChunkStream}
    (tracks : Tracks mux p) (here : Follows cid lane chunk) (other : Nat) :
    Follows other (Function.update mux.lanes cid lane other) ((p.setChunk cid chunk).chunkStreams other) := by
  by_cases same : other = cid
  · subst same
    rw [Function.update_self, SrsProtocol.chunkStreams_setChunk_self]
    exact here
  · rw [Function.update_of_ne same, SrsProtocol.chunkStreams_setChunk_ne p same]
    exact tracks.lanes other

/-- Once the header of a chunk is read, the turn ends as the peer's step says. -/
theorem turn_of_payload {mux : Mux} {p : SrsProtocol Wire} {start : SrsProtocol Wire} {last : LastHeader}
    {msg : RtmpMessage} {rest : List UInt8} (cid offset : Nat) (chunk : SrsChunkStream) (head : List UInt8)
    (tracks : Tracks mux p) (of : last.Of msg) (underway : Underway cid offset last msg chunk)
    (within : offset < msg.payload.length) (wellFormed : msg.WellFormed) (least : 2 ≤ cid) (most : cid < 65600)
    (read : recvInterlacedMessage.run start = (readMessagePayload cid).run ((p.setChunk cid chunk).atBytes
      ((msg.payload.take (offset + min mux.chunkSize (msg.payload.length - offset))).drop offset ++ rest))) :
    ∃ received q, recvMessageTurn.run start = .ok received (q.atBytes rest) ∧
      Tracks (mux.putChunk cid head last msg offset) q ∧
      (mux.putChunk cid head last msg offset).done = mux.done ++ (received.map SrsCommonMessage.arrived).toList := by
  obtain ⟨stored, pending, header, payload, allocated⟩ := underway.stored
  have here : (p.setChunk cid chunk).chunkStreams cid = chunk := SrsProtocol.chunkStreams_setChunk_self ..
  have length : chunk.header.payloadLength = msg.payload.length := by
    rw [underway.header]
    exact of.length
  have does := @readMessagePayload_atBytes cid offset msg stored (p.setChunk cid chunk) rest (here.symm ▸ pending)
    (here.symm ▸ length) within payload allocated
  rw [SrsProtocol.inChunkSize_setChunk, tracks.chunkSize, here, SrsProtocol.setChunk_setChunk,
    SrsProtocol.setChunk_setChunk] at does
  rw [does] at read
  unfold recvMessageTurn Mux.putChunk
  by_cases complete : offset + min mux.chunkSize (msg.payload.length - offset) = msg.payload.length
  · rw [if_pos complete] at read
    simp only [if_pos complete]
    have some_payload : ¬ (SrsCommonMessage.size
        { stored with allocated := some msg.payload.length, payload := msg.payload } = 0 ∨
        stored.header.payloadLength = 0) := by
      rw [header]
      have size : (last.header cid).payloadLength = msg.payload.length := of.length
      have some_bytes := msg.nonempty
      have some_bytes' : ¬ msg.payload.length = 0 := some_bytes.ne'
      rintro (empty | empty)
      · exact some_bytes' empty
      · exact some_bytes' (size ▸ empty)
    have accepted := controlChunkSize_wellFormed wellFormed mux.chunkSize
    refine ⟨some { stored with allocated := some msg.payload.length, payload := msg.payload },
      { p.setChunk cid (chunk.setMsg none) with inChunkSize := msg.chunkSizeAfter mux.chunkSize }, ?_, ?_, ?_⟩
    · rw [bind_ok read]
      dsimp only
      rw [if_neg some_payload]
      have type : stored.header.messageType = msg.messageType := by
        rw [header]
        exact of.messageType
      have hooked : (onRecvMessage { stored with allocated := some msg.payload.length, payload := msg.payload }).run
          ((p.setChunk cid (chunk.setMsg none)).atBytes rest) =
          .ok () (SrsProtocol.atBytes { p.setChunk cid (chunk.setMsg none) with
            inChunkSize := msg.chunkSizeAfter mux.chunkSize } rest) := by
        simp only [onRecvMessage, EStateM.run, type, SrsProtocol.inChunkSize_atBytes, SrsProtocol.inChunkSize_setChunk,
          SrsProtocol.responses_atBytes, SrsProtocol.responses_setChunk, tracks.chunkSize, tracks.responses,
          List.headD_nil, accepted]
        simp only [SrsProtocol.atBytes, SrsProtocol.setChunk, tracks.responses, List.tail_nil]
      rw [bind_ok hooked]
      rfl
    · exact ⟨rfl, tracks.responses, lanes_update tracks (follows_idle of underway)⟩
    · have same : SrsCommonMessage.arrived { stored with allocated := some msg.payload.length, payload := msg.payload } =
          msg.arrived cid := by
        simp only [SrsCommonMessage.arrived, RtmpMessage.arrived, header, LastHeader.header, of.messageType, of.streamId,
          of.clock]
      rw [Option.map_some, same]
      rfl
  · rw [if_neg complete] at read
    simp only [if_neg complete]
    refine ⟨none, p.setChunk cid (chunk.setMsg (some ⟨last.header cid, some msg.payload.length,
      msg.payload.take (offset + min mux.chunkSize (msg.payload.length - offset))⟩)), ?_, ?_, ?_⟩
    · rw [bind_ok read, EStateM.run_pure, header]
    · exact ⟨tracks.chunkSize, tracks.responses,
        lanes_update tracks (follows_busy of underway wellFormed least most (by omega))⟩
    · exact (List.append_nil _).symm

/-- One chunk of the peer is one turn of the reader. -/
theorem turn_step {mux mux' : Mux} {p : SrsProtocol Wire} {event : ChunkEvent} (tracks : Tracks mux p)
    (taken : mux.step event = some mux') : ∃ chunk, mux'.sent = mux.sent ++ chunk ∧ ∀ rest, ∃ received q,
      recvMessageTurn.run (p.atBytes (chunk ++ rest)) = .ok received (q.atBytes rest) ∧ Tracks mux' q ∧
        mux'.done = mux.done ++ (received.map SrsCommonMessage.arrived).toList := by
  cases event with
  | start cid kind msg =>
    simp only [Mux.step, Option.ite_none_right_eq_some, Option.some_inj] at taken
    obtain ⟨⟨least, most, free, fits, formed⟩, rfl⟩ := taken
    have free := Option.isNone_iff_eq_none.mp free
    refine ⟨_, Mux.sent_putChunk .., fun rest => ?_⟩
    have kinds : kind.fmt < 4 := by cases kind <;> simp [HeaderKind.fmt]
    refine turn_of_payload cid 0 (opened cid (kind.leaves (mux.lanes cid) msg) (p.chunkStreams cid).msgCount) _ tracks
      (leaves_of kind (mux.lanes cid) msg) ?_ msg.nonempty formed least most ?_
    · exact ⟨rfl, rfl, rfl, Nat.succ_pos _, _, rfl, rfl, rfl, rfl⟩
    · unfold recvInterlacedMessage Mux.chunkBytes
      simp only [List.append_assoc]
      rw [bind_ok (readBasicHeader_atBytes kinds least most ..)]
      exact bind_ok (readMessageHeader_start msg p _ (tracks.lanes cid) free fits)
  | next cid =>
    simp only [Mux.step] at taken
    split at taken
    next last msg offset lane =>
      cases taken
      have pending : (mux.lanes cid).pending = some (msg, offset) := by rw [lane]
      have known : (mux.lanes cid).last = some last := by rw [lane]
      have follows := tracks.lanes cid
      obtain ⟨last', known', of, formed, least, most, within, stored⟩ := follows.busy msg offset pending
      rw [known, Option.some_inj] at known'
      subst known'
      obtain ⟨header, extended, counted, -⟩ := follows.header last known
      refine ⟨_, Mux.sent_putChunk .., fun rest => ?_⟩
      refine turn_of_payload cid offset { p.chunkStreams cid with msgCount := (p.chunkStreams cid).msgCount + 1 } _
        tracks of ?_ within formed least most ?_
      · exact ⟨follows.sameCid, header, extended, Nat.succ_pos _, _, stored, rfl, rfl, rfl⟩
      · unfold recvInterlacedMessage Mux.chunkBytes
        simp only [List.append_assoc]
        rw [bind_ok (readBasicHeader_atBytes (by decide) least most ..)]
        exact bind_ok (readMessageHeader_next p _ follows known pending)
    next => cases taken

section Turns

variable {β : Type} [ByteSource SrsError β]

/-- Turns of the loop that do not fail, and the messages they end with. -/
inductive Turns : Nat → SrsProtocol β → List SrsCommonMessage → SrsProtocol β → Prop
  | nil (s) : Turns 0 s [] s
  | cons {n s t u received msgs} (turn : recvMessageTurn.run s = .ok received t) (rest : Turns n t msgs u) :
    Turns (n + 1) s (received.toList ++ msgs) u

theorem recvMessage_none (fuel : Nat) {s t : SrsProtocol β} (turn : recvMessageTurn.run s = .ok none t) :
    (recvMessage (fuel + 1)).run s = (recvMessage fuel).run t := by
  rw [recvMessage, bind_ok turn]

theorem recvMessage_some (fuel : Nat) {s t : SrsProtocol β} {msg : SrsCommonMessage}
    (turn : recvMessageTurn.run s = .ok (some msg) t) : (recvMessage (fuel + 1)).run s = .ok (some msg) t := by
  rw [recvMessage, bind_ok turn, EStateM.run_pure]

theorem recvMessage_error (fuel : Nat) {s t : SrsProtocol β} {e : SrsError}
    (turn : recvMessageTurn.run s = .error e t) : (recvMessage (fuel + 1)).run s = .error e t := by
  rw [recvMessage, bind_error turn]

/-- More fuel than there are turns changes nothing. -/
theorem Turns.fuel {n : Nat} {s t u : SrsProtocol β} {msgs : List SrsCommonMessage} {e : SrsError}
    (turns : Turns n s msgs t) (stuck : recvMessageTurn.run t = .error e u) (fuel fuel' : Nat) (enough : n < fuel)
    (enough' : n < fuel') : (recvMessage fuel).run s = (recvMessage fuel').run s := by
  induction turns generalizing fuel fuel' with
  | nil =>
    match fuel, fuel', enough, enough' with
    | fuel + 1, fuel' + 1, _, _ => rw [recvMessage_error fuel stuck, recvMessage_error fuel' stuck]
  | @cons _ _ _ _ received _ turn rest ih =>
    match fuel, fuel', enough, enough' with
    | fuel + 1, fuel' + 1, enough, enough' =>
      cases received with
      | none =>
        rw [recvMessage_none fuel turn, recvMessage_none fuel' turn]
        exact ih stuck fuel fuel' (Nat.lt_of_succ_lt_succ enough) (Nat.lt_of_succ_lt_succ enough')
      | some msg => rw [recvMessage_some fuel turn, recvMessage_some fuel' turn]

/-- A caller gets the messages of the turns, and then the error of the turn that fails. -/
theorem Turns.receive {n : Nat} {s t u : SrsProtocol β} {msgs : List SrsCommonMessage} {e : SrsError}
    (turns : Turns n s msgs t) (stuck : recvMessageTurn.run t = .error e u) {fuel calls : Nat} (enough : n < fuel)
    (often : msgs.length < calls) : Rtmp.receive fuel calls s = (msgs, some e) := by
  obtain ⟨fuel, rfl⟩ := Nat.exists_eq_add_one_of_ne_zero (Nat.ne_of_gt (Nat.zero_lt_of_lt enough))
  induction turns generalizing calls with
  | nil =>
    obtain ⟨calls, rfl⟩ := Nat.exists_eq_add_one_of_ne_zero (Nat.ne_of_gt often)
    rw [Rtmp.receive, recvMessage_error fuel stuck]
  | @cons n s t _ received msgs turn rest ih =>
    obtain ⟨calls, rfl⟩ := Nat.exists_eq_add_one_of_ne_zero (Nat.ne_of_gt (Nat.zero_lt_of_lt often))
    cases received with
    | none =>
      have later := recvMessage_none fuel turn
      have same := rest.fuel stuck fuel (fuel + 1) (Nat.lt_of_succ_lt_succ enough) (Nat.lt_of_succ_lt enough)
      have all := ih stuck often (Nat.lt_of_succ_lt enough)
      rw [Rtmp.receive] at all ⊢
      rw [later, same]
      exact all
    | some msg =>
      have all := ih stuck (Nat.lt_of_succ_lt_succ often) (Nat.lt_of_succ_lt enough)
      rw [Rtmp.receive, recvMessage_some fuel turn]
      simp only [all]
      rfl

end Turns

/-- The chunks of a run of the peer are as many turns, and leave what comes after them. -/
theorem turns_run {mux mux' : Mux} {p : SrsProtocol Wire} {events : List ChunkEvent} (tracks : Tracks mux p)
    (whole : run Mux.step mux events = some mux') : ∃ wire, mux'.sent = mux.sent ++ wire ∧ ∀ rest, ∃ received q,
      Turns events.length (p.atBytes (wire ++ rest)) received (q.atBytes rest) ∧ Tracks mux' q ∧
        mux'.done = mux.done ++ received.map SrsCommonMessage.arrived := by
  induction events generalizing mux p with
  | nil =>
    cases whole
    exact ⟨[], (List.append_nil _).symm, fun rest => ⟨[], p, .nil _, tracks, (List.append_nil _).symm⟩⟩
  | cons event events ih =>
    obtain ⟨next, taken, later⟩ := run_cons whole
    obtain ⟨chunk, sent, turn⟩ := turn_step tracks taken
    obtain ⟨_, middle, -, follows, -⟩ := turn []
    obtain ⟨wire, sent', -⟩ := ih follows later
    refine ⟨chunk ++ wire, by rw [sent', sent, List.append_assoc], fun rest => ?_⟩
    obtain ⟨received, middle, took, follows, done⟩ := turn (wire ++ rest)
    obtain ⟨wire', sent'', turns⟩ := ih follows later
    have same : wire' = wire := List.append_cancel_left (sent''.symm.trans sent')
    subst same
    obtain ⟨received', q, rests, tracks', done'⟩ := turns rest
    refine ⟨received.toList ++ received', q, ?_, tracks', ?_⟩
    · rw [List.append_assoc]
      exact .cons took rests
    · rw [done', done, List.map_append, List.append_assoc]
      cases received <;> rfl

theorem tracks_start (wire : List UInt8) : Tracks {} { inBuffer := ⟨wire⟩ } where
  chunkSize := rfl
  responses := rfl
  lanes _ :=
    { sameCid := rfl
      perferCid := rfl
      header := fun _ known => nomatch known
      idle := fun _ => rfl
      busy := fun _ _ pending => nomatch pending }

theorem turn_at_end (q : SrsProtocol Wire) : recvMessageTurn.run (q.atBytes []) = .error .socketRead (q.atBytes []) := by
  have none_left : (readSlice 1).run (q.atBytes []) = .error .socketRead (q.atBytes []) :=
    readSlice_short (p := q.atBytes []) Nat.one_pos
  unfold recvMessageTurn recvInterlacedMessage readBasicHeader read1Byte
  exact bind_error (bind_error (bind_error (bind_error none_left)))

theorem receive_run {events : List ChunkEvent} {mux : Mux} (whole : run Mux.step {} events = some mux)
    {fuel calls : Nat} (enough : events.length < fuel) (often : mux.done.length < calls) :
    ∃ received, receive fuel calls { inBuffer := (⟨mux.sent⟩ : Wire) } = (received, some .socketRead) ∧
      received.map SrsCommonMessage.arrived = mux.done := by
  obtain ⟨wire, sent, turns⟩ := turns_run (tracks_start mux.sent) whole
  obtain ⟨received, q, turns, -, done⟩ := turns []
  have sent : mux.sent = wire := sent
  have done : mux.done = received.map SrsCommonMessage.arrived := done
  have fewer : received.length < calls := by
    rw [done, List.length_map] at often
    exact often
  have all := turns.receive (turn_at_end q) enough fewer
  rw [List.append_nil, ← sent] at all
  exact ⟨received, all, done.symm⟩

/-- No chunk size is announced that is over half of the reader's buffer. -/
def Mux.FitsBuffer (mux : Mux) : Prop :=
  ∀ arrived ∈ mux.done, arrived.messageType = msgSetChunkSize →
    2 * announcedChunkSize arrived.payload ≤ defaultRecvBufferSize

instance (mux : Mux) : Decidable mux.FitsBuffer :=
  inferInstanceAs (Decidable (∀ arrived ∈ mux.done, _ → _))

theorem fitsBuffer_arrived {mux : Mux} (fits : mux.FitsBuffer) {msg : SrsCommonMessage} (member : msg.arrived ∈ mux.done) :
    FitsBuffer msg := by
  intro announces
  have half : 2 * ofBigEndian (msg.payload.take 4) ≤ defaultRecvBufferSize := fits _ member announces
  have size : defaultRecvBufferSize = 131072 := rfl
  rw [read4Bytes_of_lt (by omega)]
  exact_mod_cast half

/-- The messages of a peer, however the socket cuts its bytes into pieces. -/
theorem receive_buffered {events : List ChunkEvent} {mux : Mux} (whole : run Mux.step {} events = some mux)
    (fits : mux.FitsBuffer) {pieces : List (List UInt8)} (sent : pieces.flatten = mux.sent) {fuel calls : Nat}
    (enough : events.length < fuel) (often : mux.done.length < calls) :
    ∃ received, receive fuel calls { inBuffer := ({ pieces } : SrsFastBuffer) } = (received, some .socketRead) ∧
      received.map SrsCommonMessage.arrived = mux.done := by
  obtain ⟨received, all, done⟩ := receive_run whole enough often
  rw [← sent] at all
  refine ⟨received, ?_, done⟩
  rw [← all]
  refine receive_sim (halved_start pieces []) fun msg member => ?_
  rw [all] at member
  exact fitsBuffer_arrived fits (done ▸ List.mem_map_of_mem member)

/-- A video message of two chunks, and between them two audio messages on another chunk stream. -/
def videoFrame : RtmpMessage :=
  ⟨9, 1, 0x1000000, List.replicate 130 7, by norm_num, by norm_num, by simp, by simp⟩

def audioFrame (timestamp : Fin 1000) : RtmpMessage :=
  ⟨8, 1, timestamp, [1, 2, 3], by norm_num, by omega, by simp, by simp⟩

def twoStreams : List ChunkEvent :=
  [.start 6 .full videoFrame, .start 7 .full (audioFrame 40), .start 7 (.sameLength 20) (audioFrame 60), .next 6]

end AdTerminal.Rtmp
