import AdTerminal.Rtmp.PacketRoundTrip
import Mathlib.Data.List.Basic

/-! Aggregate messages: several tags in one message, which the reader hands out one by one. -/

namespace AdTerminal.Rtmp

open BigEndian Simulation Transition

/-- A tag of an aggregate. The reader does not look at what `trailer`, the size of the tag, says. -/
structure AggregateTag where
  type : UInt8
  timestamp : Nat
  streamId : Nat
  data : List UInt8
  trailer : Nat
  timestamp_lt : timestamp < 2 ^ 31
  length_lt : data.length < 2 ^ 24

namespace AggregateTag

/-- The fields before the data. -/
def head (tag : AggregateTag) : List UInt8 :=
  tag.type :: (bigEndian 3 tag.data.length ++ (bigEndian 3 tag.timestamp ++
    (bigEndian 1 (tag.timestamp / 2 ^ 24) ++ bigEndian 3 tag.streamId)))

def bytes (tag : AggregateTag) : List UInt8 :=
  tag.head ++ (tag.data ++ bigEndian 4 tag.trailer)

theorem length_head (tag : AggregateTag) : tag.head.length = 11 := by
  simp [head]

/-- The message the tag is handed out as. -/
def message (header : SrsMessageHeader) (tag : AggregateTag) (timestamp : Nat) : SrsCommonMessage :=
  { header :=
      { timestampDelta := timestamp, payloadLength := tag.data.length, messageType := tag.type
        streamId := tag.streamId % 2 ^ 24, timestamp, perferCid := header.perferCid }
    allocated := if tag.data.length = 0 then none else some tag.data.length
    payload := tag.data }

end AggregateTag

/-- The timestamps the tags are handed out with: while they are after the aggregate's own they become its own,
and from the first that is not, they all move by as much as it. -/
def retime (clock : Nat) : List Nat → List Nat
  | [] => []
  | t :: ts => if t ≤ clock then (t :: ts).map fun time => time + (clock - t) else clock :: retime clock ts

theorem length_retime (clock : Nat) (times : List Nat) : (retime clock times).length = times.length := by
  induction times with
  | nil => rfl
  | cons t ts ih =>
    rw [retime]
    split
    · rw [List.length_map]
    · rw [List.length_cons, List.length_cons, ih]

/-- The fields of a tag's head are read back. -/
theorem AggregateTag.head_fields (tag : AggregateTag) (rest : List UInt8) :
    (tag.head ++ rest).headD 0 = tag.type ∧
    ofBigEndian (((tag.head ++ rest).drop 1).take 3) = tag.data.length ∧
    (ofBigEndian (((tag.head ++ rest).drop 7).take 1) * 2 ^ 24 + ofBigEndian (((tag.head ++ rest).drop 4).take 3)) %
      2 ^ 31 = tag.timestamp ∧
    ofBigEndian (((tag.head ++ rest).drop 8).take 3) = tag.streamId % 2 ^ 24 ∧ (tag.head ++ rest).drop 11 = rest := by
  have size := length_bigEndian 3 tag.data.length
  have low := length_bigEndian 3 tag.timestamp
  have high := length_bigEndian 1 (tag.timestamp / 2 ^ 24)
  have stream := length_bigEndian 3 tag.streamId
  have at1 : (tag.head ++ rest).drop 1 = bigEndian 3 tag.data.length ++ (bigEndian 3 tag.timestamp ++
      (bigEndian 1 (tag.timestamp / 2 ^ 24) ++ (bigEndian 3 tag.streamId ++ rest))) := by
    simp [head]
  have at4 : (tag.head ++ rest).drop 4 = bigEndian 3 tag.timestamp ++
      (bigEndian 1 (tag.timestamp / 2 ^ 24) ++ (bigEndian 3 tag.streamId ++ rest)) := by
    rw [show 4 = 1 + 3 from rfl, ← List.drop_drop, at1, List.drop_left' size]
  have at7 : (tag.head ++ rest).drop 7 = bigEndian 1 (tag.timestamp / 2 ^ 24) ++ (bigEndian 3 tag.streamId ++ rest) := by
    rw [show 7 = 4 + 3 from rfl, ← List.drop_drop, at4, List.drop_left' low]
  have at8 : (tag.head ++ rest).drop 8 = bigEndian 3 tag.streamId ++ rest := by
    rw [show 8 = 7 + 1 from rfl, ← List.drop_drop, at7, List.drop_left' high]
  refine ⟨rfl, ?_, ?_, ?_, ?_⟩
  · rw [at1, List.take_left' size, ofBigEndian_bigEndian_of_lt tag.length_lt]
  · have bound := tag.timestamp_lt
    rw [at7, at4, List.take_left' high, List.take_left' low, ofBigEndian_bigEndian, ofBigEndian_bigEndian]
    omega
  · rw [at8, List.take_left' stream, ofBigEndian_bigEndian]
    rfl
  · rw [show 11 = 8 + 3 from rfl, ← List.drop_drop, at8, List.drop_left' stream]

/-- A turn of the loop takes a tag off and hands it out at its moved timestamp. -/
theorem onAggregateLoop_tag (header : SrsMessageHeader) (fuel : Nat) (delta : Int) (tag : AggregateTag)
    (rest : List UInt8) :
    let moved := if delta < 0 then ((header.timestamp : Int) - tag.timestamp).bmod (2 ^ 32) else delta
    onAggregateLoop header (fuel + 1) delta (tag.bytes ++ rest) =
      (tag.message header (((tag.timestamp + moved) % 2 ^ 32).toNat) :: (onAggregateLoop header fuel moved rest).1,
        (onAggregateLoop header fuel moved rest).2) := by
  intro moved
  have bytes : tag.bytes ++ rest = tag.head ++ (tag.data ++ (bigEndian 4 tag.trailer ++ rest)) := by
    simp only [AggregateTag.bytes, List.append_assoc]
  obtain ⟨type, size, time, stream, left⟩ := tag.head_fields (tag.data ++ (bigEndian 4 tag.trailer ++ rest))
  have nonempty : tag.head ++ (tag.data ++ (bigEndian 4 tag.trailer ++ rest)) ≠ [] := by simp [AggregateTag.head]
  have long : ¬ (tag.head ++ (tag.data ++ (bigEndian 4 tag.trailer ++ rest))).length < 11 := by
    rw [List.length_append, tag.length_head]
    omega
  have whole : ¬ (tag.data ++ (bigEndian 4 tag.trailer ++ rest)).length < tag.data.length + 4 := by
    simp only [List.length_append, length_bigEndian]
    omega
  have data : (tag.data ++ (bigEndian 4 tag.trailer ++ rest)).take tag.data.length = tag.data := List.take_left' rfl
  have behind : (tag.data ++ (bigEndian 4 tag.trailer ++ rest)).drop (tag.data.length + 4) = rest := by
    rw [← List.drop_drop, List.drop_left' rfl, List.drop_left' (length_bigEndian ..)]
  rw [bytes, onAggregateLoop, if_neg nonempty, if_neg long]
  simp only [type, size, time, stream, left, if_neg whole, data, behind]
  rfl

theorem onAggregateLoop_moved (header : SrsMessageHeader) {delta : Nat} (small : delta < 2 ^ 31)
    (tags : List AggregateTag) {fuel : Nat} (enough : tags.length < fuel) :
    onAggregateLoop header fuel delta (tags.flatMap AggregateTag.bytes) =
      (tags.map fun tag => tag.message header (tag.timestamp + delta), none) := by
  induction tags generalizing fuel with
  | nil =>
    obtain ⟨fuel, rfl⟩ := Nat.exists_eq_add_one_of_ne_zero (Nat.ne_of_gt enough)
    rfl
  | cons tag tags ih =>
    obtain ⟨fuel, rfl⟩ := Nat.exists_eq_add_one_of_ne_zero (Nat.ne_of_gt (Nat.zero_lt_of_lt enough))
    have later := ih (Nat.lt_of_succ_lt_succ enough)
    have settled : ¬ ((delta : Int) < 0) := by omega
    have time := tag.timestamp_lt
    have moved : ((tag.timestamp + (delta : Int)) % 2 ^ 32).toNat = tag.timestamp + delta := by omega
    rw [List.flatMap_cons, onAggregateLoop_tag]
    simp only [if_neg settled, later, moved, List.map_cons]

/-- The loop hands out every tag, at its new timestamp. -/
theorem onAggregateLoop_tags (header : SrsMessageHeader) (clock : header.timestamp < 2 ^ 31) {delta : Int}
    (unsettled : delta < 0) (tags : List AggregateTag) {fuel : Nat} (enough : tags.length < fuel) :
    onAggregateLoop header fuel delta (tags.flatMap AggregateTag.bytes) =
      (List.zipWith (AggregateTag.message header) tags (retime header.timestamp (tags.map AggregateTag.timestamp)),
        none) := by
  induction tags generalizing fuel delta with
  | nil =>
    obtain ⟨fuel, rfl⟩ := Nat.exists_eq_add_one_of_ne_zero (Nat.ne_of_gt enough)
    rfl
  | cons tag tags ih =>
    obtain ⟨fuel, rfl⟩ := Nat.exists_eq_add_one_of_ne_zero (Nat.ne_of_gt (Nat.zero_lt_of_lt enough))
    have time := tag.timestamp_lt
    have exact_delta : ((header.timestamp : Int) - tag.timestamp).bmod (2 ^ 32) = header.timestamp - tag.timestamp :=
      Int.bmod_eq_of_le (by omega) (by omega)
    have moved : ((tag.timestamp + ((header.timestamp : Int) - tag.timestamp)) % 2 ^ 32).toNat = header.timestamp := by
      omega
    rw [List.flatMap_cons, onAggregateLoop_tag]
    simp only [if_pos unsettled, exact_delta, moved, List.map_cons, retime]
    by_cases before : tag.timestamp ≤ header.timestamp
    · -- the delta is settled, and the later tags move by as much
      have settled : (header.timestamp : Int) - tag.timestamp = ((header.timestamp - tag.timestamp : Nat) : Int) := by
        omega
      have rest := onAggregateLoop_moved header (by omega : header.timestamp - tag.timestamp < 2 ^ 31) tags
        (Nat.lt_of_succ_lt_succ enough)
      rw [settled, rest, if_pos before, Nat.add_sub_cancel' before]
      simp only [List.zipWith_cons_cons, List.map_map, List.zipWith_map_right, List.zipWith_self]
      rfl
    · rw [if_neg before, ih (by omega) (Nat.lt_of_succ_lt_succ enough), List.zipWith_cons_cons]

theorem srsRtmpOnAggregate_tags {msg : SrsCommonMessage} {tags : List AggregateTag}
    (clock : msg.header.timestamp < 2 ^ 31) (payload : msg.payload = tags.flatMap AggregateTag.bytes) :
    srsRtmpOnAggregate msg = (List.zipWith (AggregateTag.message msg.header) tags
      (retime msg.header.timestamp (tags.map AggregateTag.timestamp)), none) := by
  cases tags with
  | nil =>
    rw [srsRtmpOnAggregate, payload]
    rfl
  | cons tag tags =>
    have each : ∀ tags : List AggregateTag, tags.length ≤ (tags.flatMap AggregateTag.bytes).length := by
      intro tags
      induction tags with
      | nil => exact Nat.zero_le _
      | cons tag tags ih =>
        rw [List.flatMap_cons, List.length_append, List.length_cons, AggregateTag.bytes, List.length_append,
          tag.length_head]
        omega
    have enough : (tag :: tags).length < msg.payload.length := by
      have rest := each tags
      rw [payload, List.flatMap_cons, List.length_append, List.length_cons, AggregateTag.bytes, List.length_append,
        tag.length_head]
      omega
    rw [srsRtmpOnAggregate]
    rw [payload] at enough ⊢
    exact onAggregateLoop_tags msg.header clock (by decide) (tag :: tags) enough

/-- The messages that a received one is handed out as. -/
def handedOut (msg : SrsCommonMessage) : List SrsCommonMessage :=
  if msg.header.messageType = msgAggregateMessage then (srsRtmpOnAggregate msg).1 else [msg]

/-- If it is an aggregate, it can be taken apart, and there is no aggregate in it. -/
def TakenApart (msg : SrsCommonMessage) : Prop :=
  handedOut msg ≠ [] ∧ (∀ sub ∈ handedOut msg, sub.header.messageType ≠ msgAggregateMessage) ∧
    (msg.header.messageType = msgAggregateMessage → (srsRtmpOnAggregate msg).2 = none)

section Queue

variable {β : Type} [ByteSource SrsError β]

theorem readPacket_queued {msg : SrsCommonMessage} (plain : msg.header.messageType ≠ msgAggregateMessage)
    (fuel turns : Nat) (rtmp : SrsProtocol β) (msgs : List SrsCommonMessage) :
    (srsRtmpReadPacket fuel (turns + 1)).run { rtmp, msgs := msg :: msgs } =
      .ok (some msg.arrived.packet) { rtmp, msgs } := by
  have next : (nextMessage fuel).run ({ rtmp, msgs := msg :: msgs } : Context β) = .ok (some msg) { rtmp, msgs } := rfl
  rw [srsRtmpReadPacket, bind_ok next]
  simp only
  rw [bind_ok (goPacket_plain plain _)]
  rfl

theorem readPackets_queued (fuel reads : Nat) (rtmp : SrsProtocol β) {msgs : List SrsCommonMessage}
    (plain : ∀ msg ∈ msgs, msg.header.messageType ≠ msgAggregateMessage) :
    readPackets (fuel + 1) (msgs.length + reads) { rtmp, msgs } =
      ((msgs.map fun msg => msg.arrived.packet) ++ (readPackets (fuel + 1) reads { rtmp }).1,
        (readPackets (fuel + 1) reads { rtmp }).2) := by
  induction msgs with
  | nil => rw [List.length_nil, Nat.zero_add, List.map_nil, List.nil_append]
  | cons msg msgs ih =>
    have rest := ih fun other member => plain other (List.mem_cons_of_mem _ member)
    rw [List.length_cons, Nat.add_right_comm, readPackets,
      readPacket_queued (plain msg List.mem_cons_self) (fuel + 1) fuel rtmp msgs]
    simp only [rest, List.map_cons, List.cons_append]

/-- The first of a message's packets, with the others queued behind it. -/
theorem readPacket_first (fuel : Nat) {p q : SrsProtocol β} {msg : SrsCommonMessage}
    (received : (recvMessage (fuel + 2)).run p = .ok (some msg) q) (apart : TakenApart msg) :
    ∃ first rest, handedOut msg = first :: rest ∧
      (srsRtmpReadPacket (fuel + 2) (fuel + 2)).run ({ rtmp := p } : Context β) =
        .ok (some first.arrived.packet) { rtmp := q, msgs := rest } := by
  obtain ⟨nonempty, plain, complete⟩ := apart
  obtain ⟨first, rest, parts⟩ := List.exists_cons_of_ne_nil nonempty
  refine ⟨first, rest, parts, ?_⟩
  by_cases aggregate : msg.header.messageType = msgAggregateMessage
  · have queued : srsRtmpOnAggregate msg = (first :: rest, none) := by
      rw [handedOut, if_pos aggregate] at parts
      exact Prod.ext parts (complete aggregate)
    have none_yet : (srsRtmpGoPacket msg).run ({ rtmp := q } : Context β) =
        .ok none { rtmp := q, msgs := first :: rest } := by
      unfold srsRtmpGoPacket
      rw [aggregate]
      simp only [queued]
      rfl
    rw [srsRtmpReadPacket, bind_ok (nextMessage_received received)]
    simp only
    rw [bind_ok none_yet]
    exact readPacket_queued (plain first (parts ▸ List.mem_cons_self)) (fuel + 2) fuel q rest
  · rw [handedOut, if_neg aggregate] at parts
    cases parts
    exact readPacket_message (fuel + 1) received aggregate

theorem readPackets_handedOut (fuel calls : Nat) {p : SrsProtocol β} {msgs : List SrsCommonMessage} {e : SrsError}
    (received : receive (fuel + 2) calls p = (msgs, some e)) (apart : ∀ msg ∈ msgs, TakenApart msg) {reads : Nat}
    (often : (msgs.flatMap handedOut).length < reads) :
    readPackets (fuel + 2) reads { rtmp := p } =
      ((msgs.flatMap handedOut).map fun msg => msg.arrived.packet, some e) := by
  induction calls generalizing p msgs reads with
  | zero => cases received
  | succ calls ih =>
    obtain ⟨reads, rfl⟩ := Nat.exists_eq_add_one_of_ne_zero (Nat.ne_of_gt (Nat.zero_lt_of_lt often))
    rw [receive] at received
    rw [readPackets]
    split at received
    next msg q next =>
      obtain ⟨rfl, refused⟩ := Prod.ext_iff.mp received
      have each : TakenApart msg := apart msg List.mem_cons_self
      obtain ⟨first, rest, parts, read⟩ := readPacket_first fuel next each
      rw [List.flatMap_cons, parts] at often ⊢
      simp only [List.length_append, List.length_cons] at often
      obtain ⟨more, rfl⟩ : ∃ more, reads = rest.length + more := ⟨reads - rest.length, by omega⟩
      have later := ih (Prod.ext rfl refused) (fun other member => apart other (List.mem_cons_of_mem _ member))
        (by omega : ((receive (fuel + 2) calls q).1.flatMap handedOut).length < more)
      have queue := readPackets_queued (fuel + 1) more q fun sub member =>
        each.2.1 sub (parts ▸ List.mem_cons_of_mem _ member)
      rw [later] at queue
      rw [read]
      simp only [queue, List.cons_append, List.map_cons, List.map_append]
    next => cases received
    next f q next =>
      cases received
      rw [readPacket_refused (fuel + 1) next]
      rfl

end Queue

namespace AggregateTag

def packet (tag : AggregateTag) (timestamp : Nat) : RtmpPacket :=
  packetOf tag.type timestamp tag.data

end AggregateTag

namespace Arrived

/-- What is read of a message: the tags of an aggregate at their new timestamps, or the message's own packet. -/
def packets (tags : Arrived → List AggregateTag) (arrived : Arrived) : List RtmpPacket :=
  if arrived.messageType = msgAggregateMessage then
    List.zipWith AggregateTag.packet (tags arrived) (retime arrived.clock ((tags arrived).map AggregateTag.timestamp))
  else [arrived.packet]

/-- An aggregate consists of these tags, and none of them is an aggregate. -/
def ConsistsOf (arrived : Arrived) (tags : List AggregateTag) : Prop :=
  arrived.messageType = msgAggregateMessage →
    arrived.payload = tags.flatMap AggregateTag.bytes ∧ ∀ tag ∈ tags, tag.type ≠ msgAggregateMessage

end Arrived

/-- A message that arrives has 31 bits of timestamp, and is not empty. -/
theorem done_run {mux mux' : Mux} {events : List ChunkEvent} (whole : run Mux.step mux events = some mux')
    (before : ∀ arrived ∈ mux.done, arrived.clock < 2 ^ 31 ∧ arrived.payload ≠ []) :
    ∀ arrived ∈ mux'.done, arrived.clock < 2 ^ 31 ∧ arrived.payload ≠ [] := by
  have put : ∀ (mux : Mux) cid header last (msg : RtmpMessage) offset,
      (∀ arrived ∈ mux.done, arrived.clock < 2 ^ 31 ∧ arrived.payload ≠ []) →
      ∀ arrived ∈ (mux.putChunk cid header last msg offset).done, arrived.clock < 2 ^ 31 ∧ arrived.payload ≠ [] := by
    intro mux cid header last msg offset before arrived member
    rw [Mux.putChunk] at member
    split at member
    · rcases List.mem_append.mp member with old | new
      · exact before arrived old
      · cases List.mem_singleton.mp new
        exact ⟨Nat.mod_lt _ (by decide), List.ne_nil_of_length_pos msg.nonempty⟩
    · exact before arrived member
  induction events generalizing mux with
  | nil => cases whole; exact before
  | cons event events ih =>
    obtain ⟨next, taken, rest⟩ := run_cons whole
    refine ih rest ?_
    cases event with
    | start cid kind msg =>
      simp only [Mux.step, Option.ite_none_right_eq_some, Option.some_inj] at taken
      obtain ⟨-, rfl⟩ := taken
      exact put mux _ _ _ _ _ before
    | next cid =>
      simp only [Mux.step] at taken
      split at taken
      · cases taken
        exact put mux _ _ _ _ _ before
      · cases taken

theorem handedOut_tags {msg : SrsCommonMessage} {tags : List AggregateTag} (clock : msg.header.timestamp < 2 ^ 31)
    (aggregate : msg.header.messageType = msgAggregateMessage)
    (payload : msg.payload = tags.flatMap AggregateTag.bytes) :
    handedOut msg = List.zipWith (AggregateTag.message msg.header) tags
      (retime msg.header.timestamp (tags.map AggregateTag.timestamp)) := by
  rw [handedOut, if_pos aggregate, srsRtmpOnAggregate_tags clock payload]

theorem takenApart_of_consistsOf {msg : SrsCommonMessage} {tags : List AggregateTag}
    (clock : msg.header.timestamp < 2 ^ 31) (nonempty : msg.payload ≠ []) (consists : msg.arrived.ConsistsOf tags) :
    TakenApart msg := by
  by_cases aggregate : msg.header.messageType = msgAggregateMessage
  · obtain ⟨payload, plain⟩ := consists aggregate
    have payload : msg.payload = tags.flatMap AggregateTag.bytes := payload
    have times := length_retime msg.header.timestamp (tags.map AggregateTag.timestamp)
    refine ⟨?_, ?_, fun _ => by rw [srsRtmpOnAggregate_tags clock payload]⟩
    · intro nothing
      have count : (handedOut msg).length = 0 := by rw [nothing, List.length_nil]
      rw [handedOut_tags clock aggregate payload, List.length_zipWith, times, List.length_map, Nat.min_self,
        List.length_eq_zero_iff] at count
      rw [count] at payload
      exact nonempty payload
    · rw [handedOut_tags clock aggregate payload]
      intro sub member
      rw [← List.map_uncurry_zip_eq_zipWith, List.mem_map] at member
      obtain ⟨⟨tag, time⟩, both, rfl⟩ := member
      exact plain tag (List.of_mem_zip both).1
  · refine ⟨?_, ?_, fun same => absurd same aggregate⟩
    · rw [handedOut, if_neg aggregate]
      exact List.cons_ne_nil _ _
    · rw [handedOut, if_neg aggregate]
      intro sub member
      exact List.mem_singleton.mp member ▸ aggregate

theorem packets_handedOut {msg : SrsCommonMessage} (tags : Arrived → List AggregateTag)
    (clock : msg.header.timestamp < 2 ^ 31) (consists : msg.arrived.ConsistsOf (tags msg.arrived)) :
    ((handedOut msg).map fun sub => sub.arrived.packet) = msg.arrived.packets tags := by
  by_cases aggregate : msg.header.messageType = msgAggregateMessage
  · have arrived : msg.arrived.messageType = msgAggregateMessage := aggregate
    rw [handedOut_tags clock aggregate (consists aggregate).1, List.map_zipWith, Arrived.packets, if_pos arrived]
    rfl
  · have arrived : ¬ msg.arrived.messageType = msgAggregateMessage := aggregate
    rw [handedOut, if_neg aggregate, Arrived.packets, if_neg arrived, List.map_singleton]

/-- An aggregate of a video tag and an audio tag, which was moved from 1000 to 20. -/
def movedTags : List AggregateTag :=
  [⟨9, 20, 0, [0x17, 1], 13, by decide, by decide⟩, ⟨8, 0x1000020, 0, [], 11, by decide, by decide⟩]

def movedAggregate : RtmpMessage :=
  ⟨22, 1, 1000, movedTags.flatMap AggregateTag.bytes, by decide, by decide, by decide, by decide⟩

/-- All timestamps move by as much. -/
def KeepsDistances (times new : List Nat) : Prop :=
  ∃ shift : Int, (new.map fun t : Nat => (t : Int)) = times.map fun t : Nat => (t : Int) + shift

theorem keepsDistances_retime_iff (clock t : Nat) (ts : List Nat) :
    KeepsDistances (t :: ts) (retime clock (t :: ts)) ↔ t ≤ clock ∨ ∀ other ∈ ts, other = t := by
  rw [retime]
  constructor
  · rintro ⟨shift, same⟩
    rcases Nat.lt_or_ge clock t with late | early
    swap
    · exact .inl early
    rw [if_neg (Nat.not_le.mpr late)] at same
    -- a tag after the aggregate moves back, so the next one has to be as late
    have back : (clock : Int) = t + shift := (List.cons.inj same).1
    refine .inr ?_
    have rest := (List.cons.inj same).2
    clear same
    induction ts with
    | nil => exact nofun
    | cons u us ih =>
      have first : u = t := by
        rw [retime] at rest
        split at rest
        next early =>
          have moved : ((u + (clock - u) : Nat) : Int) = u + shift := (List.cons.inj rest).1
          omega
        next late' =>
          have moved : (clock : Int) = u + shift := (List.cons.inj rest).1
          omega
      subst first
      rw [retime, if_neg (Nat.not_le.mpr late)] at rest
      intro other member
      rcases List.mem_cons.mp member with rfl | later
      · rfl
      · exact ih (List.cons.inj rest).2 other later
  · rintro (early | equal)
    · refine ⟨clock - t, ?_⟩
      rw [if_pos early, List.map_map]
      refine List.map_congr_left fun time _ => ?_
      simp only [Function.comp]
      omega
    · refine ⟨clock - t, ?_⟩
      split
      · rw [List.map_map]
        refine List.map_congr_left fun time _ => ?_
        simp only [Function.comp]
        omega
      next late =>
        have same : ∀ us : List Nat, (∀ other ∈ us, other = t) → retime clock us = us.map fun _ => clock := by
          intro us equal
          induction us with
          | nil => rfl
          | cons u us ih =>
            obtain rfl := equal u List.mem_cons_self
            rw [retime, if_neg late, ih fun other member => equal other (List.mem_cons_of_mem _ member)]
            rfl
        rw [same ts equal, List.map_cons, List.map_cons, List.map_map]
        refine List.cons_eq_cons.mpr ⟨by omega, List.map_congr_left fun time member => ?_⟩
        rw [equal time member]
        simp only [Function.comp]
        omega

/-- The tags of an aggregate keep their distances in time exactly if the aggregate is not before the first of
them, or they are all of one time: a negative difference is taken for one not yet computed. -/
theorem aggregate_keeps_distances_iff (msg : SrsCommonMessage) (tag : AggregateTag) (tags : List AggregateTag)
    (clock : msg.header.timestamp < 2 ^ 31) (payload : msg.payload = (tag :: tags).flatMap AggregateTag.bytes) :
    KeepsDistances ((tag :: tags).map AggregateTag.timestamp)
        ((srsRtmpOnAggregate msg).1.map fun sub => sub.header.timestamp) ↔
      tag.timestamp ≤ msg.header.timestamp ∨ ∀ other ∈ tags, other.timestamp = tag.timestamp := by
  have times : ∀ (tags : List AggregateTag) (new : List Nat), new.length = tags.length →
      ((List.zipWith (AggregateTag.message msg.header) tags new).map fun sub => sub.header.timestamp) = new := by
    intro tags
    induction tags with
    | nil =>
      intro new same
      exact (List.length_eq_zero_iff.mp same).symm
    | cons tag tags ih =>
      intro new same
      cases new with
      | nil => nomatch same
      | cons t new => exact congrArg (t :: ·) (ih new (Nat.succ.inj same))
  have new : ((srsRtmpOnAggregate msg).1.map fun sub => sub.header.timestamp) =
      retime msg.header.timestamp ((tag :: tags).map AggregateTag.timestamp) := by
    rw [srsRtmpOnAggregate_tags clock payload]
    exact times _ _ ((length_retime ..).trans (List.length_map ..))
  rw [new, List.map_cons, keepsDistances_retime_iff, List.forall_mem_map]

/-- An aggregate that is moved to before its first tag loses their distances. -/
theorem aggregate_keeps_distances_iff_moved :
    ¬ KeepsDistances [20, 0x1000020] ((srsRtmpOnAggregate
      { header := { timestamp := 10 }, payload := movedTags.flatMap AggregateTag.bytes }).1.map
        fun sub => sub.header.timestamp) :=
  (aggregate_keeps_distances_iff { header := { timestamp := 10 }, payload := movedTags.flatMap AggregateTag.bytes }
    ⟨9, 20, 0, [0x17, 1], 13, by decide, by decide⟩ movedTags.tail (by decide) rfl).not.mpr (by decide)

end AdTerminal.Rtmp
