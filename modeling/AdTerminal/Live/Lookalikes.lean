import AdTerminal.Live.AnnexbUnits
import AdTerminal.Live.Broadcast
import AdTerminal.Live.KeyframeUnits

/-! Frames whose length is taken for a start code: that the player shows something else for them, and all frames
as they were made where there is none. -/

namespace AdTerminal.Live

open Rtmp BigEndian Simulation SrsAvcAacCodec

theorem startCodeAt_inside {bytes : List UInt8} (starts : StartCodeAt bytes 0) : [0, 0, 1] <:+: bytes := by
  obtain ⟨zero, zero', third⟩ := starts
  have other : (0 : UInt8) ≠ 1 := by decide
  match bytes with
  | [] => rcases third with one | ⟨-, one⟩ <;> exact absurd one other
  | [_] => rcases third with one | ⟨-, one⟩ <;> exact absurd one other
  | [_, _] => rcases third with one | ⟨-, one⟩ <;> exact absurd one other
  | b0 :: b1 :: b2 :: rest =>
    obtain rfl : b0 = 0 := zero
    obtain rfl : b1 = 0 := zero'
    rcases third with one | ⟨zero'', fourth⟩
    · obtain rfl : b2 = 1 := one
      exact ⟨[], rest, rfl⟩
    · obtain rfl : b2 = 0 := zero''
      cases rest with
      | nil => exact absurd fourth other
      | cons b3 rest =>
        obtain rfl : b3 = 1 := fourth
        exact ⟨[0], rest, rfl⟩

theorem quiet_free {bytes : List UInt8} (free : CodeFree bytes) : Quiet bytes [] := by
  induction bytes with
  | nil => trivial
  | cons b bytes ih =>
    refine ⟨fun starts => ?_, ih fun inside => free (List.infix_cons inside)⟩
    rw [List.append_nil] at starts
    exact free (startCodeAt_inside starts)

/-- The scan for the units of a key frame finds none. -/
theorem keyframe_free {bytes : List UInt8} (free : CodeFree bytes) : keyframe bytes = {} := by
  have behind : CodeFree (bytes.drop 4) := fun inside => free (inside.trans (List.drop_suffix 4 bytes).isInfix)
  have here : bytes.drop 4 = bytes.drop 4 ++ [] := (List.append_nil _).symm
  have ends : ¬ 4 + (bytes.drop 4).length + 4 < bytes.length := by
    rw [List.length_drop]
    omega
  change scanFrom bytes 4 {} = {}
  rw [scanFrom_quiet here (quiet_free behind), scanFrom, scan_end ends]

theorem gotUnits_called (units : List (List UInt8)) (timestamp : Nat) (pull : AnyRtmpPull) :
    ∃ more, (pull.gotUnits timestamp units).called = pull.called ++ more := by
  induction units generalizing pull with
  | nil => exact ⟨[], (List.append_nil _).symm⟩
  | cons unit units ih =>
    rw [AnyRtmpPull.gotUnits]
    dsimp only
    split_ifs
    · exact ⟨[], (List.append_nil _).symm⟩
    · exact ih pull
    · obtain ⟨more, later⟩ := ih (pull.rescanVideoframe unit timestamp)
      rw [later, AnyRtmpPull.rescanVideoframe]
      dsimp only
      split_ifs
      · exact ⟨_ :: more, List.append_assoc _ [_] _⟩
      · exact ⟨_ :: more, List.append_assoc _ [_] _⟩
    · obtain ⟨more, later⟩ := ih (((pull.appendVideo contNaluHeader).appendVideo unit).onRtmpullH264Data timestamp)
      rw [later]
      exact ⟨_ :: more, List.append_assoc _ [_] _⟩
    · obtain ⟨more, later⟩ := ih (((pull.appendVideo freshNaluHeader).appendVideo unit).onRtmpullH264Data timestamp)
      rw [later]
      exact ⟨_ :: more, List.append_assoc _ [_] _⟩

/-- What the first call for such units can hold, behind what the player has put into its buffer. -/
inductive Mangled (length : Nat) (hasIdr : Prop) (base : List UInt8) : List UInt8 → Prop
  | unit {unit : List UInt8} (mistaken : Mistaken length unit) (idr : nalUnitType unit = naluTypeIDR → hasIdr) :
      Mangled length hasIdr base (base ++ naluHeader unit ++ unit)
  | reserved {unit : List UInt8} (mistaken : Mistaken length unit) : Mangled length hasIdr base (base ++ unit)
  | code : Mangled length hasIdr base (base ++ freshNaluHeader)

theorem rescan_mistaken {pull : AnyRtmpPull} {length : Nat} {unit : List UInt8} (mistaken : Mistaken length unit)
    (room : pull.videoPayload.length + length + 5 ≤ videoPayloadSize) (timestamp : Nat) (hasIdr : Prop) :
    ∃ payload, (pull.rescanVideoframe unit timestamp).called = pull.called ++ [.h264 payload timestamp] ∧
      Mangled length hasIdr pull.videoPayload payload := by
  have size : unit.length ≤ length + 1 := by
    rcases mistaken.size with whole | less
    · exact Nat.le_of_eq whole
    · omega
  have four : freshNaluHeader.length = 4 := rfl
  rw [AnyRtmpPull.rescanVideoframe]
  set read : AnyRtmpPull := { pull with overread := pull.overread || decide (unit.length < 5) }
  change read.videoPayload.length + length + 5 ≤ videoPayloadSize at room
  change ∃ payload, _ = read.called ++ _ ∧ Mangled length hasIdr read.videoPayload payload
  clear_value read
  dsimp only
  split_ifs with set
  · have none_left : ∀ (bytes : List UInt8) (pull : AnyRtmpPull), pull.videoPayload.length ≤ videoPayloadSize →
        bytes = [] → pull.appendVideo bytes = pull := by
      intro bytes pull fits empty
      subst empty
      rw [appendVideo_fits (by rwa [List.length_nil, Nat.add_zero]), List.append_nil]
    have nothing : (keyframe unit).first unit = [] ∧ (keyframe unit).second unit = [] := by
      rw [keyframe_free mistaken.free]
      exact ⟨rfl, rfl⟩
    refine ⟨read.videoPayload ++ freshNaluHeader, ?_, .code⟩
    rw [keyframe_free mistaken.free] at nothing ⊢
    dsimp only
    have header := @appendVideo_fits read freshNaluHeader (by omega)
    have after : (read.videoPayload ++ freshNaluHeader).length ≤ videoPayloadSize := by
      rw [List.length_append]
      omega
    rw [none_left _ read (by omega) nothing.1, none_left _ read (by omega) nothing.2, header,
      none_left [] { read with videoPayload := read.videoPayload ++ freshNaluHeader } after rfl]
    rfl
  · refine ⟨read.videoPayload ++ unit, ?_, .reserved mistaken⟩
    rw [appendVideo_fits (by omega)]
    rfl

/-- The first call for such units. -/
theorem gotUnits_mistaken {units : List (List UInt8)} {pull : AnyRtmpPull} {length : Nat} {hasIdr : Prop}
    (mistaken : ∀ unit ∈ units, Mistaken length unit) (idr : ∀ unit ∈ units, nalUnitType unit = naluTypeIDR → hasIdr)
    (room : pull.videoPayload.length + length + 5 ≤ videoPayloadSize) (timestamp : Nat) :
    (pull.gotUnits timestamp units).called = pull.called ∨
      ∃ payload more, (pull.gotUnits timestamp units).called = pull.called ++ .h264 payload timestamp :: more ∧
        Mangled length hasIdr pull.videoPayload payload := by
  induction units with
  | nil => exact .inl rfl
  | cons unit units ih =>
    have first := mistaken unit List.mem_cons_self
    have size : unit.length ≤ length + 1 := by
      rcases first.size with whole | less
      · exact Nat.le_of_eq whole
      · omega
    rw [AnyRtmpPull.gotUnits, if_neg first.nonempty]
    dsimp only
    by_cases ignored : nalUnitType unit = naluTypeSPS ∨ nalUnitType unit = naluTypePPS ∨ nalUnitType unit = naluTypeSEI ∨
        nalUnitType unit = naluTypeAccessUnitDelimiter
    · rw [if_pos ignored]
      exact ih (fun unit member => mistaken unit (List.mem_cons_of_mem _ member))
        fun unit member => idr unit (List.mem_cons_of_mem _ member)
    rw [if_neg ignored]
    by_cases reserved : nalUnitType unit = naluTypeReserved
    · rw [if_pos reserved]
      obtain ⟨payload, called, mangled⟩ := rescan_mistaken first room timestamp hasIdr
      obtain ⟨more, later⟩ := gotUnits_called units timestamp (pull.rescanVideoframe unit timestamp)
      exact .inr ⟨payload, more, by rw [later, called, List.append_assoc]; rfl, mangled⟩
    · rw [if_neg reserved]
      obtain ⟨more, later⟩ := gotUnits_called units timestamp
        (((pull.appendVideo (naluHeader unit)).appendVideo unit).onRtmpullH264Data timestamp)
      have header : (naluHeader unit).length ≤ 4 := by
        unfold naluHeader
        split <;> decide
      have put := @appendVideo_fits pull (naluHeader unit) (by omega)
      have put' := @appendVideo_fits { pull with videoPayload := pull.videoPayload ++ naluHeader unit } unit (by
        rw [List.length_append]
        omega)
      refine .inr ⟨pull.videoPayload ++ naluHeader unit ++ unit, more, ?_, .unit first (idr unit List.mem_cons_self)⟩
      change (AnyRtmpPull.gotUnits timestamp units (((pull.appendVideo (naluHeader unit)).appendVideo
        unit).onRtmpullH264Data timestamp)).called = _
      rw [later, put, put']
      exact List.append_assoc _ [_] _

/-- The parameter sets as they are shown before a key frame. -/
def setsShown (sps pps : List UInt8) : List UInt8 :=
  freshNaluHeader ++ sps ++ (if pps = [] then [] else freshNaluHeader ++ pps)

theorem startsWith_lookalike {nalu : List UInt8} (long : 256 ≤ nalu.length ∧ nalu.length < 512) :
    SrsRawH264Stream.muxIpbFrame nalu = 0 :: 0 :: 1 :: UInt8.ofNat nalu.length :: nalu := by
  have zero : UInt8.ofNat (nalu.length / 65536) = 0 := by
    rw [Nat.div_eq_of_lt (by omega)]
    rfl
  have one : UInt8.ofNat (nalu.length / 256) = 1 := by
    have quotient : nalu.length / 256 = 1 := by omega
    rw [quotient]
    rfl
  rw [SrsRawH264Stream.muxIpbFrame, bigEndian_four (by omega), zero, one]
  rfl

/-- None of what is shown has the length of the frame, not even behind another start code. -/
theorem Mangled.split {length : Nat} (long : 256 ≤ length) {hasIdr : Prop} {base payload : List UInt8}
    (mangled : Mangled length hasIdr base payload) : ∃ rest, payload = base ++ rest ∧
      (rest.length ≠ length + 3) ∧ rest.length ≤ length + 5 ∧ (¬ hasIdr → rest.length ≠ length + 4) := by
  have three : contNaluHeader.length = 3 := rfl
  have four : freshNaluHeader.length = 4 := rfl
  cases mangled with
  | @unit unit mistaken idr =>
    refine ⟨naluHeader unit ++ unit, List.append_assoc _ _ _, ?_⟩
    have size := mistaken.size
    rw [List.length_append, naluHeader]
    by_cases slice : nalUnitType unit = naluTypeIDR
    · rw [if_pos slice]
      exact ⟨by omega, by omega, fun none_idr => absurd (idr slice) none_idr⟩
    · rw [if_neg slice]
      exact ⟨by omega, by omega, fun _ => by omega⟩
  | @reserved unit mistaken =>
    have size := mistaken.size
    exact ⟨unit, rfl, by omega, by omega, fun _ => by omega⟩
  | code => exact ⟨freshNaluHeader, rfl, by omega, by omega, fun _ => by omega⟩

/-- A frame whose length was taken for a start code is not shown as it was written. -/
theorem mangled_ne {sps pps nalu : List UInt8} (some_sps : sps ≠ []) (spsType : nalUnitType sps = naluTypeSPS)
    (slice : nalUnitType nalu = naluTypeIDR ∨ nalUnitType nalu = naluTypeNonIDR)
    (long : 256 ≤ nalu.length) {hasIdr : Prop} {base payload : List UInt8}
    (mangled : Mangled nalu.length hasIdr base payload) (held : base = setsShown sps pps ∨ base = [] ∧ ¬ hasIdr)
    (timestamp : Nat) : ∀ more, shown sps pps nalu timestamp ≠ .h264 payload timestamp :: more := by
  intro more same
  obtain ⟨rest, rfl, notThree, short, notFour⟩ := mangled.split long
  have three : contNaluHeader.length = 3 := rfl
  have four : freshNaluHeader.length = 4 := rfl
  have sets : 5 ≤ (setsShown sps pps).length := by
    have positive := List.length_pos_iff.mpr some_sps
    rw [setsShown, List.length_append, List.length_append, four]
    omega
  rw [shown] at same
  by_cases idr : nalUnitType nalu = naluTypeIDR
  · rw [if_pos idr] at same
    have payload : setsShown sps pps ++ contNaluHeader ++ nalu = base ++ rest :=
      (PulledFrame.h264.inj (List.cons.inj same).1).1
    have size := congrArg List.length payload
    rw [List.length_append, List.length_append, List.length_append, three] at size
    rcases held with rfl | ⟨rfl, -⟩
    · exact notThree (by omega)
    · rw [List.length_nil] at size
      omega
  · rw [if_neg idr, if_pos (slice.resolve_left idr)] at same
    have payload : freshNaluHeader ++ nalu = base ++ rest := (PulledFrame.h264.inj (List.cons.inj same).1).1
    rcases held with rfl | ⟨rfl, none_idr⟩
    · have behind := congrArg (List.drop 4) payload
      have parameter : (setsShown sps pps ++ rest).drop 4 =
          sps ++ ((if pps = [] then [] else freshNaluHeader ++ pps) ++ rest) := by
        rw [setsShown, List.append_assoc, List.append_assoc]
        rfl
      have frame : (freshNaluHeader ++ nalu).drop 4 = nalu := rfl
      rw [parameter, frame] at behind
      have type := congrArg nalUnitType behind
      rw [nalUnitType_append some_sps, spsType, slice.resolve_left idr] at type
      exact absurd type (by decide)
    · have size := congrArg List.length payload
      rw [List.length_append, four, List.nil_append] at size
      exact notFour none_idr (by omega)

theorem shown_nonempty {nalu : List UInt8} (slice : nalUnitType nalu = naluTypeIDR ∨ nalUnitType nalu = naluTypeNonIDR)
    (sps pps : List UInt8) (timestamp : Nat) : shown sps pps nalu timestamp ≠ [] := by
  rw [shown]
  by_cases idr : nalUnitType nalu = naluTypeIDR
  · rw [if_pos idr]
    exact List.cons_ne_nil _ _
  · rw [if_neg idr, if_pos (slice.resolve_left idr)]
    exact List.cons_ne_nil _ _

theorem avcDemuxNalus_mistaken {nalu : List UInt8} (long : 256 ≤ nalu.length ∧ nalu.length < 512) (frameType : Nat)
    {codec : SrsAvcAacCodec} (guessing : codec.payloadFormat ≠ .ibmf) :
    (avcDemuxNalus (SrsRawH264Stream.muxIpbFrame nalu) (noUnits frameType)).run codec = .error .hlsDecodeError codec ∨
      ∃ units, (∀ unit ∈ units, Mistaken nalu.length unit) ∧
        (avcDemuxNalus (SrsRawH264Stream.muxIpbFrame nalu) (noUnits frameType)).run codec =
          .ok (withUnits (noUnits frameType) units) { codec with payloadFormat := .annexb } := by
  have starts : (srsAvcStartswithAnnexb (SrsRawH264Stream.muxIpbFrame nalu)).isNone = false := by
    rw [startsWith_lookalike long]
    rfl
  unfold avcDemuxNalus
  rw [EStateM.run_bind, EStateM.run_get]
  dsimp only
  rw [if_neg guessing, avcDemuxAnnexbFormat, starts, if_neg Bool.false_ne_true]
  cases found : annexbUnits (SrsRawH264Stream.muxIpbFrame nalu).length (SrsRawH264Stream.muxIpbFrame nalu)
      (noUnits frameType) with
  | error e =>
    obtain rfl := annexbUnits_error found
    exact .inl rfl
  | ok sample =>
    rw [startsWith_lookalike long] at found
    obtain ⟨units, rfl, mistaken⟩ := annexbUnits_mistaken _ found
    exact .inr ⟨units, mistaken, rfl⟩

/-- What such units are shown as is not the frame. -/
theorem gotVideoSample_mistaken {pull : AnyRtmpPull} {sps pps nalu : List UInt8}
    (configured : Configured pull.srsCodec sps pps) (some_sps : sps ≠ []) (spsType : nalUnitType sps = naluTypeSPS)
    (slice : nalUnitType nalu = naluTypeIDR ∨ nalUnitType nalu = naluTypeNonIDR) (spsSmall : sps.length < 2 ^ 16)
    (ppsSmall : pps.length < 2 ^ 16) (clear : pull.videoPayload = []) (timestamp : Nat)
    (long : 256 ≤ nalu.length ∧ nalu.length < 512) {units : List (List UInt8)}
    (mistaken : ∀ unit ∈ units, Mistaken nalu.length unit) {frameType : Nat}
    (kinds : frameType = videoFrameKey ∨ frameType = videoFrameInter) :
    (pull.gotVideoSample timestamp (withUnits (noUnits frameType) units)).called ≠
      pull.called ++ shown sps pps nalu timestamp := by
  have limit : videoPayloadSize = 393216 := rfl
  have notInfo : ¬ frameType = videoInfoFrame := by
    rcases kinds with rfl | rfl <;> decide
  have notHeader : ¬ (frameType = videoFrameKey ∧ videoTypeNALU = videoTypeSequenceHeader) :=
    fun both => absurd both.2 (by decide)
  have differs : ∀ {hasIdr : Prop} {pull' : AnyRtmpPull}, pull'.called = pull.called →
      (pull'.videoPayload = setsShown sps pps ∨ pull'.videoPayload = [] ∧ ¬ hasIdr) →
      (∀ unit ∈ units, nalUnitType unit = naluTypeIDR → hasIdr) →
      (pull'.gotUnits timestamp units).called ≠ pull.called ++ shown sps pps nalu timestamp := by
    intro hasIdr pull' called held idr same
    have room : pull'.videoPayload.length + nalu.length + 5 ≤ videoPayloadSize := by
      have four : freshNaluHeader.length = 4 := rfl
      rcases held with held | ⟨held, -⟩
      · rw [held, setsShown]
        split <;> simp only [List.length_append, List.length_nil, four] <;> omega
      · rw [held, List.length_nil]
        omega
    rcases gotUnits_mistaken mistaken idr room timestamp with none_called | ⟨payload, more, first, mangled⟩
    · rw [none_called, called] at same
      exact shown_nonempty slice sps pps timestamp (List.append_right_eq_self.mp same.symm)
    · rw [first, called] at same
      exact mangled_ne some_sps spsType slice long.1 mangled held timestamp more (List.append_cancel_left same).symm
  rw [AnyRtmpPull.gotVideoSample, withUnits, noUnits]
  simp only [if_neg notInfo, if_neg notHeader, Bool.false_or, Bool.true_and, List.nil_append]
  by_cases found : (units.any fun unit => nalUnitType unit == naluTypeIDR) = true
  · rw [if_pos found, appendSets configured some_sps clear (by omega)]
    exact @differs True _ rfl (.inl rfl) fun _ _ _ => trivial
  · rw [if_neg found]
    refine @differs False pull rfl (.inr ⟨clear, id⟩) fun unit member slice => found ?_
    exact List.any_eq_true.mpr ⟨unit, member, beq_iff_eq.mpr slice⟩

/-- The first frame whose length is taken for a start code is not shown as it was written. -/
theorem gotPacket_mistaken {pull pull' : AnyRtmpPull} {sps pps nalu : List UInt8}
    (configured : Configured pull.srsCodec sps pps) (some_sps : sps ≠ []) (spsType : nalUnitType sps = naluTypeSPS)
    (slice : nalUnitType nalu = naluTypeIDR ∨ nalUnitType nalu = naluTypeNonIDR) (spsSmall : sps.length < 2 ^ 16)
    (ppsSmall : pps.length < 2 ^ 16) (clear : pull.videoPayload = []) (dts pts : UInt32)
    (guessing : pull.srsCodec.payloadFormat ≠ .ibmf) (long : 256 ≤ nalu.length ∧ nalu.length < 512)
    (read : pull.gotPacket (naluTag nalu dts pts).packet = some pull') :
    pull'.called ≠ pull.called ++ shown sps pps nalu (dts.toNat % 2 ^ 31) := by
  have kinds : (if nalUnitType nalu = naluTypeIDR then videoFrameKey else videoFrameInter) = videoFrameKey ∨
      (if nalUnitType nalu = naluTypeIDR then videoFrameKey else videoFrameInter) = videoFrameInter := by
    split
    · exact .inl rfl
    · exact .inr rfl
  have video : (naluTag nalu dts pts).packet.type = typeVideo := rfl
  have data : (naluTag nalu dts pts).packet.data = (naluTag nalu dts pts).data := rfl
  have notHeader : ¬ videoTypeNALU = videoTypeSequenceHeader := by decide
  have units := @avcDemuxNalus_mistaken nalu long
    (if nalUnitType nalu = naluTypeIDR then videoFrameKey else videoFrameInter)
    { pull.srsCodec with videoCodecId := codecVideoAVC } guessing
  rw [AnyRtmpPull.gotPacket, if_pos video, data, naluTag, videoAvcDemux_mux _ _ _ _ kinds, EStateM.run_bind,
    EStateM.run_modify] at read
  dsimp only at read
  rw [if_neg notHeader, if_pos rfl, EStateM.run_bind, EStateM.run_get] at read
  dsimp only at read
  rw [if_neg configured.extra] at read
  unfold noUnits at units
  rcases units with fails | ⟨units, mistaken, demuxed⟩
  · rw [fails] at read
    cases read
    intro same
    exact shown_nonempty slice sps pps _ (List.append_right_eq_self.mp same.symm)
  · rw [demuxed] at read
    dsimp only at read
    rw [if_pos rfl] at read
    cases read
    let codec := { pull.srsCodec with videoCodecId := codecVideoAVC, payloadFormat := .annexb }
    have same : Configured codec sps pps :=
      ⟨configured.extra, configured.nalUnitLength, configured.spsLength, configured.sps, configured.ppsLength,
        configured.pps⟩
    exact @gotVideoSample_mistaken { pull with srsCodec := codec } sps pps nalu same some_sps spsType slice spsSmall
      ppsSmall clear _ long units mistaken _ kinds

/-- The writer, the player behind it, and what is to be shown. -/
structure Broadcast where
  context : RawContext
  pull : AnyRtmpPull := {}
  told : Shown := {}

namespace Broadcast

/-- A frame is sent, and the tags that are written for it are read. -/
def step (sound : Sound) (broadcast : Broadcast) (encoded : Encoded) : Option Broadcast := do
  let context ← encoded.data.send sound broadcast.context
  let pull ← Transition.run AnyRtmpPull.gotPacket broadcast.pull
    ((context.written.drop broadcast.context.written.length).map FlvTag.packet)
  return { context, pull, told := broadcast.told.next sound encoded }

/-- The player has shown what was to be shown. -/
def Faithful (broadcast : Broadcast) : Prop :=
  broadcast.pull.called = broadcast.told.called

/-- A delimiter of access units has less than 256 bytes. -/
def ShortDelimiter : Encoded → Prop
  | .h264 _ nalu _ => nalUnitType nalu = naluTypeAccessUnitDelimiter → nalu.length < 256
  | .aac _ _ => True

instance : DecidablePred ShortDelimiter
  | .h264 _ nalu _ => inferInstanceAs (Decidable (nalUnitType nalu = naluTypeAccessUnitDelimiter → nalu.length < 256))
  | .aac _ _ => isTrue trivial

/-- The frame can be sent and shown. -/
structure Admitted (sound : Sound) (broadcast : Broadcast) (encoded : Encoded) : Prop where
  sent : (broadcast.step sound encoded).isSome
  acceptable : Acceptable broadcast.told encoded
  delimiter : ShortDelimiter encoded

instance (sound : Sound) (broadcast : Broadcast) (encoded : Encoded) : Decidable (broadcast.Admitted sound encoded) :=
  decidable_of_iff ((broadcast.step sound encoded).isSome ∧ Acceptable broadcast.told encoded ∧ ShortDelimiter encoded)
    ⟨fun all => ⟨all.1, all.2.1, all.2.2⟩, fun admitted => ⟨admitted.1, admitted.2, admitted.3⟩⟩

structure Inv (broadcast : Broadcast) : Prop where
  follows : Follows broadcast.context broadcast.pull broadcast.told
  spsType : broadcast.told.sps ≠ [] → nalUnitType broadcast.told.sps = naluTypeSPS

theorem step_some {sound : Sound} {broadcast broadcast' : Broadcast} {encoded : Encoded}
    (taken : broadcast.step sound encoded = some broadcast') :
    encoded.data.send sound broadcast.context = some broadcast'.context ∧
      Transition.run AnyRtmpPull.gotPacket broadcast.pull
        ((broadcast'.context.written.drop broadcast.context.written.length).map FlvTag.packet) =
          some broadcast'.pull ∧
      broadcast'.told = broadcast.told.next sound encoded := by
  obtain ⟨context, sends, taken⟩ := Option.bind_eq_some_iff.mp taken
  obtain ⟨pull, read, taken⟩ := Option.bind_eq_some_iff.mp taken
  cases taken
  exact ⟨sends, read, rfl⟩

end Broadcast

theorem next_spsType {sound : Sound} {told : Shown} (spsType : told.sps ≠ [] → nalUnitType told.sps = naluTypeSPS)
    (encoded : Encoded) :
    (told.next sound encoded).sps ≠ [] → nalUnitType (told.next sound encoded).sps = naluTypeSPS := by
  cases encoded with
  | h264 zeros nalu ts =>
    rw [Shown.next]
    by_cases sps : nalUnitType nalu = naluTypeSPS
    · rw [if_pos sps]
      unfold SrsRawH264Stream.spsDemux
      dsimp only
      split
      · exact fun some_sps => absurd rfl some_sps
      · exact fun _ => sps
    · rw [if_neg sps]
      split_ifs <;> exact spsType
  | aac frames ts => cases frames <;> exact spsType

/-- A step behind which the player still follows. -/
theorem step_follows {sound : Sound} (aac : sound.format = codecAudioAAC) {broadcast broadcast' : Broadcast}
    {encoded : Encoded} (inv : broadcast.Inv) (admitted : broadcast.Admitted sound encoded)
    (unmistaken : Unmistaken broadcast.told encoded) (taken : broadcast.step sound encoded = some broadcast') :
    broadcast'.Inv := by
  obtain ⟨sends, read, told⟩ := Broadcast.step_some taken
  obtain ⟨tags, pull, written, -, read', follows⟩ := send_shown aac inv.follows sends admitted.acceptable unmistaken
  rw [written, List.drop_left' rfl, read'] at read
  cases read
  refine ⟨?_, ?_⟩
  · rw [told]
    exact follows
  · rw [told]
    exact next_spsType inv.spsType encoded

theorem gotPacket_of_run {pull pull' : AnyRtmpPull} {tag : FlvTag}
    (read : Transition.run AnyRtmpPull.gotPacket pull ([tag].map FlvTag.packet) = some pull') :
    pull.gotPacket tag.packet = some pull' := by
  obtain ⟨pull'', first, last⟩ := Transition.run_cons read
  cases last
  exact first

/-- A step behind which the player has shown something else. -/
theorem step_unfaithful {sound : Sound} {broadcast broadcast' : Broadcast} {encoded : Encoded}
    (inv : broadcast.Inv) (admitted : broadcast.Admitted sound encoded)
    (mistaken : ¬ Unmistaken broadcast.told encoded) (taken : broadcast.step sound encoded = some broadcast') :
    ¬ broadcast'.Faithful := by
  cases encoded with
  | aac frames ts => exact absurd trivial mistaken
  | h264 zeros nalu ts =>
    obtain ⟨⟨⟨sps, pps, configured, untold, format⟩, -, called, clear, -, -⟩, spsType⟩ := inv
    obtain ⟨sends, read, told⟩ := Broadcast.step_some taken
    have ⟨sent, some_sps, guessing, long⟩ : IsSent nalu ∧ broadcast.told.sps ≠ [] ∧ broadcast.told.guessing = true ∧
        256 ≤ nalu.length ∧ nalu.length < 512 := by
      by_contra otherwise
      refine mistaken fun sent some_sps guessing long => otherwise ⟨sent, some_sps, guessing, long⟩
    have slice : nalUnitType nalu = naluTypeIDR ∨ nalUnitType nalu = naluTypeNonIDR := by
      rcases sent with idr | nonIdr | delimiter
      · exact .inl idr
      · exact .inr nonIdr
      · exact absurd (admitted.delimiter delimiter) (by omega)
    obtain ⟨fits, spsSmall, ppsSmall, readable⟩ := admitted.acceptable sent some_sps
    have unsettled : broadcast.pull.srsCodec.payloadFormat ≠ .ibmf := by
      intro settled
      rw [format.mpr settled] at guessing
      nomatch guessing
    unfold Broadcast.Faithful
    rw [told, Shown.next_sent sound sent some_sps, ← called]
    generalize broadcast'.context = context' at sends read
    cases send_h264 sends with
    | sps type other => exact absurd type (isSent_types sent).1
    | pps type other => exact absurd type (isSent_types sent).2.1
    | nothing same samePps notSent => exact absurd sent notSent
    | dropped sent unchanged none_sent => exact absurd (untold unchanged none_sent) some_sps
    | tag _ unchanged header_sent writable =>
      dsimp only at read
      rw [List.drop_left' rfl] at read
      obtain ⟨held, -⟩ := configured unchanged header_sent
      exact gotPacket_mistaken held some_sps (spsType some_sps) slice spsSmall ppsSmall clear ts ts unsettled long
        (gotPacket_of_run read)
    | tags _ changed four writable =>
      dsimp only at read
      rw [List.drop_left' rfl, sps, pps, List.map_cons] at read
      rw [sps] at four
      obtain ⟨codec, header, held, same⟩ := gotPacket_header broadcast.pull four spsSmall ppsSmall readable ts ts
      obtain ⟨pull, first, rest⟩ := Transition.run_cons read
      cases header.symm.trans first
      have unsettled : codec.payloadFormat ≠ .ibmf := by
        rw [same.payloadFormat]
        exact unsettled
      exact @gotPacket_mistaken { broadcast.pull with srsCodec := codec } _ _ _ _ held some_sps (spsType some_sps) slice
        spsSmall ppsSmall clear ts ts unsettled long (gotPacket_of_run rest)

/-- From the first frame on, the player has at every moment shown the frames as they were made, exactly if no frame that
is sent while it is still guessing has a length from 256 to 511: the first one that is longer than a byte decides. -/
theorem faithful_iff_unmistaken {sound : Sound} (aac : sound.format = codecAudioAAC) (writable : Nat)
    {frames : List Encoded}
    (admitted : Transition.Steps (Broadcast.step sound) (Broadcast.Admitted sound) ⟨freshContext writable, {}, {}⟩
      frames) :
    Transition.Throughout (Broadcast.step sound) Broadcast.Faithful ⟨freshContext writable, {}, {}⟩ frames ↔
      Transition.Steps (Broadcast.step sound) (fun broadcast encoded => Unmistaken broadcast.told encoded)
        ⟨freshContext writable, {}, {}⟩ frames := by
  refine @Transition.throughout_congr _ _ (Broadcast.step sound) Broadcast.Faithful Broadcast.Inv _ _
    (fun broadcast encoded inv allowed => ?_)
    (fun broadcast encoded broadcast' inv allowed unmistaken _ taken => step_follows aac inv allowed unmistaken taken)
    _ _ ⟨follows_fresh writable, fun some_sps => absurd rfl some_sps⟩ rfl admitted
  constructor
  · intro faithful
    by_contra mistaken
    obtain ⟨broadcast', taken⟩ := Option.isSome_iff_exists.mp allowed.sent
    exact step_unfaithful inv allowed mistaken taken (faithful broadcast' taken)
  · intro unmistaken broadcast' taken
    exact (step_follows aac inv allowed unmistaken taken).follows.called

/-- A first slice of 300 bytes. -/
def lookalike : List Encoded :=
  [.h264 1 [0x67, 66, 0, 30] 40, .h264 1 [0x68, 0xce] 40, .h264 1 (0x65 :: List.replicate 299 0x88) 40,
    .h264 1 [0x41, 0x9a] 80]

theorem faithful_iff_unmistaken_lookalike :
    Transition.Throughout (Broadcast.step ⟨10, 3, 1, 0⟩) Broadcast.Faithful ⟨freshContext 8, {}, {}⟩ lookalike ↔
      Transition.Steps (Broadcast.step ⟨10, 3, 1, 0⟩) (fun broadcast encoded => Unmistaken broadcast.told encoded)
        ⟨freshContext 8, {}, {}⟩ lookalike :=
  faithful_iff_unmistaken rfl 8 (by decide +kernel)

end AdTerminal.Live
