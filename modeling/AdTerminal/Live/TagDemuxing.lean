import AdTerminal.Live.AnyRtmpPull
import Mathlib.Tactic.Tauto

/-! What the player makes of the tags that the library writes for raw frames. -/

namespace AdTerminal.Live

open Rtmp BigEndian Simulation SrsAvcAacCodec

/-- One more zero before a start code belongs to it. -/
theorem startsWith_zero {bytes : List UInt8} {n : Nat} (starts : srsAvcStartswithAnnexb bytes = some n) :
    srsAvcStartswithAnnexb (0 :: bytes) = some (n + 1) := by
  match bytes with
  | [] => nomatch starts
  | [_] => nomatch starts
  | [_, _] => nomatch starts
  | b0 :: b1 :: b2 :: rest =>
    have zeros : b0 = 0 ∧ b1 = 0 := by
      rw [srsAvcStartswithAnnexb] at starts
      by_contra other
      rw [if_pos (by tauto)] at starts
      nomatch starts
    obtain ⟨rfl, rfl⟩ := zeros
    rw [srsAvcStartswithAnnexb, starts]
    rfl

theorem startsWith_startCode (zeros : Nat) (nalu : List UInt8) :
    srsAvcStartswithAnnexb (List.replicate zeros 0 ++ ([0, 0, 1] ++ nalu)) = some (zeros + 3) := by
  induction zeros with
  | zero => rfl
  | succ zeros ih =>
    rw [List.replicate_succ, List.cons_append, startsWith_zero ih]

/-- A frame with zeros and a start code before it is that frame. -/
theorem annexbDemuxPri_unit (zeros : Nat) (nalu : List UInt8) :
    SrsRawH264Stream.annexbDemuxPri (List.replicate zeros 0 ++ ([0, 0, 1] ++ nalu)) = .ok nalu := by
  have behind : (List.replicate zeros (0 : UInt8) ++ ([0, 0, 1] ++ nalu)).drop (zeros + 3) = nalu := by
    rw [← List.drop_drop, List.drop_left' List.length_replicate]
    rfl
  rw [SrsRawH264Stream.annexbDemuxPri, startsWith_startCode]
  simp only [behind]

theorem bigEndian_four {n : Nat} (small : n < 2 ^ 24) :
    bigEndian 4 n = [0, UInt8.ofNat (n / 65536), UInt8.ofNat (n / 256), UInt8.ofNat n] := by
  have high : n / 256 ^ 3 = 0 := Nat.div_eq_of_lt small
  simp only [bigEndian, high, Nat.pow_zero, Nat.div_one]
  rfl

theorem ofNat_eq_iff {n : Nat} (b : UInt8) : UInt8.ofNat n = b ↔ n % 256 = b.toNat := by
  rw [← UInt8.toNat_inj, UInt8.toNat_ofNat']

/-- The length of a frame looks like a start code if it is 1, or if it is between 256 and 511. -/
theorem startsWith_length {nalu : List UInt8} (nonempty : nalu ≠ []) (small : nalu.length < 2 ^ 24) :
    srsAvcStartswithAnnexb (bigEndian 4 nalu.length ++ nalu) =
      if 256 ≤ nalu.length ∧ nalu.length < 512 then some 3 else if nalu.length = 1 then some 4 else none := by
  have long : 0 < nalu.length := List.length_pos_iff.mpr nonempty
  obtain ⟨first, rest, shape⟩ := List.exists_cons_of_ne_nil nonempty
  generalize size : nalu.length = n at small long ⊢
  rw [bigEndian_four small, shape]
  simp only [List.cons_append, List.nil_append, srsAvcStartswithAnnexb, ne_eq, not_true, false_or, ofNat_eq_iff,
    UInt8.toNat_zero, UInt8.toNat_one]
  by_cases large : n / 65536 % 256 = 0
  · rw [if_neg (not_not.mpr large)]
    by_cases lookalike : n / 256 % 256 = 1
    · rw [if_pos lookalike, if_pos (by omega)]
    have outside : ¬ (256 ≤ n ∧ n < 512) := by omega
    rw [if_neg lookalike, if_neg outside]
    by_cases two : n / 256 % 256 = 0
    · have notZero : ¬ n % 256 = 0 := by omega
      rw [if_neg (not_or.mpr ⟨not_not.mpr large, not_not.mpr two⟩)]
      by_cases one : n % 256 = 1
      · have short : n = 1 := by omega
        rw [if_pos one, if_pos short]
        rfl
      · have longer : ¬ n = 1 := by omega
        rw [if_neg one, if_pos (Or.inr notZero), if_neg longer]
        rfl
    · have longer : ¬ n = 1 := by omega
      rw [if_pos (Or.inr two), if_neg longer]
      rfl
  · have outside : ¬ (256 ≤ n ∧ n < 512) := by omega
    have longer : ¬ n = 1 := by omega
    rw [if_pos large, if_neg outside, if_neg longer]

/-- The tag of a sequence header. -/
def headerTag (sps pps : List UInt8) (dts pts : UInt32) : FlvTag :=
  ⟨typeVideo, dts, SrsRawH264Stream.muxAvc2flv ([0x01, sps.getD 1 0, 0x00, sps.getD 3 0, 0x03] ++ ([0x01] ++
    (bigEndian 2 sps.length ++ (sps ++ ([0x01] ++ (bigEndian 2 pps.length ++ pps)))))) videoFrameKey
    videoTypeSequenceHeader dts pts⟩

/-- The tag of a frame. -/
def naluTag (nalu : List UInt8) (dts pts : UInt32) : FlvTag :=
  ⟨typeVideo, dts, SrsRawH264Stream.muxAvc2flv (SrsRawH264Stream.muxIpbFrame nalu)
    (if nalUnitType nalu = naluTypeIDR then videoFrameKey else videoFrameInter) videoTypeNALU dts pts⟩

/-- The fields before the payload of a video tag. -/
theorem videoAvcDemux_mux (video : List UInt8) {frameType : Nat} (type : UInt8) (dts pts : UInt32)
    (kinds : frameType = videoFrameKey ∨ frameType = videoFrameInter) :
    videoAvcDemux (SrsRawH264Stream.muxAvc2flv video frameType type dts pts) = (do
      modify fun codec => { codec with videoCodecId := codecVideoAVC }
      let sample : SrsCodecSample := { isVideo := true, frameType, avcPacketType := type }
      if type = videoTypeSequenceHeader then
        avcDemuxSpsPps video
        return sample
      else if type = videoTypeNALU then
        if (← get).avcExtraData = [] then return sample
        else avcDemuxNalus video sample
      else return sample) := by
  have cts := length_bigEndian 3 (pts - dts).toNat
  have enough : ¬ (type :: (bigEndian 3 (pts - dts).toNat ++ video)).length < 4 := by
    rw [List.length_cons, List.length_append, cts]
    omega
  have behind : (type :: (bigEndian 3 (pts - dts).toNat ++ video)).drop 4 = video := List.drop_left' cts
  rw [SrsRawH264Stream.muxAvc2flv, List.cons_append, List.cons_append, List.nil_append, videoAvcDemux]
  rcases kinds with rfl | rfl
  · simp only [if_neg enough, behind]
    rfl
  · simp only [if_neg enough, behind]
    rfl

/-- The codec holds these parameter sets, and reads units behind lengths of four bytes. -/
structure Configured (codec : SrsAvcAacCodec) (sps pps : List UInt8) : Prop where
  extra : codec.avcExtraData ≠ []
  nalUnitLength : codec.nalUnitLength = 3
  spsLength : codec.sequenceParameterSetLength = sps.length
  sps : codec.sequenceParameterSetNALUnit = sps
  ppsLength : codec.pictureParameterSetLength = pps.length
  pps : pps ≠ [] → codec.pictureParameterSetNALUnit = pps

/-- Nothing of the sound is changed, nor what format the units are taken to have. -/
structure SameSound (codec codec' : SrsAvcAacCodec) : Prop where
  payloadFormat : codec'.payloadFormat = codec.payloadFormat
  audioCodecId : codec'.audioCodecId = codec.audioCodecId
  aacExtraData : codec'.aacExtraData = codec.aacExtraData
  aacObject : codec'.aacObject = codec.aacObject
  aacSampleRate : codec'.aacSampleRate = codec.aacSampleRate
  aacChannels : codec'.aacChannels = codec.aacChannels

/-- A call comes to its end there, whether it fails or not. -/
def EndsIn {α : Type} (result : EStateM.Result AvcError SrsAvcAacCodec α) (codec : SrsAvcAacCodec) : Prop :=
  (∃ a, result = .ok a codec) ∨ ∃ e, e ≠ .assertion ∧ result = .error e codec

theorem readParameterSet_written (set rest : List UInt8) (small : set.length < 2 ^ 16) :
    readParameterSet (1 :: (bigEndian 2 set.length ++ (set ++ rest))) = .ok (set.length, set ++ rest) := by
  have two := length_bigEndian 2 set.length
  have long : ¬ (bigEndian 2 set.length ++ (set ++ rest)).length < 2 := by
    rw [List.length_append, two]
    omega
  have length := @ofBigEndian_bigEndian_of_lt 2 _ small
  rw [readParameterSet]
  simp only [if_neg long, List.take_left' two, List.drop_left' two, length]
  rfl

/-- A set that was written is taken as it was. -/
theorem demuxParameterSet_written (setLength : Nat → SrsAvcAacCodec → SrsAvcAacCodec)
    (setUnit : List UInt8 → SrsAvcAacCodec → SrsAvcAacCodec) (set rest : List UInt8) (small : set.length < 2 ^ 16)
    (codec : SrsAvcAacCodec) :
    (demuxParameterSet setLength setUnit (1 :: (bigEndian 2 set.length ++ (set ++ rest)))).run codec =
      .ok rest (if 0 < set.length then setUnit set (setLength set.length codec) else setLength set.length codec) := by
  have enough : ¬ (set ++ rest).length < set.length := by
    rw [List.length_append]
    omega
  have taken : (set ++ rest).take set.length = set := List.take_left' rfl
  have behind : (set ++ rest).drop set.length = rest := List.drop_left' rfl
  rw [demuxParameterSet, readParameterSet_written set rest small]
  simp only [EStateM.run_bind, EStateM.run_modify, if_neg enough, taken, behind]
  by_cases some_bytes : 0 < set.length
  · rw [if_pos some_bytes, if_pos some_bytes]
    rfl
  · rw [if_neg some_bytes, if_neg some_bytes]
    rfl

/-- No assertion fails where the size is read of this parameter set. -/
def Readable (sps : List UInt8) : Prop :=
  avcDemuxSps sps ≠ .error .assertion

theorem demuxSize_ends {codec : SrsAvcAacCodec}
    (readable : Readable (codec.sequenceParameterSetNALUnit.take codec.sequenceParameterSetLength)) :
    ∃ size, EndsIn (demuxSize.run codec) { codec with size } := by
  unfold demuxSize
  rw [EStateM.run_bind, EStateM.run_get]
  dsimp only
  unfold Readable at readable
  cases sets : avcDemuxSps (codec.sequenceParameterSetNALUnit.take codec.sequenceParameterSetLength) with
  | error e =>
    refine ⟨codec.size, .inr ⟨e, ?_, rfl⟩⟩
    rintro rfl
    exact readable sets
  | ok found =>
    cases found with
    | none => exact ⟨codec.size, .inl ⟨(), rfl⟩⟩
    | some size => exact ⟨size, .inl ⟨(), rfl⟩⟩

/-- A sequence header that was written is held, whatever the parameter set says of the pictures. -/
theorem avcDemuxSpsPps_written {sps pps : List UInt8} (spsLong : 4 ≤ sps.length) (spsSmall : sps.length < 2 ^ 16)
    (ppsSmall : pps.length < 2 ^ 16) (readable : Readable sps) (profile level : UInt8) (codec : SrsAvcAacCodec) :
    ∃ codec', EndsIn ((avcDemuxSpsPps ([0x01, profile, 0x00, level, 0x03] ++ ([0x01] ++ (bigEndian 2 sps.length ++
        (sps ++ ([0x01] ++ (bigEndian 2 pps.length ++ pps))))))).run codec) codec' ∧
      Configured codec' sps pps ∧ SameSound codec codec' ∧ codec'.videoCodecId = codec.videoCodecId := by
  generalize record : [0x01, profile, 0x00, level, 0x03] ++ ([0x01] ++ (bigEndian 2 sps.length ++ (sps ++ ([0x01] ++
    (bigEndian 2 pps.length ++ pps))))) = bytes
  have long : ¬ bytes.length < 6 := by
    rw [← record]
    simp only [List.length_append, List.length_cons]
    omega
  have four : (bytes.getD 4 0).toNat &&& 0x03 = 3 := by
    rw [← record]
    change (3 : UInt8).toNat &&& 0x03 = 3
    decide
  have behind : bytes.drop 5 = 1 :: (bigEndian 2 sps.length ++ (sps ++ ([0x01] ++ (bigEndian 2 pps.length ++ pps)))) := by
    rw [← record]
    rfl
  have nonempty : bytes ≠ [] := by
    rw [← record]
    exact List.cons_ne_nil _ _
  have first := demuxParameterSet_written setSpsLength setSps sps ([0x01] ++ (bigEndian 2 pps.length ++ pps)) spsSmall
  have second : ∀ codec, (demuxParameterSet setPpsLength setPps ([0x01] ++ (bigEndian 2 pps.length ++ pps))).run codec =
      .ok [] (if 0 < pps.length then setPps pps (setPpsLength pps.length codec) else setPpsLength pps.length codec) := by
    have taken := demuxParameterSet_written setPpsLength setPps pps [] ppsSmall
    rw [List.append_nil] at taken
    exact taken
  have some_sps : 0 < sps.length := by omega
  have held : ∀ codec : SrsAvcAacCodec, codec.sequenceParameterSetNALUnit = sps →
      codec.sequenceParameterSetLength = sps.length →
      Readable (codec.sequenceParameterSetNALUnit.take codec.sequenceParameterSetLength) := by
    intro codec unit length
    rw [unit, length, List.take_length]
    exact readable
  simp only [if_pos some_sps] at first
  unfold avcDemuxSpsPps
  simp only [EStateM.run_bind, EStateM.run_modify, if_neg long, four, behind]
  rw [if_neg (by decide), bind_ok (first _), bind_ok (second _)]
  by_cases some_pps : 0 < pps.length
  · rw [if_pos some_pps]
    obtain ⟨size, ends⟩ := @demuxSize_ends (setPps pps (setPpsLength pps.length (setSps sps (setSpsLength sps.length
      { codec with avcExtraData := bytes, nalUnitLength := 3 })))) (held _ rfl rfl)
    exact ⟨_, ends, ⟨nonempty, rfl, rfl, rfl, rfl, fun _ => rfl⟩, ⟨rfl, rfl, rfl, rfl, rfl, rfl⟩, rfl⟩
  · have none_pps : ¬ pps ≠ [] := fun some_bytes => some_pps (List.length_pos_iff.mpr some_bytes)
    rw [if_neg some_pps]
    obtain ⟨size, ends⟩ := @demuxSize_ends (setPpsLength pps.length (setSps sps (setSpsLength sps.length
      { codec with avcExtraData := bytes, nalUnitLength := 3 }))) (held _ rfl rfl)
    exact ⟨_, ends, ⟨nonempty, rfl, rfl, rfl, rfl, fun some_bytes => absurd some_bytes none_pps⟩,
      ⟨rfl, rfl, rfl, rfl, rfl, rfl⟩, rfl⟩

/-- The sample before a unit is found in it. -/
def noUnits (frameType : Nat) : SrsCodecSample :=
  { isVideo := true, frameType, avcPacketType := videoTypeNALU }

/-- The sample of a single frame. -/
def oneUnit (frameType : Nat) (nalu : List UInt8) : SrsCodecSample :=
  { noUnits frameType with hasIdr := nalUnitType nalu == naluTypeIDR, sampleUnits := [nalu] }

theorem addSampleUnit_noUnits (frameType : Nat) (nalu : List UInt8) :
    (noUnits frameType).addSampleUnit nalu nalu.length = .ok (oneUnit frameType nalu) := by
  rw [SrsCodecSample.addSampleUnit, List.take_length]
  rfl

theorem unitLength_four {n : Nat} (small : n < 2 ^ 24) (rest : List UInt8) :
    unitLength 3 (bigEndian 4 n ++ rest) = n := by
  have four := length_bigEndian 4 n
  have value : ofBigEndian (bigEndian 4 n) = n := ofBigEndian_bigEndian_of_lt (small.trans (by decide))
  have natural : Int.ofNat n = (n : Int) := rfl
  rw [unitLength, if_pos rfl, List.take_left' four, value, natural]
  exact Int.bmod_eq_of_le (by omega) (by omega)

theorem avcDemuxIbmfFormat_written {nalu : List UInt8} (small : nalu.length < 2 ^ 24) (frameType : Nat)
    {codec : SrsAvcAacCodec} (four : codec.nalUnitLength = 3) :
    (avcDemuxIbmfFormat (bigEndian 4 nalu.length ++ nalu) (noUnits frameType)).run codec =
      .ok (oneUnit frameType nalu) codec := by
  have length := length_bigEndian 4 nalu.length
  have nonempty : bigEndian 4 nalu.length ++ nalu ≠ [] := by
    intro none_left
    have zero := congrArg List.length none_left
    rw [List.length_append, length, List.length_nil] at zero
    omega
  have long : ¬ (bigEndian 4 nalu.length ++ nalu).length < 3 + 1 := by
    rw [List.length_append, length]
    omega
  have behind : (bigEndian 4 nalu.length ++ nalu).drop (3 + 1) = nalu := List.drop_left' length
  have enough : ¬ ((nalu.length : Int) < nalu.length) := lt_irrefl _
  have positive : ¬ ((nalu.length : Int) < 0) := by omega
  have units : ibmfUnits 3 (bigEndian 4 nalu.length ++ nalu).length (bigEndian 4 nalu.length ++ nalu)
      (noUnits frameType) = .ok (oneUnit frameType nalu) := by
    obtain ⟨fuel, more⟩ : ∃ fuel, (bigEndian 4 nalu.length ++ nalu).length = fuel + 2 := by
      rw [List.length_append, length]
      exact ⟨nalu.length + 2, by omega⟩
    rw [more, ibmfUnits, if_neg nonempty, if_neg long]
    simp only [unitLength_four small, behind, if_neg positive, if_neg enough, Int.toNat_natCast, addSampleUnit_noUnits,
      List.drop_length]
    rfl
  simp only [avcDemuxIbmfFormat, EStateM.run, four, units]
  rfl

/-- The length of a frame of one byte is a start code. -/
theorem avcDemuxAnnexbFormat_one (b : UInt8) (frameType : Nat) :
    avcDemuxAnnexbFormat (bigEndian 4 [b].length ++ [b]) (noUnits frameType) = .ok (oneUnit frameType [b]) := by
  have starts : srsAvcStartswithAnnexb [0, 0, 0, 1, b] = some 4 := rfl
  have unit : untilAnnexb [b] = ([b], []) := rfl
  have bytes : bigEndian 4 [b].length ++ [b] = [0, 0, 0, 1, b] := by
    rw [List.length_singleton, bigEndian_four (by decide)]
    rfl
  have added := addSampleUnit_noUnits frameType [b]
  rw [bytes, avcDemuxAnnexbFormat, starts]
  change annexbUnits 5 [0, 0, 0, 1, b] (noUnits frameType) = _
  rw [annexbUnits, starts]
  simp only [List.drop_succ_cons, List.drop_zero, unit, if_neg (List.cons_ne_nil b []), added]
  rfl

/-- What the units are taken to have for a format, after a frame of this length. -/
def formatAfter (format : SrsAvcPayloadFormat) (length : Nat) : SrsAvcPayloadFormat :=
  if format = .ibmf then .ibmf else if length = 1 then .annexb else .ibmf

/-- A frame that was written is found whole, unless its length is taken for a start code. -/
theorem avcDemuxNalus_written {nalu : List UInt8} (nonempty : nalu ≠ []) (small : nalu.length < 2 ^ 24)
    (frameType : Nat) {codec : SrsAvcAacCodec} (four : codec.nalUnitLength = 3)
    (told : codec.payloadFormat = .ibmf ∨ ¬ (256 ≤ nalu.length ∧ nalu.length < 512)) :
    (avcDemuxNalus (SrsRawH264Stream.muxIpbFrame nalu) (noUnits frameType)).run codec =
      .ok (oneUnit frameType nalu) { codec with payloadFormat := formatAfter codec.payloadFormat nalu.length } := by
  unfold avcDemuxNalus SrsRawH264Stream.muxIpbFrame
  rw [EStateM.run_bind, EStateM.run_get]
  dsimp only
  by_cases settled : codec.payloadFormat = .ibmf
  · have same : { codec with payloadFormat := formatAfter codec.payloadFormat nalu.length } = codec := by
      rw [formatAfter, if_pos settled, ← settled]
    rw [if_pos settled, same]
    exact avcDemuxIbmfFormat_written small frameType four
  have outside : ¬ (256 ≤ nalu.length ∧ nalu.length < 512) := told.resolve_left settled
  have starts := startsWith_length nonempty small
  rw [if_neg outside] at starts
  rw [if_neg settled, formatAfter, if_neg settled]
  by_cases one : nalu.length = 1
  · -- the length and the start code are the same four bytes
    obtain ⟨b, rfl⟩ := List.length_eq_one_iff.mp one
    rw [avcDemuxAnnexbFormat_one]
    rfl
  · rw [if_neg one] at starts
    rw [if_neg one, avcDemuxAnnexbFormat, starts]
    simp only [Option.isNone_none, if_true, ne_eq, not_true, if_false]
    rw [bind_ok (avcDemuxIbmfFormat_written small frameType four)]
    rfl

/-- A sequence header calls nothing back. -/
theorem gotPacket_header (pull : AnyRtmpPull) {sps pps : List UInt8} (spsLong : 4 ≤ sps.length)
    (spsSmall : sps.length < 2 ^ 16) (ppsSmall : pps.length < 2 ^ 16) (readable : Readable sps) (dts pts : UInt32) :
    ∃ codec, pull.gotPacket (headerTag sps pps dts pts).packet = some { pull with srsCodec := codec } ∧
      Configured codec sps pps ∧ SameSound pull.srsCodec codec := by
  obtain ⟨codec, ends, configured, sound, avc⟩ := avcDemuxSpsPps_written spsLong spsSmall ppsSmall readable
    (sps.getD 1 0) (sps.getD 3 0) { pull.srsCodec with videoCodecId := codecVideoAVC }
  refine ⟨codec, ?_, configured, ⟨sound.payloadFormat, sound.audioCodecId, sound.aacExtraData, sound.aacObject,
    sound.aacSampleRate, sound.aacChannels⟩⟩
  have video : (headerTag sps pps dts pts).packet.type = typeVideo := rfl
  have data : (headerTag sps pps dts pts).packet.data = (headerTag sps pps dts pts).data := rfl
  have avc : codec.videoCodecId = codecVideoAVC := avc
  have ignored : ({ pull with srsCodec := codec } : AnyRtmpPull).gotVideoSample
      (headerTag sps pps dts pts).packet.timestamp
        { isVideo := true, frameType := videoFrameKey, avcPacketType := videoTypeSequenceHeader } =
      { pull with srsCodec := codec } := rfl
  rw [AnyRtmpPull.gotPacket, if_pos video, data, headerTag, videoAvcDemux_mux _ _ _ _ (.inl rfl), EStateM.run_bind,
    EStateM.run_modify]
  dsimp only
  rw [if_pos rfl, EStateM.run_bind]
  rcases ends with ⟨_, ends⟩ | ⟨e, other, ends⟩
  · rw [ends]
    simp only [EStateM.run_pure, if_pos avc]
    exact congrArg some ignored
  · rw [ends]
    cases e with
    | assertion => exact absurd rfl other
    | _ => rfl

theorem appendVideo_fits {pull : AnyRtmpPull} {data : List UInt8}
    (fits : pull.videoPayload.length + data.length ≤ videoPayloadSize) :
    pull.appendVideo data = { pull with videoPayload := pull.videoPayload ++ data } := by
  rw [AnyRtmpPull.appendVideo, append, if_neg (Nat.not_lt.mpr fits)]

theorem appendSet_fits {pull : AnyRtmpPull} {set : List UInt8} (some_bytes : set ≠ [])
    (fits : pull.videoPayload.length + (4 + set.length) ≤ videoPayloadSize) :
    pull.appendSet set.length set = { pull with videoPayload := pull.videoPayload ++ (freshNaluHeader ++ set) } := by
  have positive : 0 < set.length := List.length_pos_iff.mpr some_bytes
  have header : freshNaluHeader.length = 4 := rfl
  have first : pull.videoPayload.length + freshNaluHeader.length ≤ videoPayloadSize := by omega
  have second : ({ pull with videoPayload := pull.videoPayload ++ freshNaluHeader } : AnyRtmpPull).videoPayload.length +
      set.length ≤ videoPayloadSize := by
    change (pull.videoPayload ++ freshNaluHeader).length + set.length ≤ videoPayloadSize
    rw [List.length_append]
    omega
  have inside : decide (set.length < set.length) = false := decide_eq_false (lt_irrefl _)
  rw [AnyRtmpPull.appendSet, if_pos positive, List.take_length, appendVideo_fits first, appendVideo_fits second]
  simp only [inside, Bool.or_false, List.append_assoc]

/-- What is called back for a frame under these parameter sets. -/
def shown (sps pps nalu : List UInt8) (timestamp : Nat) : List PulledFrame :=
  if nalUnitType nalu = naluTypeIDR then
    let sets := freshNaluHeader ++ sps ++ (if pps = [] then [] else freshNaluHeader ++ pps)
    [.h264 (sets ++ contNaluHeader ++ nalu) timestamp]
  else if nalUnitType nalu = naluTypeNonIDR then [.h264 (freshNaluHeader ++ nalu) timestamp]
  else []

/-- The frame has room behind its parameter sets. -/
def Fits (sps pps nalu : List UInt8) : Prop :=
  11 + sps.length + pps.length + nalu.length ≤ videoPayloadSize

/-- The types that are sent. -/
def IsSent (nalu : List UInt8) : Prop :=
  nalUnitType nalu = naluTypeIDR ∨ nalUnitType nalu = naluTypeNonIDR ∨ nalUnitType nalu = naluTypeAccessUnitDelimiter

/-- The start code that is put before a frame. -/
def naluHeader (nalu : List UInt8) : List UInt8 :=
  if nalUnitType nalu = naluTypeIDR then contNaluHeader else freshNaluHeader

theorem gotUnits_sent {pull : AnyRtmpPull} {nalu : List UInt8} (nonempty : nalu ≠ [])
    (sent : nalUnitType nalu = naluTypeIDR ∨ nalUnitType nalu = naluTypeNonIDR) (timestamp : Nat)
    (fits : pull.videoPayload.length + ((naluHeader nalu).length + nalu.length) ≤ videoPayloadSize) :
    pull.gotUnits timestamp [nalu] = { pull with
      called := pull.called ++ [.h264 (pull.videoPayload ++ naluHeader nalu ++ nalu) timestamp], videoPayload := [] } := by
  have first : pull.videoPayload.length + (naluHeader nalu).length ≤ videoPayloadSize := by omega
  have second : ({ pull with videoPayload := pull.videoPayload ++ naluHeader nalu } : AnyRtmpPull).videoPayload.length +
      nalu.length ≤ videoPayloadSize := by
    change (pull.videoPayload ++ naluHeader nalu).length + nalu.length ≤ videoPayloadSize
    rw [List.length_append]
    omega
  have kept : ¬ (nalUnitType nalu = naluTypeSPS ∨ nalUnitType nalu = naluTypePPS ∨ nalUnitType nalu = naluTypeSEI ∨
      nalUnitType nalu = naluTypeAccessUnitDelimiter) := by
    rcases sent with idr | nonIdr
    · rw [idr]
      decide
    · rw [nonIdr]
      decide
  have reserved : ¬ nalUnitType nalu = naluTypeReserved := by
    rcases sent with idr | nonIdr
    · rw [idr]
      decide
    · rw [nonIdr]
      decide
  rw [AnyRtmpPull.gotUnits, if_neg nonempty]
  simp only [if_neg kept, if_neg reserved]
  change AnyRtmpPull.gotUnits timestamp [] (((pull.appendVideo (naluHeader nalu)).appendVideo nalu).onRtmpullH264Data
    timestamp) = _
  rw [appendVideo_fits first, appendVideo_fits second, AnyRtmpPull.gotUnits]
  rfl

/-- The parameter sets before a key frame. -/
theorem appendSets {pull : AnyRtmpPull} {sps pps : List UInt8} (configured : Configured pull.srsCodec sps pps)
    (some_sps : sps ≠ []) (clear : pull.videoPayload = []) (fits : 8 + sps.length + pps.length ≤ videoPayloadSize) :
    (pull.appendSet pull.srsCodec.sequenceParameterSetLength pull.srsCodec.sequenceParameterSetNALUnit).appendSet
        pull.srsCodec.pictureParameterSetLength pull.srsCodec.pictureParameterSetNALUnit =
      { pull with videoPayload :=
          freshNaluHeader ++ sps ++ (if pps = [] then [] else freshNaluHeader ++ pps) } := by
  have four : freshNaluHeader.length = 4 := rfl
  have first : pull.videoPayload.length + (4 + sps.length) ≤ videoPayloadSize := by
    rw [clear, List.length_nil]
    omega
  rw [configured.spsLength, configured.sps, appendSet_fits some_sps first, configured.ppsLength, clear, List.nil_append]
  by_cases none_pps : pps = []
  · have none_left : ¬ 0 < pps.length := by
      rw [none_pps]
      exact lt_irrefl 0
    rw [AnyRtmpPull.appendSet, if_neg none_left, if_pos none_pps, List.append_nil]
  · have second : (freshNaluHeader ++ sps).length + (4 + pps.length) ≤ videoPayloadSize := by
      rw [List.length_append, four]
      omega
    rw [configured.pps none_pps, if_neg none_pps]
    exact appendSet_fits none_pps second

/-- The sample of a frame calls back what is shown of it. -/
theorem gotVideoSample_sent {pull : AnyRtmpPull} {sps pps nalu : List UInt8}
    (configured : Configured pull.srsCodec sps pps) (some_sps : sps ≠ []) (nonempty : nalu ≠ []) (sent : IsSent nalu)
    (fits : Fits sps pps nalu) (clear : pull.videoPayload = []) (timestamp : Nat) :
    pull.gotVideoSample timestamp
        (oneUnit (if nalUnitType nalu = naluTypeIDR then videoFrameKey else videoFrameInter) nalu) =
      { pull with called := pull.called ++ shown sps pps nalu timestamp } := by
  have room : 11 + sps.length + pps.length + nalu.length ≤ videoPayloadSize := fits
  have notInfo : ¬ (if nalUnitType nalu = naluTypeIDR then videoFrameKey else videoFrameInter) = videoInfoFrame := by
    split <;> decide
  have notHeader : ¬ ((if nalUnitType nalu = naluTypeIDR then videoFrameKey else videoFrameInter) = videoFrameKey ∧
      videoTypeNALU = videoTypeSequenceHeader) := fun both => absurd both.2 (by decide)
  rw [AnyRtmpPull.gotVideoSample, oneUnit, noUnits]
  simp only [if_neg notInfo, if_neg notHeader]
  by_cases idr : nalUnitType nalu = naluTypeIDR
  · have isIdr : (nalUnitType nalu == naluTypeIDR) = true := beq_iff_eq.mpr idr
    have header : naluHeader nalu = contNaluHeader := if_pos idr
    have last : (freshNaluHeader ++ sps ++ (if pps = [] then [] else freshNaluHeader ++ pps)).length +
        ((naluHeader nalu).length + nalu.length) ≤ videoPayloadSize := by
      have four : freshNaluHeader.length = 4 := rfl
      have three : contNaluHeader.length = 3 := rfl
      rw [header, three]
      split <;> simp only [List.length_append, List.length_nil, four] <;> omega
    rw [isIdr, if_pos rfl, appendSets configured some_sps clear (by omega), gotUnits_sent nonempty (.inl idr) timestamp last,
      header, shown, if_pos idr, clear]
  · have isNotIdr : (nalUnitType nalu == naluTypeIDR) = false := beq_eq_false_iff_ne.mpr idr
    have header : naluHeader nalu = freshNaluHeader := if_neg idr
    rw [isNotIdr, if_neg Bool.false_ne_true, shown, if_neg idr]
    by_cases nonIdr : nalUnitType nalu = naluTypeNonIDR
    · have last : pull.videoPayload.length + ((naluHeader nalu).length + nalu.length) ≤ videoPayloadSize := by
        have four : freshNaluHeader.length = 4 := rfl
        rw [header, four, clear, List.length_nil]
        omega
      rw [gotUnits_sent nonempty (.inr nonIdr) timestamp last, header, if_pos nonIdr, clear, List.nil_append]
    · have delimiter : nalUnitType nalu = naluTypeAccessUnitDelimiter := (sent.resolve_left idr).resolve_left nonIdr
      rw [if_neg nonIdr, List.append_nil, AnyRtmpPull.gotUnits, if_neg nonempty]
      simp only [delimiter, or_true, if_true]
      rfl

/-- A frame is shown as it was written, unless its length is taken for a start code. -/
theorem gotPacket_nalu {pull : AnyRtmpPull} {sps pps nalu : List UInt8} (configured : Configured pull.srsCodec sps pps)
    (some_sps : sps ≠ []) (nonempty : nalu ≠ []) (sent : IsSent nalu) (fits : Fits sps pps nalu)
    (clear : pull.videoPayload = []) (dts pts : UInt32)
    (told : pull.srsCodec.payloadFormat = .ibmf ∨ ¬ (256 ≤ nalu.length ∧ nalu.length < 512)) :
    pull.gotPacket (naluTag nalu dts pts).packet =
      some { pull with
        srsCodec := { pull.srsCodec with
          videoCodecId := codecVideoAVC, payloadFormat := formatAfter pull.srsCodec.payloadFormat nalu.length }
        called := pull.called ++ shown sps pps nalu (dts.toNat % 2 ^ 31) } := by
  have room : 11 + sps.length + pps.length + nalu.length ≤ videoPayloadSize := fits
  have limit : videoPayloadSize < 2 ^ 24 := by decide
  have kinds : (if nalUnitType nalu = naluTypeIDR then videoFrameKey else videoFrameInter) = videoFrameKey ∨
      (if nalUnitType nalu = naluTypeIDR then videoFrameKey else videoFrameInter) = videoFrameInter := by
    split
    · exact .inl rfl
    · exact .inr rfl
  have video : (naluTag nalu dts pts).packet.type = typeVideo := rfl
  have data : (naluTag nalu dts pts).packet.data = (naluTag nalu dts pts).data := rfl
  have notHeader : ¬ videoTypeNALU = videoTypeSequenceHeader := by decide
  have units := @avcDemuxNalus_written nalu nonempty (by omega)
    (if nalUnitType nalu = naluTypeIDR then videoFrameKey else videoFrameInter)
    { pull.srsCodec with videoCodecId := codecVideoAVC } configured.nalUnitLength told
  rw [AnyRtmpPull.gotPacket, if_pos video, data, naluTag, videoAvcDemux_mux _ _ _ _ kinds, EStateM.run_bind,
    EStateM.run_modify]
  dsimp only
  rw [if_neg notHeader, if_pos rfl, EStateM.run_bind, EStateM.run_get]
  dsimp only
  rw [if_neg configured.extra]
  unfold noUnits at units
  rw [units]
  dsimp only
  rw [if_pos rfl]
  let codec := { pull.srsCodec with
    videoCodecId := codecVideoAVC, payloadFormat := formatAfter pull.srsCodec.payloadFormat nalu.length }
  have same : Configured codec sps pps :=
    ⟨configured.extra, configured.nalUnitLength, configured.spsLength, configured.sps, configured.ppsLength,
      configured.pps⟩
  exact congrArg some (@gotVideoSample_sent { pull with srsCodec := codec } sps pps nalu same some_sps nonempty sent fits
    clear _)

end AdTerminal.Live
