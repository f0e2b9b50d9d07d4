import AdTerminal.Live.TagDemuxing
import Mathlib.Data.Nat.Bitwise

/-! Frames of AAC: the ADTS headers the encoder puts before them, and those the player puts before them
again. -/

namespace AdTerminal.Live

open Rtmp BigEndian Simulation SrsAvcAacCodec

/-- What the header says of the sound. -/
structure AdtsConfig where
  profile : Fin 3
  samplingFrequencyIndex : Fin 15
  channels : Fin 8
  deriving DecidableEq, Repr

/-- A frame with a header of seven bytes, or of nine with a checksum. What no one reads of the header is
kept as numbers: `version`, `origin` and `fullness`. -/
structure AdtsFrame where
  config : AdtsConfig
  raw : List UInt8
  checksum : Option UInt16 := none
  version : Fin 8 := 4
  privateBit : Fin 2 := 0
  origin : Fin 16 := 0
  fullness : Fin 8192 := 0x1ffc
  length_lt : raw.length + 9 < 2 ^ 13

namespace AdtsFrame

def headerSize (frame : AdtsFrame) : Nat :=
  if frame.checksum.isSome then 9 else 7

def frameLength (frame : AdtsFrame) : Nat :=
  frame.raw.length + frame.headerSize

/-- The sixteen bits from the profile to the first two of the length. -/
def fixedBits (frame : AdtsFrame) : Nat :=
  frame.config.profile * 2 ^ 14 + frame.config.samplingFrequencyIndex * 2 ^ 10 + frame.privateBit * 2 ^ 9 +
    frame.config.channels * 2 ^ 6 + frame.origin * 2 ^ 2 + frame.frameLength / 2 ^ 11

/-- The twenty-four bits from the others of the length. -/
def variableBits (frame : AdtsFrame) : Nat :=
  frame.frameLength % 2 ^ 11 * 2 ^ 13 + frame.fullness

/-- The second byte: the rest of the syncword and whether there is no checksum. -/
def second (frame : AdtsFrame) : UInt8 :=
  UInt8.ofNat (0xf0 + frame.version * 2 + if frame.checksum.isSome then 0 else 1)

def check (frame : AdtsFrame) : List UInt8 :=
  match frame.checksum with
  | some checksum => bigEndian 2 checksum.toNat
  | none => []

def bytes (frame : AdtsFrame) : List UInt8 :=
  [0xff, frame.second] ++ (bigEndian 2 frame.fixedBits ++ (bigEndian 3 frame.variableBits ++ (frame.check ++
    frame.raw)))

end AdtsFrame

theorem shift_mask (n k m : Nat) : (n >>> k) &&& (2 ^ m - 1) = n / 2 ^ k % 2 ^ m := by
  rw [Nat.shiftRight_eq_div_pow, Nat.and_two_pow_sub_one_eq_mod]

/-- The two parts of the length are put together. -/
theorem frameLength_parts (high low : Nat) :
    ((high <<< 11) &&& 0x1800) ||| ((low >>> 13) &&& 0x07ff) = high % 4 * 2 ^ 11 + low / 2 ^ 13 % 2 ^ 11 := by
  have first : (high <<< 11) &&& 0x1800 = (high % 4) <<< 11 := by
    have mask : 0x1800 = 3 <<< 11 := rfl
    rw [mask, ← Nat.shiftLeft_and_distrib]
    exact congrArg (· <<< 11) (Nat.and_two_pow_sub_one_eq_mod high 2)
  have second : (low >>> 13) &&& 0x07ff = low / 2 ^ 13 % 2 ^ 11 := shift_mask low 13 11
  rw [first, second, ← Nat.shiftLeft_add_eq_or_of_lt (Nat.mod_lt _ (by decide)), Nat.shiftLeft_eq]

namespace AdtsFrame

theorem frameLength_lt (frame : AdtsFrame) : frame.frameLength < 2 ^ 13 := by
  have small := frame.length_lt
  unfold frameLength headerSize
  split <;> omega

theorem second_syncword (frame : AdtsFrame) : frame.second.toNat &&& 0xf0 = 0xf0 := by
  have every : ∀ (version : Fin 8) (absent : Bool),
      (UInt8.ofNat (0xf0 + version * 2 + if absent then 0 else 1)).toNat &&& 0xf0 = 0xf0 := by decide
  exact every frame.version frame.checksum.isSome

theorem second_protection (frame : AdtsFrame) :
    frame.second.toNat &&& 0x01 = if frame.checksum.isSome then 0 else 1 := by
  have every : ∀ (version : Fin 8) (absent : Bool),
      (UInt8.ofNat (0xf0 + version * 2 + if absent then 0 else 1)).toNat &&& 0x01 = if absent then 0 else 1 := by decide
  exact every frame.version frame.checksum.isSome

theorem fixedBits_lt (frame : AdtsFrame) : frame.fixedBits < 2 ^ 16 := by
  have length := frame.frameLength_lt
  unfold fixedBits
  omega

theorem variableBits_lt (frame : AdtsFrame) : frame.variableBits < 2 ^ 24 := by
  unfold variableBits
  omega

theorem fixedBits_fields (frame : AdtsFrame) :
    (frame.fixedBits >>> 14) &&& 0x03 = frame.config.profile ∧
    (frame.fixedBits >>> 10) &&& 0x0f = frame.config.samplingFrequencyIndex ∧
    (frame.fixedBits >>> 6) &&& 0x07 = frame.config.channels := by
  have length := frame.frameLength_lt
  have profile : (frame.fixedBits >>> 14) &&& 0x03 = frame.fixedBits / 2 ^ 14 % 2 ^ 2 := shift_mask _ 14 2
  have sampling : (frame.fixedBits >>> 10) &&& 0x0f = frame.fixedBits / 2 ^ 10 % 2 ^ 4 := shift_mask _ 10 4
  have channels : (frame.fixedBits >>> 6) &&& 0x07 = frame.fixedBits / 2 ^ 6 % 2 ^ 3 := shift_mask _ 6 3
  rw [profile, sampling, channels, fixedBits]
  omega

theorem frameLength_read (frame : AdtsFrame) :
    ((frame.fixedBits <<< 11) &&& 0x1800) ||| ((frame.variableBits >>> 13) &&& 0x07ff) = frame.frameLength := by
  have length := frame.frameLength_lt
  rw [frameLength_parts, fixedBits, variableBits]
  omega

theorem length_check (frame : AdtsFrame) : frame.check.length + 7 = frame.headerSize := by
  unfold check headerSize
  cases frame.checksum with
  | none => rfl
  | some checksum => simp

theorem length_bytes (frame : AdtsFrame) : frame.bytes.length = frame.frameLength := by
  have check := frame.length_check
  unfold bytes frameLength
  simp only [List.length_append, List.length_cons, List.length_nil, length_bigEndian]
  omega

end AdtsFrame

/-- The codec that is read of a header. -/
def AdtsConfig.codec (config : AdtsConfig) (sound : Sound) : SrsRawAacStreamCodec :=
  { aacObject := config.profile + 1, samplingFrequencyIndex := config.samplingFrequencyIndex
    channelConfiguration := config.channels, soundFormat := sound.format, soundRate := sound.rate
    soundSize := sound.size, soundType := sound.type, aacPacketType := 0 }

/-- A frame is taken off whole, with what its header says. -/
theorem adtsDemux_frame (sound : Sound) (frame : AdtsFrame) (rest : List UInt8) :
    SrsRawAacStream.adtsDemux sound (frame.bytes ++ rest) = .ok (frame.raw, frame.config.codec sound, rest) := by
  have shape : frame.bytes ++ rest = 0xff :: frame.second :: (bigEndian 2 frame.fixedBits ++
      (bigEndian 3 frame.variableBits ++ (frame.check ++ (frame.raw ++ rest)))) := by
    simp [AdtsFrame.bytes]
  have two := length_bigEndian 2 frame.fixedBits
  have three := length_bigEndian 3 frame.variableBits
  have size := frame.length_bytes
  have header := frame.length_check
  have least : 7 ≤ frame.frameLength := by
    unfold AdtsFrame.frameLength
    omega
  have long : ¬ (frame.bytes ++ rest).length < 7 := by
    rw [List.length_append, size]
    omega
  have starts : srsAacStartswithAdts (frame.bytes ++ rest) = true := by
    rw [shape]
    simp [srsAacStartswithAdts, frame.second_syncword]
  have at1 : (frame.bytes ++ rest).getD 1 0 = frame.second := by
    rw [shape]
    rfl
  have at2 : (frame.bytes ++ rest).drop 2 = bigEndian 2 frame.fixedBits ++ (bigEndian 3 frame.variableBits ++
      (frame.check ++ (frame.raw ++ rest))) := by
    rw [shape]
    rfl
  have at4 : (frame.bytes ++ rest).drop 4 = bigEndian 3 frame.variableBits ++ (frame.check ++ (frame.raw ++ rest)) := by
    have four : 4 = 2 + 2 := rfl
    rw [four, ← List.drop_drop, at2, List.drop_left' two]
  have behind : (frame.bytes ++ rest).drop frame.headerSize = frame.raw ++ rest := by
    have parts : frame.headerSize = 4 + (3 + frame.check.length) := by omega
    rw [parts, ← List.drop_drop, at4, ← List.drop_drop, List.drop_left' three, List.drop_left' rfl]
  have fixed : ofBigEndian (((frame.bytes ++ rest).drop 2).take 2) = frame.fixedBits := by
    rw [at2, List.take_left' two, ofBigEndian_bigEndian_of_lt frame.fixedBits_lt]
  have varied : ofBigEndian (((frame.bytes ++ rest).drop 4).take 3) = frame.variableBits := by
    rw [at4, List.take_left' three, ofBigEndian_bigEndian_of_lt frame.variableBits_lt]
  obtain ⟨profile, sampling, channels⟩ := frame.fixedBits_fields
  have object : srsCodecAacTs2rtmp frame.config.profile = frame.config.profile + 1 := by
    have every : ∀ profile : Fin 3, srsCodecAacTs2rtmp profile = profile + 1 := by decide
    exact every frame.config.profile
  have headerSize : (if (if frame.checksum.isSome = true then 0 else 1) = 0 then 9 else 7) = frame.headerSize := by
    unfold AdtsFrame.headerSize
    split <;> rfl
  have checked : ¬ ((if frame.checksum.isSome = true then 0 else 1) = 0 ∧ (frame.bytes ++ rest).length < 9) := by
    rintro ⟨present, short⟩
    rw [List.length_append, size] at short
    unfold AdtsFrame.frameLength at short
    rw [if_pos present] at headerSize
    omega
  have whole : ¬ frame.frameLength < frame.headerSize := by
    unfold AdtsFrame.frameLength
    omega
  have rawSize : frame.frameLength - frame.headerSize = frame.raw.length := by
    unfold AdtsFrame.frameLength
    omega
  have enough : ¬ (frame.raw ++ rest).length < frame.raw.length := by
    rw [List.length_append]
    omega
  rw [SrsRawAacStream.adtsDemux, if_neg long, if_neg (not_not.mpr starts)]
  simp only [at1, fixed, varied, frame.second_protection, if_neg checked, headerSize, frame.frameLength_read,
    if_neg whole, rawSize, behind, if_neg enough, profile, sampling, channels, object]
  rw [List.take_left' rfl, List.drop_left' rfl]
  rfl

/-- The rate that the caller says, where it says one of the three that are known, or that of the header. -/
def AdtsConfig.announced (config : AdtsConfig) (sound : Sound) : AdtsConfig :=
  { config with samplingFrequencyIndex :=
      if sound.rate = 1 then 10 else if sound.rate = 2 then 7 else if sound.rate = 3 then 4
      else config.samplingFrequencyIndex }

/-- The two bytes of a sequence header. -/
def AdtsConfig.specificConfig (config : AdtsConfig) : List UInt8 :=
  [UInt8.ofNat ((config.profile + 1) * 8 + config.samplingFrequencyIndex / 2),
    UInt8.ofNat (config.samplingFrequencyIndex % 2 * 128 + config.channels * 8)]

theorem muxSequenceHeader_codec (config : AdtsConfig) (sound : Sound) :
    SrsRawAacStream.muxSequenceHeader (config.codec sound) = .ok (config.announced sound).specificConfig := by
  have every : ∀ (profile : Fin 3) (index : Fin 15) (channels : Fin 8),
      [UInt8.ofNat ((((profile : Nat) + 1) <<< 3 &&& 0xf8) ||| ((index : Nat) >>> 1 &&& 0x07)),
        UInt8.ofNat (((index : Nat) <<< 7 &&& 0x80) ||| ((channels : Nat) <<< 3 &&& 0x78))] =
      [UInt8.ofNat ((profile + 1) * 8 + index / 2), UInt8.ofNat (index % 2 * 128 + channels * 8)] := by
    decide +kernel
  have index : (if (config.codec sound).soundRate = 1 then 0x0a else if (config.codec sound).soundRate = 2 then 0x07
      else if (config.codec sound).soundRate = 3 then 0x04 else (config.codec sound).samplingFrequencyIndex) =
      (config.announced sound).samplingFrequencyIndex := by
    change (if sound.rate = 1 then 0x0a else if sound.rate = 2 then 0x07 else if sound.rate = 3 then 0x04
      else (config.samplingFrequencyIndex : Nat)) = (config.announced sound).samplingFrequencyIndex
    unfold AdtsConfig.announced
    split_ifs <;> rfl
  have known : ¬ ((config.announced sound).samplingFrequencyIndex : Nat) = 0x0f := by omega
  have object : ¬ (config.codec sound).aacObject = 0 := Nat.succ_ne_zero _
  rw [SrsRawAacStream.muxSequenceHeader, if_neg object]
  simp only [index, if_neg known]
  exact congrArg Except.ok (every config.profile (config.announced sound).samplingFrequencyIndex config.channels)

/-- What a player holds that has read a sequence header. -/
structure Tuned (codec : SrsAvcAacCodec) (config : AdtsConfig) : Prop where
  extra : codec.aacExtraData ≠ []
  object : codec.aacObject = config.profile + 1
  sampleRate : codec.aacSampleRate = config.samplingFrequencyIndex
  channels : codec.aacChannels = config.channels

/-- Nothing of the pictures is changed. -/
structure SamePictures (codec codec' : SrsAvcAacCodec) : Prop where
  extra : codec'.avcExtraData = codec.avcExtraData
  nalUnitLength : codec'.nalUnitLength = codec.nalUnitLength
  spsLength : codec'.sequenceParameterSetLength = codec.sequenceParameterSetLength
  sps : codec'.sequenceParameterSetNALUnit = codec.sequenceParameterSetNALUnit
  ppsLength : codec'.pictureParameterSetLength = codec.pictureParameterSetLength
  pps : codec'.pictureParameterSetNALUnit = codec.pictureParameterSetNALUnit
  payloadFormat : codec'.payloadFormat = codec.payloadFormat

theorem specificConfig_fields (config : AdtsConfig) :
    let first := (config.specificConfig.headD 0).toNat
    let second := (config.specificConfig.getD 1 0).toNat
    (second >>> 3) &&& 0x0f = config.channels ∧
    ((first <<< 1) &&& 0x0e) ||| ((second >>> 7) &&& 0x01) = config.samplingFrequencyIndex ∧
    (first >>> 3) &&& 0x1f = config.profile + 1 := by
  have every : ∀ (profile : Fin 3) (index : Fin 15) (channels : Fin 8),
      let first := (UInt8.ofNat (((profile : Nat) + 1) * 8 + index / 2)).toNat
      let second := (UInt8.ofNat ((index : Nat) % 2 * 128 + channels * 8)).toNat
      (second >>> 3) &&& 0x0f = (channels : Nat) ∧
      ((first <<< 1) &&& 0x0e) ||| ((second >>> 7) &&& 0x01) = (index : Nat) ∧
      (first >>> 3) &&& 0x1f = (profile : Nat) + 1 := by
    decide +kernel
  exact every config.profile config.samplingFrequencyIndex config.channels

/-- The tag of a sequence header, or of a frame. -/
def aacTag (sound : Sound) (config : AdtsConfig) (type : UInt8) (data : List UInt8) (timestamp : UInt32) : FlvTag :=
  ⟨typeAudio, timestamp, SrsRawAacStream.muxAac2flv data { config.codec sound with aacPacketType := type }⟩

/-- The first byte of an audio tag of AAC. -/
theorem aacTag_data {sound : Sound} (aac : sound.format = codecAudioAAC) (config : AdtsConfig) (type : UInt8)
    (data : List UInt8) (timestamp : UInt32) :
    ∃ first : UInt8, (aacTag sound config type data timestamp).data = first :: type :: data ∧
      (first.toNat >>> 4) &&& 0x0f = codecAudioAAC := by
  refine ⟨UInt8.ofNat ((sound.type &&& 0x01) ||| ((sound.size <<< 1) &&& 0x02) ||| ((sound.rate <<< 2) &&& 0x0c) |||
    ((sound.format <<< 4) &&& 0xf0)), ?_, ?_⟩
  · change SrsRawAacStream.muxAac2flv data { config.codec sound with aacPacketType := type } = _
    rw [SrsRawAacStream.muxAac2flv]
    exact if_pos aac
  have every : ∀ (one : Fin 2) (two : Fin 2) (three : Fin 4),
      ((UInt8.ofNat ((one : Nat) ||| (two : Nat) <<< 1 ||| (three : Nat) <<< 2 ||| 0xa0)).toNat >>> 4) &&& 0x0f = 10 := by
    decide
  have one : sound.type &&& 0x01 = sound.type % 2 := Nat.and_two_pow_sub_one_eq_mod sound.type 1
  have two : (sound.size <<< 1) &&& 0x02 = (sound.size % 2) <<< 1 := by
    have mask : 0x02 = 1 <<< 1 := rfl
    rw [mask, ← Nat.shiftLeft_and_distrib]
    exact congrArg (· <<< 1) (Nat.and_two_pow_sub_one_eq_mod sound.size 1)
  have three : (sound.rate <<< 2) &&& 0x0c = (sound.rate % 4) <<< 2 := by
    have mask : 0x0c = 3 <<< 2 := rfl
    rw [mask, ← Nat.shiftLeft_and_distrib]
    exact congrArg (· <<< 2) (Nat.and_two_pow_sub_one_eq_mod sound.rate 2)
  rw [aac, one, two, three]
  exact every ⟨sound.type % 2, Nat.mod_lt _ (by decide)⟩ ⟨sound.size % 2, Nat.mod_lt _ (by decide)⟩
    ⟨sound.rate % 4, Nat.mod_lt _ (by decide)⟩

/-- The sample of a tag before a unit is found in it. -/
def noSound (type : UInt8) : SrsCodecSample :=
  { isVideo := false, acodec := codecAudioAAC, aacPacketType := type }

/-- A sequence header tunes the player and calls nothing back. -/
theorem gotPacket_aacHeader (pull : AnyRtmpPull) {sound : Sound} (aac : sound.format = codecAudioAAC)
    (config : AdtsConfig) (timestamp : UInt32) :
    ∃ codec, pull.gotPacket (aacTag sound config audioTypeSequenceHeader (config.announced sound).specificConfig
        timestamp).packet = some { pull with srsCodec := codec } ∧
      Tuned codec (config.announced sound) ∧ SamePictures pull.srsCodec codec := by
  obtain ⟨first, data, format⟩ := aacTag_data aac config audioTypeSequenceHeader
    (config.announced sound).specificConfig timestamp
  obtain ⟨channels, index, object⟩ := specificConfig_fields (config.announced sound)
  generalize specific : (config.announced sound).specificConfig = bytes at *
  have nonempty : bytes ≠ [] := by
    rw [← specific]
    exact List.cons_ne_nil _ _
  have long : ¬ bytes.length < 2 := by
    rw [← specific]
    exact lt_irrefl 2
  have positive : ¬ (config.announced sound).profile.val + 1 = 0 := Nat.succ_ne_zero _
  have read : ∃ codec, (audioAacDemux (first :: audioTypeSequenceHeader :: bytes)).run pull.srsCodec =
        .ok (noSound audioTypeSequenceHeader) codec ∧ codec.audioCodecId = codecAudioAAC ∧
      Tuned codec (config.announced sound) ∧ SamePictures pull.srsCodec codec := by
    refine ⟨{ pull.srsCodec with
      audioCodecId := codecAudioAAC, aacExtraData := bytes
      aacChannels := (config.announced sound).channels
      aacSampleRate := (config.announced sound).samplingFrequencyIndex
      aacObject := (config.announced sound).profile + 1 }, ?_, rfl, ⟨nonempty, rfl, rfl, rfl⟩,
      ⟨rfl, rfl, rfl, rfl, rfl, rfl, rfl⟩⟩
    rw [audioAacDemux]
    simp only [EStateM.run_bind, EStateM.run_modify, format]
    rw [if_neg (by decide), if_neg (by decide), if_pos trivial, if_neg nonempty]
    simp only [EStateM.run_bind, EStateM.run_modify, audioAacSequenceHeaderDemux, if_neg long, channels, index, object,
      if_neg positive]
    rfl
  obtain ⟨codec, read, codecId, tuned, pictures⟩ := read
  refine ⟨codec, ?_, tuned, pictures⟩
  have audio : (aacTag sound config audioTypeSequenceHeader bytes timestamp).packet.type = typeAudio := rfl
  have payload : (aacTag sound config audioTypeSequenceHeader bytes timestamp).packet.data =
      first :: audioTypeSequenceHeader :: bytes := data
  have notVideo : ¬ typeAudio = typeVideo := by decide
  have known : ¬ (codec.audioCodecId ≠ codecAudioAAC ∧ codec.audioCodecId ≠ codecAudioMP3) :=
    fun both => both.1 codecId
  rw [AnyRtmpPull.gotPacket, audio, if_neg notVideo, if_pos rfl, payload, read]
  dsimp only
  rw [if_neg known, if_pos (.inl ⟨codecId, rfl⟩)]

theorem gotPacket_aac {pull : AnyRtmpPull} {sound : Sound} (aac : sound.format = codecAudioAAC)
    (config : AdtsConfig) (raw : List UInt8) (timestamp : UInt32) (extra : pull.srsCodec.aacExtraData ≠ [])
    (object : pull.srsCodec.aacObject ≠ 0) :
    pull.gotPacket (aacTag sound config audioTypeRawData raw timestamp).packet =
      some (AnyRtmpPull.gotAudioSample (timestamp.toNat % 2 ^ 31) [raw]
        { pull with srsCodec := { pull.srsCodec with audioCodecId := codecAudioAAC } }) := by
  obtain ⟨first, data, format⟩ := aacTag_data aac config audioTypeRawData raw timestamp
  have unit : (noSound audioTypeRawData).addSampleUnit raw raw.length =
      .ok { noSound audioTypeRawData with sampleUnits := [raw] } := by
    rw [SrsCodecSample.addSampleUnit, List.take_length]
    rfl
  have read : (audioAacDemux (first :: audioTypeRawData :: raw)).run pull.srsCodec =
      .ok { noSound audioTypeRawData with sampleUnits := [raw] }
        { pull.srsCodec with audioCodecId := codecAudioAAC } := by
    rw [audioAacDemux]
    simp only [EStateM.run_bind, EStateM.run_modify, format]
    rw [if_neg (by decide), if_neg (by decide), if_neg (by decide), if_pos trivial, EStateM.run_bind, EStateM.run_get]
    dsimp only
    rw [if_neg extra]
    unfold noSound at unit
    rw [unit]
    rfl
  have audio : (aacTag sound config audioTypeRawData raw timestamp).packet.type = typeAudio := rfl
  have payload : (aacTag sound config audioTypeRawData raw timestamp).packet.data =
      first :: audioTypeRawData :: raw := data
  have notVideo : ¬ typeAudio = typeVideo := by decide
  have known : ¬ (codecAudioAAC ≠ codecAudioAAC ∧ codecAudioAAC ≠ codecAudioMP3) := fun both => both.1 rfl
  have notHeader : ¬ (codecAudioAAC = codecAudioAAC ∧ audioTypeRawData = audioTypeSequenceHeader ∨
      pull.srsCodec.aacObject = 0) := by
    rintro (⟨-, header⟩ | none_yet)
    · exact absurd header (by decide)
    · exact object none_yet
  rw [AnyRtmpPull.gotPacket, audio, if_neg notVideo, if_pos rfl, payload, read]
  dsimp only
  rw [if_neg known]
  exact if_neg notHeader

/-- The frame behind the header that a player puts before it. -/
def AdtsFrame.retuned (frame : AdtsFrame) (config : AdtsConfig) : AdtsFrame :=
  { config, raw := frame.raw, length_lt := frame.length_lt }

/-- A frame with a header of seven bytes that says nothing more than its configuration and its length. -/
def AdtsFrame.plain (config : AdtsConfig) (raw : List UInt8) (length_lt : raw.length + 9 < 2 ^ 13) : AdtsFrame :=
  { config, raw, length_lt }

/-- What is called back of a frame: one that does not fit leaves the header alone. -/
def heard (config : AdtsConfig) (frame : AdtsFrame) (timestamp : Nat) : List PulledFrame :=
  if frame.raw = [] then []
  else if frame.raw.length + 7 ≤ audioPayloadSize then [.aac (frame.retuned config).bytes timestamp]
  else [.aac ((frame.retuned config).bytes.take 7) timestamp]

/-- The header that the player writes. -/
theorem adtsHeader_retuned {codec : SrsAvcAacCodec} {config : AdtsConfig} (tuned : Tuned codec config)
    (frame : AdtsFrame) :
    AnyRtmpPull.adtsHeader codec frame.raw.length ++ frame.raw = (frame.retuned config).bytes := by
  have small := frame.length_lt
  have size : (frame.retuned config).frameLength = frame.raw.length + 7 := rfl
  generalize whole : frame.raw.length + 7 = n at size small
  have least : n < 2 ^ 13 := by omega
  have fixed : (frame.retuned config).fixedBits =
      config.profile * 2 ^ 14 + config.samplingFrequencyIndex * 2 ^ 10 + config.channels * 2 ^ 6 + n / 2 ^ 11 := by
    have privateBit : ((frame.retuned config).privateBit : Nat) = 0 := rfl
    have origin : ((frame.retuned config).origin : Nat) = 0 := rfl
    have same : (frame.retuned config).config = config := rfl
    rw [AdtsFrame.fixedBits, size, privateBit, origin, same]
    omega
  have fullness : ((frame.retuned config).fullness : Nat) = 0x1ffc := by
    change ((0x1ffc : Fin 8192) : Nat) = 0x1ffc
    decide
  have varied : (frame.retuned config).variableBits = n % 2 ^ 11 * 2 ^ 13 + 0x1ffc := by
    rw [AdtsFrame.variableBits, size, fullness]
  have object : ∀ profile : Fin 3, AnyRtmpPull.srsCodecAacRtmp2ts (profile + 1) = profile := by decide
  have third : ∀ (profile : Fin 3) (index : Fin 15) (channels : Fin 8),
      (((profile : Nat) <<< 6) &&& 0xc0) ||| (((index : Nat) <<< 2) &&& 0x3c) ||| (((channels : Nat) >>> 2) &&& 0x01) =
        profile * 64 + index * 4 + channels / 4 := by decide +kernel
  have fourth : ∀ (channels : Fin 8) (high : Fin 4),
      (((channels : Nat) <<< 6) &&& 0xc0) ||| (high : Nat) = channels % 4 * 64 + high := by decide +kernel
  have sixth : ∀ low : Fin 8, ((low : Nat) <<< 5) ||| 0x1f = low * 32 + 31 := by decide
  have high : (n >>> 11) &&& 0x03 = n / 2 ^ 11 % 2 ^ 2 := shift_mask n 11 2
  have middle : (n >>> 3) &&& 0xff = n / 2 ^ 3 % 2 ^ 8 := shift_mask n 3 8
  have low : (n <<< 5) &&& 0xe0 = (n % 8) <<< 5 := by
    have mask : 0xe0 = 7 <<< 5 := rfl
    rw [mask, ← Nat.shiftLeft_and_distrib]
    exact congrArg (· <<< 5) (Nat.and_two_pow_sub_one_eq_mod n 3)
  have shape : (frame.retuned config).bytes = [0xff, (frame.retuned config).second] ++
      (bigEndian 2 (frame.retuned config).fixedBits ++ (bigEndian 3 (frame.retuned config).variableBits ++ frame.raw)) := rfl
  have second : (frame.retuned config).second = 0xf9 := by
    change UInt8.ofNat (0xf0 + ((4 : Fin 8) : Nat) * 2 + 1) = 0xf9
    decide
  have two : ∀ bits, bigEndian 2 bits = [UInt8.ofNat (bits / 256), UInt8.ofNat bits] := fun bits => by
    simp only [bigEndian, Nat.pow_zero, Nat.div_one, Nat.pow_one]
  have three : ∀ bits, bigEndian 3 bits =
      [UInt8.ofNat (bits / 65536), UInt8.ofNat (bits / 256), UInt8.ofNat bits] := fun bits => by
    simp only [bigEndian, Nat.pow_zero, Nat.div_one, Nat.pow_one, Nat.reducePow]
  rw [AnyRtmpPull.adtsHeader, shape, second, fixed, varied, two, three]
  simp only [tuned.object, tuned.sampleRate, tuned.channels, object, whole, high, middle, low, third,
    fourth config.channels ⟨n / 2 ^ 11 % 2 ^ 2, Nat.mod_lt _ (by decide)⟩, sixth ⟨n % 8, Nat.mod_lt _ (by decide)⟩,
    List.cons_append, List.nil_append, List.cons.injEq, true_and, and_true, ofNat_eq_iff, UInt8.toNat_ofNat']
  refine ⟨by omega, by omega, by omega, by omega, ?_⟩
  have last : (252 : UInt8).toNat = 252 := rfl
  rw [eq_comm, ofNat_eq_iff, last]
  omega

/-- A frame is heard as it was written, behind the header of what the player is tuned to. -/
theorem gotPacket_heard {pull : AnyRtmpPull} {sound : Sound} (aac : sound.format = codecAudioAAC)
    (written : AdtsConfig) (frame : AdtsFrame) (timestamp : UInt32) {config : AdtsConfig}
    (tuned : Tuned pull.srsCodec config) (clear : pull.audioPayload = []) :
    pull.gotPacket (aacTag sound written audioTypeRawData frame.raw timestamp).packet =
      some { pull with
        srsCodec := { pull.srsCodec with audioCodecId := codecAudioAAC }
        called := pull.called ++ heard config frame (timestamp.toNat % 2 ^ 31) } := by
  have object : pull.srsCodec.aacObject ≠ 0 := by
    rw [tuned.object]
    exact Nat.succ_ne_zero _
  rw [gotPacket_aac aac written frame.raw timestamp tuned.extra object, AnyRtmpPull.gotAudioSample, heard]
  by_cases empty : frame.raw = []
  · rw [if_pos (.inl empty), if_pos empty, List.append_nil]
  have small := frame.length_lt
  have inside : ¬ (frame.raw = [] ∨ 0x1fff < frame.raw.length) := not_or.mpr ⟨empty, by omega⟩
  have retuned : Tuned { pull.srsCodec with audioCodecId := codecAudioAAC } config :=
    ⟨tuned.extra, tuned.object, tuned.sampleRate, tuned.channels⟩
  have bytes := adtsHeader_retuned retuned frame
  have seven : (AnyRtmpPull.adtsHeader { pull.srsCodec with audioCodecId := codecAudioAAC } frame.raw.length).length = 7 :=
    rfl
  rw [if_neg inside, if_neg empty]
  dsimp only
  generalize AnyRtmpPull.adtsHeader { pull.srsCodec with audioCodecId := codecAudioAAC } frame.raw.length = header at *
  have room : ¬ audioPayloadSize < ([] : List UInt8).length + header.length := by
    rw [seven]
    decide
  have first : append audioPayloadSize [] header = header := if_neg room
  rw [clear, first, append, seven, ← bytes, AnyRtmpPull.gotAudioSample]
  by_cases fits : frame.raw.length + 7 ≤ audioPayloadSize
  · rw [if_neg (by omega), if_pos fits]
  · rw [if_pos (by omega), if_neg fits, List.take_left' seven]

end AdTerminal.Live
