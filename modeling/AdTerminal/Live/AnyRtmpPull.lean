import AdTerminal.Rtmp.AvcAacCodec

/-! The player's end of a live stream: what `AnyRtmpPull` makes of the packets it reads, frames of H.264
behind start codes and frames of AAC behind ADTS headers. -/

namespace AdTerminal.Live

open Rtmp BigEndian

/-- What is called back. -/
inductive PulledFrame
  | h264 (data : List UInt8) (timestamp : Nat)
  | aac (data : List UInt8) (timestamp : Nat)
  deriving DecidableEq, Repr

/-- `overread` tells whether more of a parameter set was copied than there was of it, or a unit was read past its
end. -/
structure AnyRtmpPull where
  srsCodec : SrsAvcAacCodec := {}
  videoPayload : List UInt8 := []
  audioPayload : List UInt8 := []
  called : List PulledFrame := []
  overread : Bool := false
  deriving DecidableEq, Repr

def videoPayloadSize : Nat := 384 * 1024
def audioPayloadSize : Nat := 1024

/-- `DemuxData::append`: what does not fit is left out. -/
def append (size : Nat) (payload data : List UInt8) : List UInt8 :=
  if size < payload.length + data.length then payload else payload ++ data

def freshNaluHeader : List UInt8 := [0, 0, 0, 1]
def contNaluHeader : List UInt8 := [0, 0, 1]

def naluTypeReserved : Nat := 0

/-- A start code of four bytes or of three. -/
def StartCodeAt (p : List UInt8) (i : Nat) : Prop :=
  p.getD i 0 = 0 ∧ p.getD (i + 1) 0 = 0 ∧ (p.getD (i + 2) 0 = 1 ∨ p.getD (i + 2) 0 = 0 ∧ p.getD (i + 3) 0 = 1)

instance (p : List UInt8) (i : Nat) : Decidable (StartCodeAt p i) :=
  inferInstanceAs (Decidable (_ ∧ _ ∧ _))

/-- What the scan of a key frame finds: where the first two units end, and where the third one begins with
how long a start code. Nothing found counts as 0. -/
structure Keyframe where
  find7 : Nat := 0
  find8 : Nat := 0
  third : Option (Nat × Nat) := none
  deriving DecidableEq, Repr

/-- The scan from `i`, of at most `fuel` turns. -/
def scanKeyframe (p : List UInt8) : Nat → Nat → Keyframe → Keyframe
  | 0, _, found => found
  | fuel + 1, i, found =>
    if ¬ i + 4 < p.length then found
    else if StartCodeAt p i then
      let head01 := if p.getD (i + 2) 0 = 1 then 3 else 4
      if found.find7 = 0 then scanKeyframe p fuel (i + 2) { found with find7 := i }
      else if found.find8 = 0 then
        if nalUnitType (p.drop (i + head01)) = naluTypeIDR then { found with find8 := i, third := some (i, head01) }
        else scanKeyframe p fuel (i + 1) { found with find8 := i }
      else { found with third := some (i, head01) }
    else scanKeyframe p fuel (i + 1) found

def keyframe (p : List UInt8) : Keyframe :=
  scanKeyframe p p.length 4 {}

namespace Keyframe

/-- The first two units with the start codes before them. -/
def first (found : Keyframe) (p : List UInt8) : List UInt8 :=
  p.take found.find7

def second (found : Keyframe) (p : List UInt8) : List UInt8 :=
  (p.take found.find8).drop found.find7

end Keyframe

namespace AnyRtmpPull

def appendVideo (data : List UInt8) (pull : AnyRtmpPull) : AnyRtmpPull :=
  { pull with videoPayload := append videoPayloadSize pull.videoPayload data }

/-- A parameter set is appended by the length that was announced for it. -/
def appendSet (length : Nat) (set : List UInt8) (pull : AnyRtmpPull) : AnyRtmpPull :=
  if 0 < length then
    let pull := (pull.appendVideo freshNaluHeader).appendVideo (set.take length)
    { pull with overread := pull.overread || decide (set.length < length) }
  else pull

def onRtmpullH264Data (timestamp : Nat) (pull : AnyRtmpPull) : AnyRtmpPull :=
  { pull with called := pull.called ++ [.h264 pull.videoPayload timestamp], videoPayload := [] }

def rescanVideoframe (data : List UInt8) (timestamp : Nat) (pull : AnyRtmpPull) : AnyRtmpPull :=
  -- the fifth byte is looked at, whatever the length
  let pull := { pull with overread := pull.overread || decide (data.length < 5) }
  if nalUnitType (data.drop 4) = naluTypeSPS then
    let found := keyframe data
    let third := match found.third with
      | some (i, head01) => data.drop (i + head01)
      | none => []
    ((((pull.appendVideo (found.first data)).appendVideo (found.second data)).appendVideo freshNaluHeader).appendVideo
      third).onRtmpullH264Data timestamp
  else (pull.appendVideo data).onRtmpullH264Data timestamp

/-- The loop over the units of a sample, which an empty one ends. -/
def gotUnits (timestamp : Nat) : List (List UInt8) → AnyRtmpPull → AnyRtmpPull
  | [], pull => pull
  | unit :: units, pull =>
    if unit = [] then pull
    else
      let type := nalUnitType unit
      -- ignore SPS/PPS/AUD
      if type = naluTypeSPS ∨ type = naluTypePPS ∨ type = naluTypeSEI ∨ type = naluTypeAccessUnitDelimiter then
        gotUnits timestamp units pull
      else if type = naluTypeReserved then gotUnits timestamp units (pull.rescanVideoframe unit timestamp)
      else
        let header := if type = naluTypeIDR then contNaluHeader else freshNaluHeader
        gotUnits timestamp units (((pull.appendVideo header).appendVideo unit).onRtmpullH264Data timestamp)

def gotVideoSample (timestamp : Nat) (sample : SrsCodecSample) (pull : AnyRtmpPull) : AnyRtmpPull :=
  if sample.frameType = SrsAvcAacCodec.videoInfoFrame then pull
  else if sample.frameType = videoFrameKey ∧ sample.avcPacketType = videoTypeSequenceHeader then pull
  else
    -- when ts message(samples) contains IDR, insert sps+pps
    let codec := pull.srsCodec
    let pull :=
      if sample.hasIdr then
        (pull.appendSet codec.sequenceParameterSetLength codec.sequenceParameterSetNALUnit).appendSet
          codec.pictureParameterSetLength codec.pictureParameterSetNALUnit
      else pull
    pull.gotUnits timestamp sample.sampleUnits

/-- The object type of a sequence header as the profile of an ADTS header. -/
def srsCodecAacRtmp2ts (object : Nat) : Nat :=
  if object = 1 then 0 else if object = 5 ∨ object = 29 ∨ object = 2 then 1 else if object = 3 then 2 else 3

/-- The ADTS header of a frame of this size. -/
def adtsHeader (codec : SrsAvcAacCodec) (size : Nat) : List UInt8 :=
  let frameLength := size + 7
  let profile := srsCodecAacRtmp2ts codec.aacObject
  [0xff, 0xf9,
    UInt8.ofNat (((profile <<< 6) &&& 0xc0) ||| ((codec.aacSampleRate <<< 2) &&& 0x3c) |||
      ((codec.aacChannels >>> 2) &&& 0x01)),
    UInt8.ofNat (((codec.aacChannels <<< 6) &&& 0xc0) ||| ((frameLength >>> 11) &&& 0x03)),
    UInt8.ofNat ((frameLength >>> 3) &&& 0xff),
    UInt8.ofNat (((frameLength <<< 5) &&& 0xe0) ||| 0x1f),
    0xfc]

/-- The loop over the units of a sample, which one of no size or of too large a size ends. -/
def gotAudioSample (timestamp : Nat) : List (List UInt8) → AnyRtmpPull → AnyRtmpPull
  | [], pull => pull
  | unit :: units, pull =>
    if unit = [] ∨ 0x1fff < unit.length then pull
    else
      let payload := append audioPayloadSize (append audioPayloadSize pull.audioPayload
        (adtsHeader pull.srsCodec unit.length)) unit
      gotAudioSample timestamp units
        { pull with called := pull.called ++ [.aac payload timestamp], audioPayload := [] }

/-- What `DoReadData` does with a packet that was read. An assertion of the library that fails ends the process. -/
def gotPacket (pull : AnyRtmpPull) (packet : RtmpPacket) : Option AnyRtmpPull :=
  if packet.type = typeVideo then
    match (SrsAvcAacCodec.videoAvcDemux packet.data).run pull.srsCodec with
    | .error .assertion _ => none
    | .error _ codec => some { pull with srsCodec := codec }
    | .ok sample codec =>
      let pull := { pull with srsCodec := codec }
      some (if codec.videoCodecId = codecVideoAVC then pull.gotVideoSample packet.timestamp sample else pull)
  else if packet.type = typeAudio then
    match (SrsAvcAacCodec.audioAacDemux packet.data).run pull.srsCodec with
    | .error .assertion _ => none
    | .error _ codec => some { pull with srsCodec := codec }
    | .ok sample codec =>
      let pull := { pull with srsCodec := codec }
      if codec.audioCodecId ≠ codecAudioAAC ∧ codec.audioCodecId ≠ SrsAvcAacCodec.codecAudioMP3 then some pull
      -- ignore sequence header
      else if codec.audioCodecId = codecAudioAAC ∧ sample.aacPacketType = SrsAvcAacCodec.audioTypeSequenceHeader ∨
          codec.aacObject = 0 then some pull
      else some (pull.gotAudioSample packet.timestamp sample.sampleUnits)
  else some pull

end AnyRtmpPull

end AdTerminal.Live
