import AdTerminal.Rtmp.Packets
import AdTerminal.Rtmp.RawFrames
import AdTerminal.Rtmp.SpsFields

/-! The demuxer of the player: what `SrsAvcAacCodec` makes of a video or an audio tag. -/

namespace AdTerminal.Rtmp

open BigEndian Simulation

inductive SrsAvcPayloadFormat
  | guess
  | annexb
  | ibmf
  deriving DecidableEq, Repr

/-- A length is that of the set announced last, which may be longer than the bytes that were there to copy. -/
structure SrsAvcAacCodec where
  videoCodecId : Nat := 0
  avcExtraData : List UInt8 := []
  nalUnitLength : Nat := 0
  sequenceParameterSetLength : Nat := 0
  sequenceParameterSetNALUnit : List UInt8 := []
  pictureParameterSetLength : Nat := 0
  pictureParameterSetNALUnit : List UInt8 := []
  payloadFormat : SrsAvcPayloadFormat := .guess
  size : Int × Int := (0, 0)
  audioCodecId : Nat := 0
  aacExtraData : List UInt8 := []
  aacObject : Nat := 0
  aacSampleRate : Nat := 15
  aacChannels : Nat := 0
  deriving DecidableEq, Repr

structure SrsCodecSample where
  isVideo : Bool
  frameType : Nat := 0
  avcPacketType : UInt8 := 3
  hasIdr : Bool := false
  acodec : Nat := 0
  aacPacketType : UInt8 := 2
  sampleUnits : List (List UInt8) := []
  deriving DecidableEq, Repr

abbrev Demux (α : Type) : Type := EStateM AvcError SrsAvcAacCodec α

def maxCodecSample : Nat := 128

namespace SrsCodecSample

/-- `bytes` is all from where the unit begins: its type is read there, even where the unit is empty. -/
def addSampleUnit (bytes : List UInt8) (size : Nat) (sample : SrsCodecSample) : Except AvcError SrsCodecSample :=
  if maxCodecSample ≤ sample.sampleUnits.length then .error .hlsDecodeError
  else .ok { sample with
    sampleUnits := sample.sampleUnits ++ [bytes.take size]
    hasIdr := sample.hasIdr || (sample.isVideo && nalUnitType bytes == naluTypeIDR) }

end SrsCodecSample

namespace SrsAvcAacCodec

/-- The bytes up to the next start code, or up to the end, and those from there. -/
def untilAnnexb : List UInt8 → List UInt8 × List UInt8
  | [] => ([], [])
  | b :: bytes =>
    if (srsAvcStartswithAnnexb (b :: bytes)).isSome then ([], b :: bytes)
    else (b :: (untilAnnexb bytes).1, (untilAnnexb bytes).2)

/-- The loop over the units behind start codes, of at most `fuel` turns. -/
def annexbUnits : Nat → List UInt8 → SrsCodecSample → Except AvcError SrsCodecSample
  | 0, _, sample => .ok sample
  | fuel + 1, bytes, sample =>
    match srsAvcStartswithAnnexb bytes with
    | none => .ok sample
    | some startCode =>
      let (unit, left) := untilAnnexb (bytes.drop startCode)
      if unit = [] then annexbUnits fuel left sample
      else match sample.addSampleUnit unit unit.length with
      | .error e => .error e
      | .ok sample => annexbUnits fuel left sample

def avcDemuxAnnexbFormat (bytes : List UInt8) (sample : SrsCodecSample) : Except AvcError SrsCodecSample :=
  if (srsAvcStartswithAnnexb bytes).isNone then .error .hlsAvcTryOthers
  else annexbUnits bytes.length bytes sample

/-- The length of a unit, in as many bytes as the sequence header says, and those bytes' number. -/
def unitLength (nalUnitLength : Nat) (bytes : List UInt8) : Int :=
  if nalUnitLength = 3 then (Int.ofNat (ofBigEndian (bytes.take 4))).bmod (2 ^ 32)
  else if nalUnitLength = 1 then (Int.ofNat (ofBigEndian (bytes.take 2))).bmod (2 ^ 16)
  else (Int.ofNat (ofBigEndian (bytes.take 1))).bmod (2 ^ 8)

/-- The loop over the units behind their lengths, of at most `fuel` turns. -/
def ibmfUnits (nalUnitLength : Nat) : Nat → List UInt8 → SrsCodecSample → Except AvcError SrsCodecSample
  | 0, _, sample => .ok sample
  | fuel + 1, bytes, sample =>
    if bytes = [] then .ok sample
    else if bytes.length < nalUnitLength + 1 then .error .hlsDecodeError
    else
      let length := unitLength nalUnitLength bytes
      let left := bytes.drop (nalUnitLength + 1)
      if length < 0 then .error .hlsDecodeError
      else if (left.length : Int) < length then .error .hlsDecodeError
      else match sample.addSampleUnit left length.toNat with
      | .error e => .error e
      | .ok sample => ibmfUnits nalUnitLength fuel (left.drop length.toNat) sample

def avcDemuxIbmfFormat (bytes : List UInt8) (sample : SrsCodecSample) : Demux SrsCodecSample := fun codec =>
  if codec.nalUnitLength = 2 then .error .assertion codec
  else match ibmfUnits codec.nalUnitLength bytes.length bytes sample with
  | .ok sample => .ok sample codec
  | .error e => .error e codec

/-- The length of one of the two parameter sets of a sequence header, and the bytes behind it. -/
def readParameterSet (bytes : List UInt8) : Except AvcError (Nat × List UInt8) :=
  match bytes with
  | [] => .error .hlsDecodeError
  | count :: bytes =>
    if count.toNat &&& 0x1f ≠ 1 then .error .hlsDecodeError
    else if bytes.length < 2 then .error .hlsDecodeError
    else .ok (ofBigEndian (bytes.take 2), bytes.drop 2)

def setSpsLength (length : Nat) (codec : SrsAvcAacCodec) : SrsAvcAacCodec :=
  { codec with sequenceParameterSetLength := length }

def setSps (set : List UInt8) (codec : SrsAvcAacCodec) : SrsAvcAacCodec :=
  { codec with sequenceParameterSetNALUnit := set }

def setPpsLength (length : Nat) (codec : SrsAvcAacCodec) : SrsAvcAacCodec :=
  { codec with pictureParameterSetLength := length }

def setPps (set : List UInt8) (codec : SrsAvcAacCodec) : SrsAvcAacCodec :=
  { codec with pictureParameterSetNALUnit := set }

/-- Takes one of the two sets into the codec. The length is kept even where the set itself is cut. -/
def demuxParameterSet (setLength : Nat → SrsAvcAacCodec → SrsAvcAacCodec)
    (setUnit : List UInt8 → SrsAvcAacCodec → SrsAvcAacCodec) (bytes : List UInt8) : Demux (List UInt8) :=
  match readParameterSet bytes with
  | .error e => throw e
  | .ok (length, left) => do
    modify (setLength length)
    if left.length < length then throw .hlsDecodeError
    else
      if 0 < length then modify (setUnit (left.take length)) else pure ()
      return left.drop length

/-- The size of the pictures, of the parameter set that is held. -/
def demuxSize : Demux Unit := do
  let codec ← get
  match avcDemuxSps (codec.sequenceParameterSetNALUnit.take codec.sequenceParameterSetLength) with
  | .error e => throw e
  | .ok none => return ()
  | .ok (some size) => modify fun codec => { codec with size }

def avcDemuxSpsPps (bytes : List UInt8) : Demux Unit := do
  modify fun codec => { codec with avcExtraData := bytes }
  if bytes.length < 6 then throw .hlsDecodeError
  else
    modify fun codec => { codec with nalUnitLength := (bytes.getD 4 0).toNat &&& 0x03 }
    if (bytes.getD 4 0).toNat &&& 0x03 = 2 then throw .hlsDecodeError
    else
      let left ← demuxParameterSet setSpsLength setSps (bytes.drop 5)
      let _ ← demuxParameterSet setPpsLength setPps left
      demuxSize

/-- The units of a tag, whose format is guessed until one has been read with lengths. -/
def avcDemuxNalus (bytes : List UInt8) (sample : SrsCodecSample) : Demux SrsCodecSample := do
  let codec ← get
  if codec.payloadFormat = .ibmf then avcDemuxIbmfFormat bytes sample
  else match avcDemuxAnnexbFormat bytes sample with
  | .ok sample =>
    modify fun codec => { codec with payloadFormat := .annexb }
    return sample
  | .error e =>
    if e ≠ .hlsAvcTryOthers then throw e
    else
      let sample ← avcDemuxIbmfFormat bytes sample
      modify fun codec => { codec with payloadFormat := .ibmf }
      return sample

def videoInfoFrame : Nat := 5

def videoAvcDemux (data : List UInt8) : Demux SrsCodecSample :=
  match data with
  | [] => return { isVideo := true }
  | first :: rest =>
    let codecId := first.toNat &&& 0x0f
    let sample : SrsCodecSample := { isVideo := true, frameType := (first.toNat >>> 4) &&& 0x0f }
    -- ignore info frame without error
    if sample.frameType = videoInfoFrame then return sample
    else if codecId ≠ codecVideoAVC then throw .hlsDecodeError
    else do
      modify fun codec => { codec with videoCodecId := codecId }
      if rest.length < 4 then throw .hlsDecodeError
      else
        let avcPacketType := rest.headD 0
        let sample := { sample with avcPacketType }
        let bytes := rest.drop 4
        if avcPacketType = videoTypeSequenceHeader then
          avcDemuxSpsPps bytes
          return sample
        else if avcPacketType = videoTypeNALU then
          -- ensure the sequence header demuxed
          if (← get).avcExtraData = [] then return sample
          else avcDemuxNalus bytes sample
        else return sample

def codecAudioMP3 : Nat := 2
def audioTypeSequenceHeader : UInt8 := 0
def audioTypeRawData : UInt8 := 1

def audioAacSequenceHeaderDemux (data : List UInt8) : Demux Unit :=
  if data.length < 2 then throw .hlsDecodeError
  else do
    let profileObjectType := (data.headD 0).toNat
    let samplingFrequencyIndex := (data.getD 1 0).toNat
    modify fun codec => { codec with
      aacChannels := (samplingFrequencyIndex >>> 3) &&& 0x0f
      aacSampleRate := ((profileObjectType <<< 1) &&& 0x0e) ||| ((samplingFrequencyIndex >>> 7) &&& 0x01)
      aacObject := (profileObjectType >>> 3) &&& 0x1f }
    if (profileObjectType >>> 3) &&& 0x1f = 0 then throw .hlsDecodeError else return ()

def audioAacDemux (data : List UInt8) : Demux SrsCodecSample :=
  match data with
  | [] => return { isVideo := false }
  | first :: rest => do
    let soundFormat := (first.toNat >>> 4) &&& 0x0f
    modify fun codec => { codec with audioCodecId := soundFormat }
    let sample : SrsCodecSample := { isVideo := false, acodec := soundFormat }
    if soundFormat = codecAudioMP3 then throw .hlsTryMp3
    else if soundFormat ≠ codecAudioAAC then throw .hlsDecodeError
    else match rest with
    | [] => throw .hlsDecodeError
    | aacPacketType :: bytes =>
      let sample := { sample with aacPacketType }
      if aacPacketType = audioTypeSequenceHeader then
        if bytes = [] then
          modify fun codec => { codec with aacExtraData := [] }
          return sample
        else
          modify fun codec => { codec with aacExtraData := bytes }
          audioAacSequenceHeaderDemux bytes
          return sample
      else if aacPacketType = audioTypeRawData then
        -- ensure the sequence header demuxed
        if (← get).aacExtraData = [] then return sample
        else match sample.addSampleUnit bytes bytes.length with
        | .error e => throw e
        | .ok sample => return sample
      else return sample

end SrsAvcAacCodec

end AdTerminal.Rtmp
