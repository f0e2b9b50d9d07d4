import AdTerminal.Rtmp.Packets

/-! The raw frames of encoders: NAL units behind a start code and AAC frames behind an ADTS header, which
the library writes as FLV tags. -/

namespace AdTerminal.Rtmp

open BigEndian Simulation

/-- What writing a raw frame fails with. -/
inductive RawError
  | noPrefixed
  | dropBeforeSpsPps
  | duplicatedSps
  | duplicatedPps
  | requiredAdts
  | adtsHeader
  | aacDataInvalid
  | socketWrite
  /-- an assertion that does not hold -/
  | assertion
  deriving DecidableEq, Repr

/-- A tag as it is given to `srs_rtmp_write_packet`. -/
structure FlvTag where
  type : UInt8
  timestamp : UInt32
  data : List UInt8
  deriving DecidableEq, Repr

namespace FlvTag

def call (tag : FlvTag) : SrsCall :=
  .write tag.type tag.timestamp tag.data

/-- What the other side reads of the tag. -/
def packet (tag : FlvTag) : RtmpPacket :=
  ⟨tag.type, tag.timestamp.toNat % 2 ^ 31, tag.data⟩

end FlvTag

/-- What the context keeps for raw frames, the tags written so far, and how many more the socket takes. -/
structure RawContext where
  h264Sps : List UInt8 := []
  h264Pps : List UInt8 := []
  h264SpsPpsSent : Bool := false
  h264SpsChanged : Bool := false
  h264PpsChanged : Bool := false
  aacSpecificConfig : List UInt8 := []
  written : List FlvTag := []
  writable : Nat
  deriving DecidableEq, Repr

abbrev Raw (α : Type) : Type := EStateM RawError RawContext α

/-- A tag of the three types is written as it is, and only its socket can refuse it. -/
def srsRtmpWritePacket (type : UInt8) (timestamp : UInt32) (data : List UInt8) : Raw Unit := fun context =>
  if context.writable = 0 then .error .socketWrite context
  else .ok () { context with
    writable := context.writable - 1, written := context.written ++ [⟨type, timestamp, data⟩] }

/-- The length of the start code, which may have zeros before it. -/
def srsAvcStartswithAnnexb : List UInt8 → Option Nat
  | b0 :: b1 :: b2 :: rest =>
    if b0 ≠ 0 ∨ b1 ≠ 0 then none
    else if b2 = 1 then some 3
    else (srsAvcStartswithAnnexb (b1 :: b2 :: rest)).map (· + 1)
  | _ => none

def naluTypeNonIDR : Nat := 1
def naluTypeIDR : Nat := 5
def naluTypeSEI : Nat := 6
def naluTypeSPS : Nat := 7
def naluTypePPS : Nat := 8
def naluTypeAccessUnitDelimiter : Nat := 9

/-- `frame[0] & 0x1f` -/
def nalUnitType (frame : List UInt8) : Nat :=
  (frame.headD 0).toNat &&& 0x1f

def videoFrameKey : Nat := 1
def videoFrameInter : Nat := 2
def videoTypeSequenceHeader : UInt8 := 0
def videoTypeNALU : UInt8 := 1
def codecVideoAVC : Nat := 7

namespace SrsRawH264Stream

/-- All behind the start code is one frame. -/
def annexbDemuxPri (frames : List UInt8) : Except RawError (List UInt8) :=
  match srsAvcStartswithAnnexb frames with
  | none => .error .noPrefixed
  | some startCode => .ok (frames.drop startCode)

/-- A parameter set too short for its level counts as none. -/
def spsDemux (frame : List UInt8) : List UInt8 :=
  if frame.length < 4 then [] else frame

def muxSequenceHeader (sps pps : List UInt8) : Raw (List UInt8) :=
  if sps.length < 4 then throw .assertion
  else return [0x01, sps.getD 1 0, 0x00, sps.getD 3 0, 0x03] ++ ([0x01] ++ (bigEndian 2 sps.length ++ (sps ++
    ([0x01] ++ (bigEndian 2 pps.length ++ pps)))))

def muxIpbFrame (frame : List UInt8) : List UInt8 :=
  bigEndian 4 frame.length ++ frame

def muxAvc2flv (video : List UInt8) (frameType : Nat) (avcPacketType : UInt8) (dts pts : UInt32) : List UInt8 :=
  [UInt8.ofNat (frameType * 16 + codecVideoAVC), avcPacketType] ++ (bigEndian 3 (pts - dts).toNat ++ video)

end SrsRawH264Stream

open SrsRawH264Stream

def srsWriteH264IpbFrame (frame : List UInt8) (dts pts : UInt32) : Raw Unit := do
  let context ← get
  -- when sps or pps not sent, ignore the packet
  if ¬ context.h264SpsPpsSent then
    throw .dropBeforeSpsPps
  else
    let frameType := if nalUnitType frame = naluTypeIDR then videoFrameKey else videoFrameInter
    srsRtmpWritePacket typeVideo dts (muxAvc2flv (muxIpbFrame frame) frameType videoTypeNALU dts pts)

def srsWriteH264SpsPps (dts pts : UInt32) : Raw Unit := do
  let context ← get
  -- send when sps or pps changed
  if ¬ context.h264SpsChanged ∧ ¬ context.h264PpsChanged then
    return ()
  else
    let sh ← muxSequenceHeader context.h264Sps context.h264Pps
    modify fun context => { context with h264SpsChanged := false, h264PpsChanged := false, h264SpsPpsSent := true }
    srsRtmpWritePacket typeVideo dts (muxAvc2flv sh videoFrameKey videoTypeSequenceHeader dts pts)

def srsWriteH264RawFrame (frame : List UInt8) (dts pts : UInt32) : Raw Unit := do
  let context ← get
  if nalUnitType frame = naluTypeSPS then
    let sps := spsDemux frame
    if context.h264Sps = sps then throw .duplicatedSps
    else modify fun context => { context with h264SpsChanged := true, h264Sps := sps }
  else if nalUnitType frame = naluTypePPS then
    if context.h264Pps = frame then throw .duplicatedPps
    else modify fun context => { context with h264PpsChanged := true, h264Pps := frame }
  -- ignore others
  else if nalUnitType frame ≠ naluTypeIDR ∧ nalUnitType frame ≠ naluTypeNonIDR ∧
      nalUnitType frame ≠ naluTypeAccessUnitDelimiter then
    return ()
  else
    srsWriteH264SpsPps dts pts
    srsWriteH264IpbFrame frame dts pts

/-- The loop over the frames ends after its first turn, which takes all that is left. -/
def srsH264WriteRawFrames (frames : List UInt8) (dts pts : UInt32) : Raw Unit :=
  if frames = [] then throw .assertion
  else match annexbDemuxPri frames with
  | .error e => throw e
  | .ok frame => if frame = [] then return () else srsWriteH264RawFrame frame dts pts

def codecAudioAAC : Nat := 10

def srsAacStartswithAdts (bytes : List UInt8) : Bool :=
  2 ≤ bytes.length && bytes.headD 0 == 0xff && (bytes.getD 1 0).toNat &&& 0xf0 == 0xf0

/-- The profile of an ADTS header as the object type of a sequence header, 0 where there is none. -/
def srsCodecAacTs2rtmp (profile : Nat) : Nat :=
  if profile = 0 then 1 else if profile = 1 then 2 else if profile = 2 then 3 else 0

/-- The fields that the writer reads; the sound fields are the caller's. -/
structure SrsRawAacStreamCodec where
  aacObject : Nat
  samplingFrequencyIndex : Nat
  channelConfiguration : Nat
  soundFormat : Nat
  soundRate : Nat
  soundSize : Nat
  soundType : Nat
  aacPacketType : UInt8
  deriving DecidableEq, Repr

/-- How the caller says the sound is. -/
structure Sound where
  format : Nat
  rate : Nat
  size : Nat
  type : Nat
  deriving DecidableEq, Repr

namespace SrsRawAacStream

/-- The first frame of the stream, the codec of its header, and what is left behind it. -/
def adtsDemux (sound : Sound) (bytes : List UInt8) :
    Except RawError (List UInt8 × SrsRawAacStreamCodec × List UInt8) :=
  if bytes.length < 7 then .error .adtsHeader
  else if ¬ srsAacStartswithAdts bytes then .error .requiredAdts
  else
    let protectionAbsent := (bytes.getD 1 0).toNat &&& 0x01
    let sfiv := ofBigEndian ((bytes.drop 2).take 2)
    let profile := (sfiv >>> 14) &&& 0x03
    let samplingFrequencyIndex := (sfiv >>> 10) &&& 0x0f
    let channelConfiguration := (sfiv >>> 6) &&& 0x07
    let abfv := ofBigEndian ((bytes.drop 4).take 3)
    let frameLength := ((sfiv <<< 11) &&& 0x1800) ||| ((abfv >>> 13) &&& 0x07ff)
    if protectionAbsent = 0 ∧ bytes.length < 9 then .error .adtsHeader
    else
      let headerSize := if protectionAbsent = 0 then 9 else 7
      -- `require` of a negative size
      if frameLength < headerSize then .error .assertion
      else
        let rawDataSize := frameLength - headerSize
        let left := bytes.drop headerSize
        if left.length < rawDataSize then .error .adtsHeader
        else
          .ok (left.take rawDataSize,
            { aacObject := srsCodecAacTs2rtmp profile, samplingFrequencyIndex, channelConfiguration
              soundFormat := sound.format, soundRate := sound.rate, soundSize := sound.size, soundType := sound.type
              aacPacketType := 0 },
            left.drop rawDataSize)

/-- The sampling frequency that the caller says counts more than that of the header. -/
def muxSequenceHeader (codec : SrsRawAacStreamCodec) : Except RawError (List UInt8) :=
  if codec.aacObject = 0 then .error .aacDataInvalid
  else
    let samplingFrequencyIndex :=
      if codec.soundRate = 1 then 0x0a else if codec.soundRate = 2 then 0x07 else if codec.soundRate = 3 then 0x04
      else codec.samplingFrequencyIndex
    if samplingFrequencyIndex = 0x0f then .error .aacDataInvalid
    else
      .ok [UInt8.ofNat (((codec.aacObject <<< 3) &&& 0xf8) ||| ((samplingFrequencyIndex >>> 1) &&& 0x07)),
        UInt8.ofNat (((samplingFrequencyIndex <<< 7) &&& 0x80) ||| ((codec.channelConfiguration <<< 3) &&& 0x78))]

def muxAac2flv (frame : List UInt8) (codec : SrsRawAacStreamCodec) : List UInt8 :=
  let audioHeader := (codec.soundType &&& 0x01) ||| ((codec.soundSize <<< 1) &&& 0x02) |||
    ((codec.soundRate <<< 2) &&& 0x0c) ||| ((codec.soundFormat <<< 4) &&& 0xf0)
  if codec.soundFormat = codecAudioAAC then UInt8.ofNat audioHeader :: codec.aacPacketType :: frame
  else UInt8.ofNat audioHeader :: frame

end SrsRawAacStream

def srsWriteAudioRawFrame (frame : List UInt8) (codec : SrsRawAacStreamCodec) (timestamp : UInt32) : Raw Unit :=
  srsRtmpWritePacket typeAudio timestamp (SrsRawAacStream.muxAac2flv frame codec)

def srsWriteAacAdtsFrame (codec : SrsRawAacStreamCodec) (frame : List UInt8) (timestamp : UInt32) : Raw Unit := do
  let context ← get
  -- send out aac sequence header if not sent
  if context.aacSpecificConfig = [] then
    match SrsRawAacStream.muxSequenceHeader codec with
    | .error e => throw e
    | .ok sh =>
      modify fun context => { context with aacSpecificConfig := sh }
      srsWriteAudioRawFrame sh { codec with aacPacketType := 0 } timestamp
      srsWriteAudioRawFrame frame { codec with aacPacketType := 1 } timestamp
  else srsWriteAudioRawFrame frame { codec with aacPacketType := 1 } timestamp

/-- The loop over the frames, of at most `fuel` turns. -/
def srsWriteAacAdtsFrames (sound : Sound) (timestamp : UInt32) : Nat → List UInt8 → Raw Unit
  | 0, _ => return ()
  | fuel + 1, frames =>
    if frames = [] then return ()
    else match SrsRawAacStream.adtsDemux sound frames with
    | .error e => throw e
    | .ok (frame, codec, left) => do
      srsWriteAacAdtsFrame codec frame timestamp
      srsWriteAacAdtsFrames sound timestamp fuel left

def srsAudioWriteRawFrame (sound : Sound) (frame : List UInt8) (timestamp : UInt32) : Raw Unit :=
  if sound.format = codecAudioAAC then
    if ¬ srsAacStartswithAdts frame then throw .requiredAdts
    else srsWriteAacAdtsFrames sound timestamp frame.length frame
  else
    srsWriteAudioRawFrame frame
      { aacObject := 0, samplingFrequencyIndex := 0, channelConfiguration := 0, soundFormat := sound.format
        soundRate := sound.rate, soundSize := sound.size, soundType := sound.type, aacPacketType := 0 } timestamp

end AdTerminal.Rtmp
