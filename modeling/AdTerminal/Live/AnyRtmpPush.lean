import AdTerminal.Live.AnyRtmpPull

/-! The publisher's end of a live stream: the thread of `AnyRtmpPush`, which connects and writes what is
queued, and the encoders, which queue their frames from another thread. -/

namespace AdTerminal.Live

open Rtmp BigEndian

inductive EncData
  | video (data : List UInt8) (dts : UInt32)
  | audio (data : List UInt8) (dts : UInt32)
  deriving DecidableEq, Repr

namespace EncData

def dataLen : EncData → Nat
  | video data _ => data.length
  | audio data _ => data.length

def dts : EncData → UInt32
  | video _ dts => dts
  | audio _ dts => dts

def write (sound : Sound) : EncData → Raw Unit
  | video data dts => srsH264WriteRawFrames data dts dts
  | audio data dts => srsAudioWriteRawFrame sound data dts

/-- The failures that are not taken for one of the connection. -/
def ignores : EncData → RawError → Bool
  | video _ _, e => e = .dropBeforeSpsPps || e = .duplicatedSps || e = .duplicatedPps
  | audio _ _, _ => false

end EncData

inductive RtmpStatus
  | init
  | handshaked
  | connected
  | published
  deriving DecidableEq, Repr

/-- What the thread calls back. -/
inductive PushReport
  | connected
  | reconnecting (times : Nat)
  | disconnect
  | statusEvent (delayMs : Int32) (netBand : Int32)
  deriving DecidableEq, Repr

def maxRetryTime : Nat := 3

/-- A context of the library that nothing is written with yet. -/
def freshContext (writable : Nat) : RawContext :=
  { writable }

/-- `pushing` holds the frames that the encoder's thread has taken apart and not queued yet; `clearing` tells
that `CallConnect` has not emptied the queue yet. -/
structure AnyRtmpPush where
  needKeyframe : Bool := true
  onlyAudioMode : Bool := false
  retrys : Nat := 0
  statTime : UInt32 := 0
  netBand : UInt32 := 0
  sound : Sound
  rtmpStatus : RtmpStatus := .init
  rtmp : Option RawContext := some (freshContext 0)
  lstEncData : List EncData := []
  pushing : List EncData := []
  clearing : Bool := false
  reports : List PushReport := []
  deriving DecidableEq, Repr

/-- How the sound is said to be; other parameters fail an assertion. -/
def setAudioParameter (samplerate pcmbitsize channel : Nat) : Option Sound := do
  let rate ← if samplerate = 44100 then some 3 else if samplerate = 22050 then some 2
    else if samplerate = 11025 then some 1 else none
  let size ← if pcmbitsize = 8 then some 0 else if pcmbitsize = 16 then some 1 else none
  let type ← if channel = 1 then some 0 else if channel = 2 then some 1 else none
  return { format := codecAudioAAC, rate, size, type }

/-- The units of a key frame, each with its start code: its two parameter sets, and all from the third unit on. -/
def keyframeUnits (data : List UInt8) : List (List UInt8) :=
  let found := keyframe data
  let third := match found.third with
    | some (i, _) => data.drop i
    | none => []
  [found.first data, found.second data, third]

inductive PushEvent
  | handshake (ok : Bool)
  | connectApp (ok : Bool)
  /-- the stream is published, and this many tags can be written -/
  | publishStream (writable : Option Nat)
  /-- the rest of `CallConnect` -/
  | connected
  | doSendData (now : UInt32)
  | setH264Data (data : List UInt8) (ts : UInt32)
  | setAacData (data : List UInt8) (ts : UInt32)
  /-- the encoder's thread queues one more frame -/
  | queue
  | enableOnlyAudioMode
  deriving DecidableEq, Repr

namespace AnyRtmpPush

def report (report : PushReport) (push : AnyRtmpPush) : AnyRtmpPush :=
  { push with reports := push.reports ++ [report] }

def callDisconnect (push : AnyRtmpPush) : AnyRtmpPush :=
  let push := { push with needKeyframe := true, rtmpStatus := .init, retrys := push.retrys + 1 }
  if push.retrys ≤ maxRetryTime then
    { push with rtmp := some (freshContext 0) }.report (.reconnecting push.retrys)
  else { push with rtmp := none }.report .disconnect

/-- How far the last frame that is queued is from the first one. -/
def delay (queued : List EncData) : UInt32 :=
  match queued.getLast?, queued.head? with
  | some back, some front => back.dts - front.dts
  | _, _ => 0

def statics (now : UInt32) (push : AnyRtmpPush) : AnyRtmpPush :=
  if push.statTime ≤ now then
    { push with statTime := now + 1000, netBand := 0 }.report
      (.statusEvent (delay push.lstEncData).toInt32 (push.netBand * 9).toInt32)
  else push

/-- An assertion of the library that fails ends the process. -/
def doSendData (now : UInt32) (context : RawContext) (push : AnyRtmpPush) : Option AnyRtmpPush :=
  match push.lstEncData with
  | [] => some (push.statics now)
  | encData :: rest =>
    let push := { push with lstEncData := rest }
    match (encData.write push.sound).run context with
    | .ok _ context =>
      some ({ push with rtmp := some context, netBand := push.netBand + UInt32.ofNat encData.dataLen }.statics now)
    | .error .assertion _ => none
    | .error e context =>
      if encData.ignores e then
        some ({ push with rtmp := some context, netBand := push.netBand + UInt32.ofNat encData.dataLen }.statics now)
      else some push.callDisconnect

def setH264Data (data : List UInt8) (ts : UInt32) (push : AnyRtmpPush) : AnyRtmpPush :=
  let key : Bool := nalUnitType (data.drop 4) = naluTypeSPS
  let push := { push with needKeyframe := push.needKeyframe && !key }
  if push.needKeyframe then push
  else if key then { push with pushing := (keyframeUnits data).map (.video · ts) }
  else { push with pushing := [.video data ts] }

def setAacData (data : List UInt8) (ts : UInt32) (push : AnyRtmpPush) : AnyRtmpPush :=
  if push.needKeyframe ∧ ¬ push.onlyAudioMode then push
  else { push with pushing := [.audio data ts] }

/-- A turn of the thread, or a step of another one. There is no step that cannot be. -/
def step (push : AnyRtmpPush) : PushEvent → Option AnyRtmpPush
  | .handshake ok =>
    if push.rtmpStatus = .init ∧ push.rtmp.isSome then
      some (if ok then { push with rtmpStatus := .handshaked } else push.callDisconnect)
    else none
  | .connectApp ok =>
    if push.rtmpStatus = .handshaked then
      some (if ok then { push with rtmpStatus := .connected } else push.callDisconnect)
    else none
  | .publishStream writable =>
    if push.rtmpStatus = .connected then
      match writable with
      | some writable => some { push with
          rtmpStatus := .published, rtmp := some (freshContext writable), needKeyframe := true, retrys := 0
          clearing := true }
      | none => some push.callDisconnect
    else none
  | .connected =>
    if push.clearing then some ({ push with lstEncData := [], clearing := false }.report .connected) else none
  | .doSendData now =>
    if push.rtmpStatus = .published ∧ ¬ push.clearing then push.rtmp.bind fun context => push.doSendData now context
    else none
  | .setH264Data data ts => if push.pushing = [] then some (push.setH264Data data ts) else none
  | .setAacData data ts => if push.pushing = [] then some (push.setAacData data ts) else none
  | .queue =>
    match push.pushing with
    | [] => none
    | encData :: pushing => some { push with lstEncData := push.lstEncData ++ [encData], pushing }
  | .enableOnlyAudioMode => some { push with onlyAudioMode := true }

end AnyRtmpPush

end AdTerminal.Live
