import AdTerminal.Live.AnyRtmpPush
import AdTerminal.Live.AdtsFrames
import AdTerminal.Library.Transition

/-! What the library writes for the frames that the thread of `AnyRtmpPush` takes from the queue. -/

namespace AdTerminal.Live

open Rtmp BigEndian Simulation SrsAvcAacCodec

/-- Where a call leaves the connection: none, if it failed and the failure is not ignored. -/
def settle (ignores : RawError → Bool) : EStateM.Result RawError RawContext Unit → Option RawContext
  | .ok _ context => some context
  | .error e context => if ignores e then some context else none

def EncData.send (sound : Sound) (context : RawContext) (encData : EncData) : Option RawContext :=
  settle encData.ignores ((encData.write sound).run context)

/-- A frame as the encoders make it: a unit of H.264 behind a start code, or frames of AAC. -/
inductive Encoded
  | h264 (zeros : Nat) (nalu : List UInt8) (ts : UInt32)
  | aac (frames : List AdtsFrame) (ts : UInt32)

def Encoded.data : Encoded → EncData
  | h264 zeros nalu ts => .video (List.replicate zeros 0 ++ ([0, 0, 1] ++ nalu)) ts
  | aac frames ts => .audio (frames.flatMap AdtsFrame.bytes) ts

theorem srsRtmpWritePacket_run (type : UInt8) (timestamp : UInt32) (data : List UInt8) (context : RawContext) :
    (srsRtmpWritePacket type timestamp data).run context =
      if context.writable = 0 then EStateM.Result.error .socketWrite context
      else .ok () { context with
        writable := context.writable - 1, written := context.written ++ [⟨type, timestamp, data⟩] } :=
  rfl

/-- All behind the start code goes to the writer as one unit. -/
theorem srsH264WriteRawFrames_unit (zeros : Nat) (nalu : List UInt8) (dts pts : UInt32) :
    srsH264WriteRawFrames (List.replicate zeros 0 ++ ([0, 0, 1] ++ nalu)) dts pts =
      if nalu = [] then return () else srsWriteH264RawFrame nalu dts pts := by
  have nonempty : List.replicate zeros (0 : UInt8) ++ ([0, 0, 1] ++ nalu) ≠ [] :=
    List.append_ne_nil_of_right_ne_nil _ (List.cons_ne_nil _ _)
  rw [srsH264WriteRawFrames, if_neg nonempty, annexbDemuxPri_unit]

/-- What a unit changes of the context. -/
inductive Writes (nalu : List UInt8) (ts : UInt32) (context : RawContext) : RawContext → Prop
  | sps (type : nalUnitType nalu = naluTypeSPS) (other : context.h264Sps ≠ SrsRawH264Stream.spsDemux nalu) :
      Writes nalu ts context
        { context with h264SpsChanged := true, h264Sps := SrsRawH264Stream.spsDemux nalu }
  | pps (type : nalUnitType nalu = naluTypePPS) (other : context.h264Pps ≠ nalu) :
      Writes nalu ts context { context with h264PpsChanged := true, h264Pps := nalu }
  /-- a parameter set that is held already, or what is not sent at all -/
  | nothing (same : nalUnitType nalu = naluTypeSPS → context.h264Sps = SrsRawH264Stream.spsDemux nalu)
      (samePps : nalUnitType nalu = naluTypePPS → context.h264Pps = nalu) (notSent : ¬ IsSent nalu) :
      Writes nalu ts context context
  | dropped (sent : IsSent nalu) (unchanged : context.h264SpsChanged = false ∧ context.h264PpsChanged = false)
      (none_sent : context.h264SpsPpsSent = false) : Writes nalu ts context context
  | tag (sent : IsSent nalu) (unchanged : context.h264SpsChanged = false ∧ context.h264PpsChanged = false)
      (header_sent : context.h264SpsPpsSent = true) (writable : Nat) :
      Writes nalu ts context { context with writable, written := context.written ++ [naluTag nalu ts ts] }
  | tags (sent : IsSent nalu) (changed : context.h264SpsChanged = true ∨ context.h264PpsChanged = true)
      (long : 4 ≤ context.h264Sps.length) (writable : Nat) :
      Writes nalu ts context { context with
        h264SpsChanged := false, h264PpsChanged := false, h264SpsPpsSent := true, writable
        written := context.written ++ [headerTag context.h264Sps context.h264Pps ts ts, naluTag nalu ts ts] }

theorem isSent_types {nalu : List UInt8} (sent : IsSent nalu) :
    nalUnitType nalu ≠ naluTypeSPS ∧ nalUnitType nalu ≠ naluTypePPS ∧
      ¬ (nalUnitType nalu ≠ naluTypeIDR ∧ nalUnitType nalu ≠ naluTypeNonIDR ∧
        nalUnitType nalu ≠ naluTypeAccessUnitDelimiter) := by
  rcases sent with type | type | type <;> rw [type] <;> decide

/-- The frame behind its header. -/
theorem srsWriteH264IpbFrame_run (nalu : List UInt8) (ts : UInt32) (context : RawContext) :
    (srsWriteH264IpbFrame nalu ts ts).run context =
      if ¬ context.h264SpsPpsSent then .error .dropBeforeSpsPps context
      else (srsRtmpWritePacket typeVideo ts (naluTag nalu ts ts).data).run context := by
  unfold srsWriteH264IpbFrame
  rw [EStateM.run_bind, EStateM.run_get]
  dsimp only
  split <;> rfl

theorem srsWriteH264SpsPps_run (ts : UInt32) (context : RawContext) :
    (srsWriteH264SpsPps ts ts).run context =
      if context.h264SpsChanged = false ∧ context.h264PpsChanged = false then .ok () context
      else if context.h264Sps.length < 4 then .error .assertion context
      else (srsRtmpWritePacket typeVideo ts (headerTag context.h264Sps context.h264Pps ts ts).data).run
        { context with h264SpsChanged := false, h264PpsChanged := false, h264SpsPpsSent := true } := by
  unfold srsWriteH264SpsPps
  rw [EStateM.run_bind, EStateM.run_get]
  simp only [Bool.not_eq_true]
  by_cases unchanged : context.h264SpsChanged = false ∧ context.h264PpsChanged = false
  · rw [if_pos unchanged, if_pos unchanged]
    rfl
  · rw [if_neg unchanged, if_neg unchanged, SrsRawH264Stream.muxSequenceHeader]
    by_cases short : context.h264Sps.length < 4
    · rw [if_pos short, if_pos short]
      rfl
    · rw [if_neg short, if_neg short]
      rfl

/-- A frame that is sent, behind the parameter sets where these have changed. -/
theorem writes_sent {nalu : List UInt8} {ts : UInt32} {context context' : RawContext} (sent : IsSent nalu)
    (sends : settle (EncData.video nalu ts).ignores
      ((do srsWriteH264SpsPps ts ts; srsWriteH264IpbFrame nalu ts ts : Raw Unit).run context) = some context') :
    Writes nalu ts context context' := by
  rw [EStateM.run_bind, srsWriteH264SpsPps_run] at sends
  by_cases unchanged : context.h264SpsChanged = false ∧ context.h264PpsChanged = false
  · rw [if_pos unchanged] at sends
    dsimp only at sends
    rw [srsWriteH264IpbFrame_run] at sends
    by_cases header : context.h264SpsPpsSent = true
    · rw [if_neg (not_not.mpr header), srsRtmpWritePacket_run] at sends
      by_cases full : context.writable = 0
      · rw [if_pos full] at sends
        nomatch sends
      · rw [if_neg full] at sends
        cases sends
        exact .tag sent unchanged header _
    · rw [if_pos header] at sends
      cases sends
      exact .dropped sent unchanged (Bool.eq_false_iff.mpr header)
  · rw [if_neg unchanged] at sends
    by_cases short : context.h264Sps.length < 4
    · rw [if_pos short] at sends
      nomatch sends
    rw [if_neg short, srsRtmpWritePacket_run] at sends
    dsimp only at sends
    by_cases full : context.writable = 0
    · rw [if_pos full] at sends
      nomatch sends
    rw [if_neg full] at sends
    dsimp only at sends
    rw [srsWriteH264IpbFrame_run, if_neg (not_not.mpr rfl), srsRtmpWritePacket_run] at sends
    dsimp only at sends
    by_cases full' : context.writable - 1 = 0
    · rw [if_pos full'] at sends
      nomatch sends
    · rw [if_neg full'] at sends
      cases sends
      have changed : context.h264SpsChanged = true ∨ context.h264PpsChanged = true := by
        by_contra none_changed
        obtain ⟨sps, pps⟩ := not_or.mp none_changed
        exact unchanged ⟨Bool.eq_false_iff.mpr sps, Bool.eq_false_iff.mpr pps⟩
      have both := @Writes.tags nalu ts context sent changed (Nat.not_lt.mp short) (context.writable - 1 - 1)
      rw [List.append_assoc]
      exact both

/-- What a unit that is sent, or whose failure is ignored, changes of the context. -/
theorem send_h264 {sound : Sound} {zeros : Nat} {nalu : List UInt8} {ts : UInt32} {context context' : RawContext}
    (sends : (Encoded.h264 zeros nalu ts).data.send sound context = some context') :
    Writes nalu ts context context' := by
  have sends : settle (EncData.video nalu ts).ignores
      ((srsH264WriteRawFrames (List.replicate zeros 0 ++ ([0, 0, 1] ++ nalu)) ts ts).run context) = some context' := sends
  rw [srsH264WriteRawFrames_unit] at sends
  by_cases empty : nalu = []
  · rw [if_pos empty] at sends
    cases sends
    subst empty
    refine .nothing (fun type => absurd type (by decide)) (fun type => absurd type (by decide)) ?_
    unfold IsSent
    decide
  rw [if_neg empty, srsWriteH264RawFrame, EStateM.run_bind, EStateM.run_get] at sends
  dsimp only at sends
  by_cases sps : nalUnitType nalu = naluTypeSPS
  · have notPps : nalUnitType nalu ≠ naluTypePPS := by
      rw [sps]
      decide
    rw [if_pos sps] at sends
    by_cases same : context.h264Sps = SrsRawH264Stream.spsDemux nalu
    · rw [if_pos same] at sends
      cases sends
      exact .nothing (fun _ => same) (fun pps => absurd pps notPps) fun sent => (isSent_types sent).1 sps
    · rw [if_neg same] at sends
      cases sends
      exact .sps sps same
  rw [if_neg sps] at sends
  by_cases pps : nalUnitType nalu = naluTypePPS
  · rw [if_pos pps] at sends
    by_cases same : context.h264Pps = nalu
    · rw [if_pos same] at sends
      cases sends
      exact .nothing (fun sps' => absurd sps' sps) (fun _ => same) fun sent => (isSent_types sent).2.1 pps
    · rw [if_neg same] at sends
      cases sends
      exact .pps pps same
  rw [if_neg pps] at sends
  by_cases other : nalUnitType nalu ≠ naluTypeIDR ∧ nalUnitType nalu ≠ naluTypeNonIDR ∧
      nalUnitType nalu ≠ naluTypeAccessUnitDelimiter
  · rw [if_pos other] at sends
    cases sends
    exact .nothing (fun sps' => absurd sps' sps) (fun pps' => absurd pps' pps) fun sent => (isSent_types sent).2.2 other
  · rw [if_neg other] at sends
    have sent : IsSent nalu := by
      by_contra none_of_them
      obtain ⟨idr, rest⟩ := not_or.mp none_of_them
      exact other ⟨idr, not_or.mp rest⟩
    exact writes_sent sent sends

/-- What a frame of AAC changes of the context. -/
inductive WritesAac (sound : Sound) (ts : UInt32) (frame : AdtsFrame) (context : RawContext) : RawContext → Prop
  | first (none_sent : context.aacSpecificConfig = []) (writable : Nat) :
      WritesAac sound ts frame context { context with
        aacSpecificConfig := (frame.config.announced sound).specificConfig, writable
        written := context.written ++
          [aacTag sound frame.config audioTypeSequenceHeader (frame.config.announced sound).specificConfig ts,
            aacTag sound frame.config audioTypeRawData frame.raw ts] }
  | later (config_sent : context.aacSpecificConfig ≠ []) (writable : Nat) :
      WritesAac sound ts frame context { context with
        writable, written := context.written ++ [aacTag sound frame.config audioTypeRawData frame.raw ts] }

inductive WritesAacs (sound : Sound) (ts : UInt32) : List AdtsFrame → RawContext → RawContext → Prop
  | nil (context : RawContext) : WritesAacs sound ts [] context context
  | cons {frame : AdtsFrame} {frames : List AdtsFrame} {context context' context'' : RawContext}
      (first : WritesAac sound ts frame context context') (rest : WritesAacs sound ts frames context' context'') :
      WritesAacs sound ts (frame :: frames) context context''

theorem srsWriteAacAdtsFrame_ok {sound : Sound} {ts : UInt32} {frame : AdtsFrame} {context context' : RawContext}
    (writes : (srsWriteAacAdtsFrame (frame.config.codec sound) frame.raw ts).run context = .ok () context') :
    WritesAac sound ts frame context context' := by
  unfold srsWriteAacAdtsFrame srsWriteAudioRawFrame at writes
  rw [EStateM.run_bind, EStateM.run_get] at writes
  dsimp only at writes
  by_cases none_sent : context.aacSpecificConfig = []
  · rw [if_pos none_sent, muxSequenceHeader_codec] at writes
    simp only [EStateM.run_bind, EStateM.run_modify, srsRtmpWritePacket_run] at writes
    by_cases full : context.writable = 0
    · rw [if_pos full] at writes
      nomatch writes
    rw [if_neg full] at writes
    by_cases full' : context.writable - 1 = 0
    · simp only [if_pos full'] at writes
      nomatch writes
    simp only [if_neg full'] at writes
    cases writes
    have both := @WritesAac.first sound ts frame context none_sent (context.writable - 1 - 1)
    rw [List.append_assoc]
    exact both
  · rw [if_neg none_sent, srsRtmpWritePacket_run] at writes
    by_cases full : context.writable = 0
    · rw [if_pos full] at writes
      nomatch writes
    · rw [if_neg full] at writes
      cases writes
      exact .later none_sent _

theorem length_le_bytes (frames : List AdtsFrame) : frames.length ≤ (frames.flatMap AdtsFrame.bytes).length := by
  induction frames with
  | nil => exact Nat.zero_le _
  | cons frame frames ih =>
    have header := frame.length_check
    have size := frame.length_bytes
    rw [AdtsFrame.frameLength] at size
    rw [List.flatMap_cons, List.length_append, List.length_cons]
    omega

/-- The loop takes frame after frame off. -/
theorem srsWriteAacAdtsFrames_ok {sound : Sound} {ts : UInt32} {frames : List AdtsFrame} {fuel : Nat}
    {context context' : RawContext} (enough : frames.length ≤ fuel)
    (writes : (srsWriteAacAdtsFrames sound ts fuel (frames.flatMap AdtsFrame.bytes)).run context = .ok () context') :
    WritesAacs sound ts frames context context' := by
  induction frames generalizing fuel context with
  | nil =>
    have same : context = context' := by
      cases fuel with
      | zero =>
        cases writes
        rfl
      | succ fuel =>
        rw [List.flatMap_nil, srsWriteAacAdtsFrames, if_pos rfl] at writes
        cases writes
        rfl
    subst same
    exact .nil context
  | cons frame frames ih =>
    obtain ⟨fuel, rfl⟩ := Nat.exists_eq_add_one_of_ne_zero (Nat.ne_of_gt (Nat.zero_lt_of_lt enough))
    have size := frame.length_bytes
    have header := frame.length_check
    have nonempty : (frame :: frames).flatMap AdtsFrame.bytes ≠ [] := by
      intro none_left
      have zero := congrArg List.length none_left
      rw [AdtsFrame.frameLength] at size
      rw [List.flatMap_cons, List.length_append, List.length_nil] at zero
      omega
    rw [srsWriteAacAdtsFrames, if_neg nonempty, List.flatMap_cons, adtsDemux_frame] at writes
    dsimp only at writes
    rw [EStateM.run_bind] at writes
    cases first : (srsWriteAacAdtsFrame (frame.config.codec sound) frame.raw ts).run context with
    | error e context'' =>
      rw [first] at writes
      nomatch writes
    | ok a context'' =>
      rw [first] at writes
      exact .cons (srsWriteAacAdtsFrame_ok first) (ih (Nat.le_of_succ_le_succ enough) writes)

theorem send_aac {sound : Sound} (aac : sound.format = codecAudioAAC) {frames : List AdtsFrame} {ts : UInt32}
    {context context' : RawContext} (sends : (Encoded.aac frames ts).data.send sound context = some context') :
    WritesAacs sound ts frames context context' := by
  have sends : settle (fun _ => false) ((srsAudioWriteRawFrame sound (frames.flatMap AdtsFrame.bytes) ts).run context) =
      some context' := sends
  rw [srsAudioWriteRawFrame, if_pos aac] at sends
  by_cases starts : srsAacStartswithAdts (frames.flatMap AdtsFrame.bytes) = true
  · rw [if_neg (not_not.mpr starts)] at sends
    cases written : (srsWriteAacAdtsFrames sound ts (frames.flatMap AdtsFrame.bytes).length
        (frames.flatMap AdtsFrame.bytes)).run context with
    | error e context'' =>
      rw [written] at sends
      nomatch sends
    | ok a context'' =>
      rw [written] at sends
      cases sends
      exact srsWriteAacAdtsFrames_ok (length_le_bytes frames) written
  · rw [if_pos starts] at sends
    nomatch sends

end AdTerminal.Live
