import AdTerminal.Live.Broadcast
import AdTerminal.Live.PushTurns
import AdTerminal.Rtmp.PacketRoundTrip
import Mathlib.Data.List.Basic

/-! A live stream from the encoders to the player: across the publisher's queue, its connections and the
bytes of RTMP. -/

namespace AdTerminal.Live

open Rtmp

/-- The publisher, with the frames that were queued since its queue was emptied for this connection. -/
structure Watched where
  push : AnyRtmpPush
  queued : List EncData := []

namespace Watched

def step (watched : Watched) (event : PushEvent) : Option Watched :=
  (watched.push.step event).map fun push => ⟨push,
    match event with
    | .connected => []
    | .queue => watched.queued ++ watched.push.pushing.take 1
    | _ => watched.queued⟩

/-- What was queued is what has been sent, in its order, and what is queued still. -/
structure InOrder (sound : Sound) (watched : Watched) : Prop where
  same : watched.push.sound = sound
  opening : watched.push.clearing = true → watched.push.rtmpStatus = .published ∧
    ∃ writable, watched.push.rtmp = some (freshContext writable)
  sent : watched.push.Up → ∃ writable sent context, watched.push.rtmp = some context ∧
    watched.queued = sent ++ watched.push.lstEncData ∧
    Transition.run (EncData.send sound) (freshContext writable) sent = some context

theorem step_some {watched watched' : Watched} {event : PushEvent} (taken : watched.step event = some watched') :
    watched.push.Turn event watched'.push ∧
      (event = .connected ∧ watched'.queued = [] ∨
        event = .queue ∧ watched'.queued = watched.queued ++ watched.push.pushing.take 1 ∨
        event ≠ .connected ∧ event ≠ .queue ∧ watched'.queued = watched.queued) := by
  obtain ⟨push, turned, rfl⟩ := Option.map_eq_some_iff.mp taken
  refine ⟨AnyRtmpPush.turn_of_step turned, ?_⟩
  cases event with
  | connected => exact .inl ⟨rfl, rfl⟩
  | queue => exact .inr (.inl ⟨rfl, rfl⟩)
  | _ => exact .inr (.inr ⟨nofun, nofun, rfl⟩)

end Watched

theorem callDisconnect_down (push : AnyRtmpPush) : push.callDisconnect.rtmpStatus = .init ∧
    push.callDisconnect.clearing = push.clearing ∧ push.callDisconnect.sound = push.sound := by
  unfold AnyRtmpPush.callDisconnect AnyRtmpPush.report
  dsimp only
  split <;> exact ⟨rfl, rfl, rfl⟩

/-- Each turn keeps the order. -/
theorem inOrder_step {sound : Sound} {watched watched' : Watched} {event : PushEvent}
    (ordered : watched.InOrder sound) (taken : watched.step event = some watched') : watched'.InOrder sound := by
  obtain ⟨turn, queued⟩ := Watched.step_some taken
  obtain ⟨push, list⟩ := watched
  obtain ⟨push', list'⟩ := watched'
  obtain ⟨same, opening, sent⟩ := ordered
  dsimp only at turn queued same opening sent
  cases turn with
  | handshaked init created =>
    refine ⟨same, fun clearing => ?_, fun up => nomatch up.1⟩
    exact absurd (init.symm.trans (opening clearing).1) nofun
  | connectedApp handshaked =>
    refine ⟨same, fun clearing => ?_, fun up => nomatch up.1⟩
    exact absurd (handshaked.symm.trans (opening clearing).1) nofun
  | lost connecting fails =>
    obtain ⟨init, clearing', sound'⟩ := callDisconnect_down push
    refine ⟨sound'.trans same, fun clearing => ?_, fun up => absurd (init.symm.trans up.1) nofun⟩
    have published := (opening (clearing'.symm.trans clearing)).1
    rcases connecting with ⟨other, -⟩ | other | other
    · exact absurd (published.symm.trans other) nofun
    · exact absurd (published.symm.trans other) nofun
    · exact absurd (published.symm.trans other) nofun
  | published connected writable => exact ⟨same, fun _ => ⟨rfl, writable, rfl⟩, fun up => nomatch up.2⟩
  | connected clearing =>
    obtain ⟨published, writable, open_context⟩ := opening clearing
    rcases queued with ⟨-, emptied⟩ | ⟨other, -⟩ | ⟨other, -⟩
    · exact ⟨same, fun clearing => Bool.noConfusion clearing, fun _ =>
        ⟨writable, [], freshContext writable, open_context, emptied, rfl⟩⟩
    · nomatch other
    · exact absurd rfl other
  | idle up empty now =>
    obtain ⟨-, -, sound', rtmpStatus, rtmp, lstEncData, -, clearing', -⟩ := push.statics_untouched now
    have unmoved : list' = list := by
      rcases queued with ⟨other, -⟩ | ⟨other, -⟩ | ⟨-, -, unmoved⟩
      · nomatch other
      · nomatch other
      · exact unmoved
    refine ⟨sound'.trans same, fun clearing => absurd (up.2.symm.trans (clearing'.symm.trans clearing)) nofun, fun _ => ?_⟩
    obtain ⟨writable, done, context, open_context, parts, sends⟩ := sent up
    exact ⟨writable, done, context, rtmp.trans open_context, by rw [unmoved, lstEncData, parts], sends⟩
  | @sent up context context' open_context encData rest front sends netBand now =>
    have untouched := AnyRtmpPush.statics_untouched now
      { push with lstEncData := rest, rtmp := some context', netBand }
    obtain ⟨-, -, sound', rtmpStatus, rtmp, lstEncData, -, clearing', -⟩ := untouched
    have unmoved : list' = list := by
      rcases queued with ⟨other, -⟩ | ⟨other, -⟩ | ⟨-, -, unmoved⟩
      · nomatch other
      · nomatch other
      · exact unmoved
    refine ⟨sound'.trans same, fun clearing => absurd (up.2.symm.trans (clearing'.symm.trans clearing)) nofun, fun _ => ?_⟩
    obtain ⟨writable, done, before, open_before, parts, sent_before⟩ := sent up
    cases open_context.symm.trans open_before
    refine ⟨writable, done ++ [encData], context', rtmp, ?_, ?_⟩
    · rw [unmoved, lstEncData, parts, front, List.append_assoc]
      rfl
    · rw [Transition.run_append, sent_before]
      change (EncData.send sound context encData).bind _ = _
      rw [← same, sends]
      rfl
  | @broken up encData rest front now =>
    obtain ⟨init, clearing', sound'⟩ := callDisconnect_down { push with lstEncData := rest }
    refine ⟨sound'.trans same, fun clearing => ?_, fun up => absurd (init.symm.trans up.1) nofun⟩
    exact absurd (up.2.symm.trans (clearing'.symm.trans clearing)) nofun
  | encoder needKeyframe onlyAudioMode pushing other =>
    have unmoved : list' = list := by
      rcases queued with ⟨connected, -⟩ | ⟨queue, -⟩ | ⟨-, -, unmoved⟩
      · exact absurd connected other.1
      · exact absurd queue other.2
      · exact unmoved
    subst unmoved
    exact ⟨same, opening, sent⟩
  | @queue encData pushing next =>
    have more : list' = list ++ [encData] := by
      rcases queued with ⟨other, -⟩ | ⟨-, more⟩ | ⟨-, other, -⟩
      · nomatch other
      · rw [more, next]
        rfl
      · exact absurd rfl other
    refine ⟨same, opening, fun up => ?_⟩
    obtain ⟨writable, done, context, open_context, parts, sends⟩ := sent up
    exact ⟨writable, done, context, open_context, by rw [more, parts, List.append_assoc], sends⟩

theorem inOrder_run {sound : Sound} {events : List PushEvent} {watched : Watched}
    (reached : Transition.run Watched.step ⟨{ sound }, []⟩ events = some watched) : watched.InOrder sound := by
  refine Transition.run_invariant (fun s e t ordered _ taken => inOrder_step ordered taken) ?_ Transition.Steps.any reached
  exact ⟨rfl, fun clearing => Bool.noConfusion clearing, fun up => nomatch up.1⟩

theorem packets_tag {tag : FlvTag} (carried : Carried tag) : tag.call.packets = [tag.packet] := by
  rw [FlvTag.call, SrsCall.packets, if_neg carried.nonempty, if_pos carried.type]
  rfl

theorem packets_tags {tags : List FlvTag} (carried : ∀ tag ∈ tags, Carried tag) :
    (tags.map FlvTag.call).flatMap SrsCall.packets = tags.map FlvTag.packet := by
  rw [List.flatMap_map]
  calc
    tags.flatMap (fun tag => tag.call.packets) = tags.flatMap fun tag => [tag.packet] :=
      List.flatMap_congr fun tag member => packets_tag (carried tag member)
    _ = tags.map FlvTag.packet := List.map_eq_flatMap.symm

/-- Whatever happens to its connections, and whenever the encoders queue their frames: of the frames that were queued
since a connection came up, all that are no longer queued have been sent, and a player that reads the bytes of the
connection, in whatever pieces, shows exactly these, in their order, as they are to be shown. -/
theorem player_shows_stream {sound : Sound} (aac : sound.format = codecAudioAAC) {streamId : Nat}
    (small : streamId < 2 ^ 32) {events : List PushEvent} {watched : Watched}
    (reached : Transition.run Watched.step ⟨{ sound }, []⟩ events = some watched) (up : watched.push.Up)
    {frames : List Encoded} (made : watched.queued = frames.map Encoded.data)
    (acceptable : Transition.Steps (Shown.step sound) Acceptable {} frames)
    (unmistaken : Transition.Steps (Shown.step sound) Unmistaken {} frames) :
    ∃ sent left context wire, frames = sent ++ left ∧ watched.push.lstEncData = left.map Encoded.data ∧
      watched.push.rtmp = some context ∧
      SrsCall.sendAll streamId protocolChunkSize (context.written.map FlvTag.call) = some wire ∧
      ∀ (pieces : List (List UInt8)) fuel reads, pieces.flatten = wire → wire.length < fuel →
        context.written.length < reads → ∃ packets pull,
          readPackets fuel reads { rtmp := { inBuffer := ({ pieces } : SrsFastBuffer) } } = (packets, some .socketRead) ∧
          Transition.run AnyRtmpPull.gotPacket {} packets = some pull ∧ pull.overread = false ∧
          pull.called = (sent.foldl (Shown.next sound) {}).called := by
  obtain ⟨writable, sentData, context, open_context, parts, sends⟩ := (inOrder_run reached).sent up
  rw [made] at parts
  obtain ⟨sent, left, rfl, rfl, leftData⟩ := List.map_eq_append_iff.mp parts
  have accepted := acceptable.append.1
  have told := unmistaken.append.1
  obtain ⟨tags, pull, written, carried, read, follows⟩ :=
    sends_shown aac (follows_fresh writable) sends accepted told
  have written : context.written = tags := written
  obtain ⟨wire, sendsAll, reading⟩ := calls_received streamId small (context.written.map FlvTag.call) (by
    intro call member
    obtain ⟨tag, inside, rfl⟩ := List.mem_map.mp member
    exact (carried tag (written ▸ inside)).small) (by
    intro call member
    obtain ⟨tag, -, rfl⟩ := List.mem_map.mp member
    trivial)
  refine ⟨sent, left, context, wire, rfl, leftData.symm, open_context, sendsAll,
    fun pieces fuel reads cut enough often => ?_⟩
  rw [written] at often reading
  rw [packets_tags carried, List.length_map] at reading
  obtain ⟨received, all, packets, plain⟩ := reading pieces fuel reads cut enough often
  obtain ⟨fuel, rfl⟩ := Nat.exists_eq_add_one_of_ne_zero (Nat.ne_of_gt (Nat.zero_lt_of_lt enough))
  exact ⟨tags.map FlvTag.packet, pull, by rw [readPackets_messages fuel reads all plain, packets], read, follows.inside,
    follows.called⟩

theorem profileLC_lt : 1 < 3 := by
  decide

theorem samplingFrequency44100_lt : 4 < 15 := by
  decide

theorem mono_lt : 1 < 8 := by
  decide

theorem twoBytes_short : ([7, 7] : List UInt8).length + 9 < 2 ^ 13 := by
  decide

/-- AAC-LC of one channel at 44100 Hz. -/
def lowComplexity : AdtsConfig :=
  ⟨⟨1, profileLC_lt⟩, ⟨4, samplingFrequency44100_lt⟩, ⟨1, mono_lt⟩⟩

/-- A key frame and a frame of sound. -/
def firstFrames : List Encoded :=
  [.h264 1 [0x67, 66, 0, 30] 40, .h264 1 [0x68, 0xce] 40, .h264 1 [0x65, 0x88, 1] 40,
    .aac [.plain lowComplexity [7, 7] twoBytes_short] 50]

/-- The thread connects, and has sent three of the four frames. -/
def firstTurns : List PushEvent :=
  [.handshake true, .connectApp true, .publishStream (some 8), .connected,
    .setH264Data [0, 0, 0, 1, 0x67, 66, 0, 30, 0, 0, 0, 1, 0x68, 0xce, 0, 0, 0, 1, 0x65, 0x88, 1] 40, .queue, .queue,
    .doSendData 100, .queue, .setAacData [0xff, 0xf9, 0x50, 0x40, 1, 0x3f, 0xfc, 7, 7] 50, .queue, .doSendData 110,
    .doSendData 120]

theorem player_shows_stream_firstFrames :
    ∃ watched, Transition.run Watched.step ⟨{ sound := ⟨10, 3, 1, 0⟩ }, []⟩ firstTurns = some watched ∧
      ∃ sent left context wire, firstFrames = sent ++ left ∧ watched.push.lstEncData = left.map Encoded.data ∧
        watched.push.rtmp = some context ∧
        SrsCall.sendAll 1 protocolChunkSize (context.written.map FlvTag.call) = some wire ∧
        ∀ (pieces : List (List UInt8)) fuel reads, pieces.flatten = wire → wire.length < fuel →
          context.written.length < reads → ∃ packets pull,
            readPackets fuel reads { rtmp := { inBuffer := ({ pieces } : SrsFastBuffer) } } =
              (packets, some .socketRead) ∧
            Transition.run AnyRtmpPull.gotPacket {} packets = some pull ∧ pull.overread = false ∧
            pull.called = (sent.foldl (Shown.next ⟨10, 3, 1, 0⟩) {}).called := by
  refine ⟨_, rfl, ?_⟩
  exact @player_shows_stream ⟨10, 3, 1, 0⟩ rfl 1 (by decide) firstTurns _ rfl ⟨rfl, rfl⟩ firstFrames (by decide +kernel)
    (by decide +kernel) (by decide +kernel)

end AdTerminal.Live
