import AdTerminal.Live.PushTurns

/-! What the publisher's host is told of its connection, and when its encoders run. -/

namespace AdTerminal.Live

open Rtmp

inductive StreamEvent
  | ok
  | reconnecting (times : Nat)
  | closed
  | failed (code : Nat)
  | status (delayMs : Int32) (netBand : Int32)
  deriving DecidableEq, Repr

/-- `encoding` tells whether both encoders are started. -/
structure AnyRtmpStreamerImpl where
  rtmpConnected : Bool := false
  encoding : Bool := false
  called : List StreamEvent := []
  deriving DecidableEq, Repr

namespace AnyRtmpStreamerImpl

def call (event : StreamEvent) (streamer : AnyRtmpStreamerImpl) : AnyRtmpStreamerImpl :=
  { streamer with called := streamer.called ++ [event] }

/-- The callbacks of the publisher. -/
def onRtmp (streamer : AnyRtmpStreamerImpl) : PushReport → AnyRtmpStreamerImpl
  | .connected => { streamer with encoding := true }.call .ok
  | .reconnecting times => { streamer with encoding := false }.call (.reconnecting times)
  | .disconnect =>
    let streamer := { streamer with encoding := false }
    { streamer.call (if streamer.rtmpConnected then .closed else .failed 1) with rtmpConnected := false }
  | .statusEvent delayMs netBand => streamer.call (.status delayMs netBand)

end AnyRtmpStreamerImpl

/-- What the host may take its connection for: tried for so many times again, up, or given up. -/
inductive Link
  | trying (times : Nat)
  | up
  | ended
  deriving DecidableEq, Repr

namespace Link

/-- What the host can be told next. -/
def next : Link → StreamEvent → Option Link
  | trying _, .ok => some up
  | trying n, .reconnecting times => if times = n + 1 ∧ n < maxRetryTime then some (trying times) else none
  | trying n, .failed code => if n = maxRetryTime ∧ code = 1 then some ended else none
  | up, .reconnecting times => if times = 1 then some (trying times) else none
  | up, .status _ _ => some up
  | _, _ => none

end Link

/-- How the publisher is for its host's view of it. -/
inductive Seen (push : AnyRtmpPush) : Link → Prop
  | connecting (connecting : push.Connecting) (created : push.rtmp.isSome) (idle : push.clearing = false)
      (few : push.retrys ≤ maxRetryTime) : Seen push (.trying push.retrys)
  | opening (published : push.rtmpStatus = .published) (created : push.rtmp.isSome) (clearing : push.clearing = true)
      (fresh : push.retrys = 0) (n : Nat) : Seen push (.trying n)
  | up (up : push.Up) (created : push.rtmp.isSome) (fresh : push.retrys = 0) : Seen push .up
  | ended (init : push.rtmpStatus = .init) (gone : push.rtmp = none) (idle : push.clearing = false) : Seen push .ended

/-- The host's view after the same callbacks. -/
structure Knows (push : AnyRtmpPush) (streamer : AnyRtmpStreamerImpl) (link : Link) : Prop where
  same : streamer = push.reports.foldl AnyRtmpStreamerImpl.onRtmp {}
  told : Transition.run Link.next (.trying 0) streamer.called = some link
  never : streamer.rtmpConnected = false
  encoding : streamer.encoding = true ↔ link = .up
  seen : Seen push link

/-- A callback more. -/
theorem Knows.onRtmp {push push' : AnyRtmpPush} {streamer : AnyRtmpStreamerImpl} {link link' : Link}
    (knows : Knows push streamer link) {report : PushReport} (reports : push'.reports = push.reports ++ [report])
    (event : StreamEvent) (called : (streamer.onRtmp report).called = streamer.called ++ [event])
    (tells : link.next event = some link') (encoding : (streamer.onRtmp report).encoding = true ↔ link' = .up)
    (seen : Seen push' link') : Knows push' (streamer.onRtmp report) link' := by
  obtain ⟨same, told, never, -, -⟩ := knows
  refine ⟨?_, ?_, ?_, encoding, seen⟩
  · rw [reports, List.foldl_append, ← same]
    rfl
  · rw [called, Transition.run_append, told]
    change (link.next event).bind _ = _
    rw [tells]
    rfl
  · cases report with
    | disconnect => rfl
    | _ => exact never

theorem Knows.quiet {push push' : AnyRtmpPush} {streamer : AnyRtmpStreamerImpl} {link : Link}
    (knows : Knows push streamer link) (reports : push'.reports = push.reports) (seen : Seen push' link) :
    Knows push' streamer link :=
  ⟨by rw [knows.same, reports], knows.told, knows.never, knows.encoding, seen⟩

/-- A connection that is lost is tried again, or given up after the last time. -/
theorem Knows.callDisconnect {push : AnyRtmpPush} {streamer : AnyRtmpStreamerImpl} {link : Link}
    (knows : Knows push streamer link) (idle : push.clearing = false)
    (view : link = .trying push.retrys ∧ push.retrys ≤ maxRetryTime ∨ link = .up ∧ push.retrys = 0) :
    ∃ streamer link', Knows push.callDisconnect streamer link' := by
  by_cases again : push.retrys + 1 ≤ maxRetryTime
  · have lost : push.callDisconnect = { push with
        needKeyframe := true, rtmpStatus := .init, retrys := push.retrys + 1, rtmp := some (freshContext 0)
        reports := push.reports ++ [.reconnecting (push.retrys + 1)] } := by
      rw [AnyRtmpPush.callDisconnect]
      exact if_pos again
    refine ⟨streamer.onRtmp (.reconnecting (push.retrys + 1)), .trying (push.retrys + 1),
      knows.onRtmp (by rw [lost]) (.reconnecting (push.retrys + 1)) rfl ?_ ⟨nofun, nofun⟩ ?_⟩
    · rcases view with ⟨rfl, few⟩ | ⟨rfl, fresh⟩
      · exact if_pos ⟨rfl, again⟩
      · exact if_pos (by rw [fresh])
    · rw [lost]
      exact .connecting (.inl ⟨rfl, rfl⟩) rfl idle again
  · have lost : push.callDisconnect = { push with
        needKeyframe := true, rtmpStatus := .init, retrys := push.retrys + 1, rtmp := none
        reports := push.reports ++ [.disconnect] } := by
      rw [AnyRtmpPush.callDisconnect]
      exact if_neg again
    refine ⟨streamer.onRtmp .disconnect, .ended, knows.onRtmp (by rw [lost]) (.failed 1) ?_ ?_ ⟨nofun, nofun⟩ ?_⟩
    · change streamer.called ++ [if streamer.rtmpConnected = true then StreamEvent.closed else .failed 1] = _
      rw [knows.never]
      rfl
    · rcases view with ⟨rfl, few⟩ | ⟨rfl, fresh⟩
      · exact if_pos ⟨by omega, rfl⟩
      · exact absurd (by rw [fresh]; decide) again
    · rw [lost]
      exact .ended rfl rfl idle

theorem Seen.congr {push push' : AnyRtmpPush} {link : Link} (seen : Seen push link)
    (rtmpStatus : push'.rtmpStatus = push.rtmpStatus) (rtmp : push'.rtmp.isSome = push.rtmp.isSome)
    (clearing : push'.clearing = push.clearing) (retrys : push'.retrys = push.retrys) : Seen push' link := by
  cases seen with
  | connecting connecting created idle few =>
    rw [← retrys] at few ⊢
    refine .connecting ?_ (rtmp.trans created) (clearing.trans idle) few
    unfold AnyRtmpPush.Connecting
    rw [rtmpStatus, rtmp]
    exact connecting
  | opening published created opened fresh n =>
    exact .opening (rtmpStatus.trans published) (rtmp.trans created) (clearing.trans opened) (retrys.trans fresh) n
  | up up created fresh =>
    exact .up ⟨rtmpStatus.trans up.1, clearing.trans up.2⟩ (rtmp.trans created) (retrys.trans fresh)
  | ended init gone idle =>
    have none_left : push'.rtmp = none := by
      rw [← Option.isNone_iff_eq_none, ← Option.not_isSome, rtmp, gone]
      rfl
    exact .ended (rtmpStatus.trans init) none_left (clearing.trans idle)

theorem Seen.link_up {push : AnyRtmpPush} {link : Link} (seen : Seen push link) (up : push.Up) :
    link = .up ∧ push.retrys = 0 := by
  obtain ⟨published, idle⟩ := up
  cases seen with
  | connecting connecting =>
    rcases connecting with ⟨other, -⟩ | other | other
    · exact absurd (published.symm.trans other) nofun
    · exact absurd (published.symm.trans other) nofun
    · exact absurd (published.symm.trans other) nofun
  | opening _ _ clearing => exact absurd (idle.symm.trans clearing) nofun
  | up _ _ fresh => exact ⟨rfl, fresh⟩
  | ended init => exact absurd (published.symm.trans init) nofun

theorem Seen.link_trying {push : AnyRtmpPush} {link : Link} (seen : Seen push link) (connecting : push.Connecting) :
    link = .trying push.retrys ∧ push.retrys ≤ maxRetryTime ∧ push.clearing = false ∧ push.rtmp.isSome := by
  have notPublished : push.rtmpStatus ≠ .published := by
    rcases connecting with ⟨other, -⟩ | other | other <;> rw [other] <;> nofun
  cases seen with
  | connecting _ created idle few => exact ⟨rfl, few, idle, created⟩
  | opening published => exact absurd published notPublished
  | up up => exact absurd up.1 notPublished
  | ended init gone =>
    rcases connecting with ⟨-, created⟩ | other | other
    · rw [gone] at created
      nomatch created
    · exact absurd (init.symm.trans other) nofun
    · exact absurd (init.symm.trans other) nofun

/-- The statistics are told to a host whose connection is up. -/
theorem Knows.statics {push : AnyRtmpPush} {streamer : AnyRtmpStreamerImpl} (knows : Knows push streamer .up)
    (now : UInt32) : ∃ streamer', Knows (push.statics now) streamer' .up := by
  obtain ⟨-, retrys, -, rtmpStatus, rtmp, -, -, clearing, reports⟩ := push.statics_untouched now
  have seen : Seen (push.statics now) .up := knows.seen.congr rtmpStatus (by rw [rtmp]) clearing retrys
  rcases reports with same | ⟨delayMs, netBand, more⟩
  · exact ⟨streamer, knows.quiet same seen⟩
  · exact ⟨_, knows.onRtmp more (.status delayMs netBand) rfl rfl knows.encoding seen⟩

/-- Whatever turn is taken, the host's view stays true. -/
theorem knows_turn {push push' : AnyRtmpPush} {event : PushEvent} (turn : push.Turn event push')
    {streamer : AnyRtmpStreamerImpl} {link : Link} (knows : Knows push streamer link) :
    ∃ streamer' link', Knows push' streamer' link' := by
  cases turn with
  | handshaked init created =>
    obtain ⟨rfl, few, idle, -⟩ := knows.seen.link_trying (.inl ⟨init, created⟩)
    have seen : Seen { push with rtmpStatus := .handshaked } (.trying push.retrys) :=
      .connecting (.inr (.inl rfl)) created idle few
    exact ⟨streamer, _, knows.quiet rfl seen⟩
  | connectedApp handshaked =>
    obtain ⟨rfl, few, idle, created⟩ := knows.seen.link_trying (.inr (.inl handshaked))
    have seen : Seen { push with rtmpStatus := .connected } (.trying push.retrys) :=
      .connecting (.inr (.inr rfl)) created idle few
    exact ⟨streamer, _, knows.quiet rfl seen⟩
  | lost connecting fails =>
    obtain ⟨same, few, idle, -⟩ := knows.seen.link_trying connecting
    exact knows.callDisconnect idle (.inl ⟨same, few⟩)
  | published connected writable =>
    obtain ⟨rfl, few, idle, -⟩ := knows.seen.link_trying (.inr (.inr connected))
    exact ⟨streamer, _, knows.quiet rfl (.opening rfl rfl rfl rfl _)⟩
  | connected clearing =>
    have seen := knows.seen
    obtain ⟨n, rfl, published, created, fresh⟩ : ∃ n, link = .trying n ∧ push.rtmpStatus = .published ∧
        push.rtmp.isSome ∧ push.retrys = 0 := by
      cases seen with
      | connecting _ _ idle => exact absurd (clearing.symm.trans idle) nofun
      | opening published created _ fresh n => exact ⟨n, rfl, published, created, fresh⟩
      | up up => exact absurd (clearing.symm.trans up.2) nofun
      | ended _ _ idle => exact absurd (clearing.symm.trans idle) nofun
    exact ⟨_, .up, knows.onRtmp rfl .ok rfl rfl ⟨fun _ => rfl, fun _ => rfl⟩
      (.up ⟨published, rfl⟩ created fresh)⟩
  | idle up empty now =>
    obtain ⟨rfl, -⟩ := knows.seen.link_up up
    obtain ⟨streamer', after⟩ := knows.statics now
    exact ⟨streamer', .up, after⟩
  | @sent up context context' open_context encData rest queued sends netBand now =>
    obtain ⟨rfl, -⟩ := knows.seen.link_up up
    have seen : Seen { push with lstEncData := rest, rtmp := some context', netBand } .up :=
      knows.seen.congr rfl (by rw [open_context]; rfl) rfl rfl
    have quiet : Knows { push with lstEncData := rest, rtmp := some context', netBand } streamer .up :=
      knows.quiet rfl seen
    obtain ⟨streamer', after⟩ := quiet.statics now
    exact ⟨streamer', .up, after⟩
  | @broken up encData rest queued now =>
    obtain ⟨rfl, fresh⟩ := knows.seen.link_up up
    have quiet : Knows { push with lstEncData := rest } streamer .up :=
      knows.quiet rfl (knows.seen.congr rfl rfl rfl rfl)
    exact quiet.callDisconnect up.2 (.inr ⟨rfl, fresh⟩)
  | encoder needKeyframe onlyAudioMode pushing other =>
    exact ⟨streamer, link, knows.quiet rfl (knows.seen.congr rfl rfl rfl rfl)⟩
  | queue next => exact ⟨streamer, link, knows.quiet rfl (knows.seen.congr rfl rfl rfl rfl)⟩

/-- Whatever happens to the connection and whenever the encoders queue their frames, the host is told of a connection
that is up, of one that is tried again for the first, the second and the third time, and at last of one that failed,
and of nothing behind it; never that it was closed. The encoders run exactly while the connection is up. -/
theorem host_told (sound : Sound) {events : List PushEvent} {push : AnyRtmpPush}
    (reached : Transition.run AnyRtmpPush.step { sound } events = some push) :
    let streamer := push.reports.foldl AnyRtmpStreamerImpl.onRtmp {}
    ∃ link, Transition.run Link.next (.trying 0) streamer.called = some link ∧
      (streamer.encoding = true ↔ link = .up) ∧ (link = .up ↔ push.Up) ∧ (link = .ended ↔ push.rtmp = none) := by
  have kept : ∀ s e t, (∃ streamer link, Knows s streamer link) → True → AnyRtmpPush.step s e = some t →
      ∃ streamer link, Knows t streamer link := by
    rintro s e t ⟨streamer, link, knows⟩ - taken
    exact knows_turn (AnyRtmpPush.turn_of_step taken) knows
  have seen : Seen { sound } (.trying 0) := .connecting (.inl ⟨rfl, rfl⟩) rfl rfl (Nat.zero_le _)
  have start : Knows { sound } {} (.trying 0) := ⟨rfl, rfl, rfl, ⟨nofun, nofun⟩, seen⟩
  obtain ⟨streamer, link, knows⟩ := Transition.run_invariant kept ⟨_, _, start⟩ Transition.Steps.any reached
  rw [← knows.same]
  refine ⟨link, knows.told, knows.encoding, ⟨fun up => ?_, fun up => (knows.seen.link_up up).1⟩, ?_⟩
  · have seen := knows.seen
    rw [up] at seen
    cases seen with
    | up up => exact up
  · have seen := knows.seen
    constructor
    · rintro rfl
      cases seen with
      | ended _ gone => exact gone
    · intro gone
      cases seen with
      | ended => rfl
      | connecting _ created => exact absurd created (by rw [gone]; nofun)
      | opening _ created => exact absurd created (by rw [gone]; nofun)
      | up _ created => exact absurd created (by rw [gone]; nofun)

theorem host_told_unreachable :
    ∃ push, Transition.run AnyRtmpPush.step { sound := ⟨10, 3, 1, 0⟩ }
        [.handshake true, .connectApp false, .handshake false, .handshake false, .handshake false] = some push ∧
      (push.reports.foldl AnyRtmpStreamerImpl.onRtmp {}).called =
        [.reconnecting 1, .reconnecting 2, .reconnecting 3, .failed 1] ∧
      ∃ link, Transition.run Link.next (.trying 0) (push.reports.foldl AnyRtmpStreamerImpl.onRtmp {}).called = some link ∧
        ((push.reports.foldl AnyRtmpStreamerImpl.onRtmp {}).encoding = true ↔ link = .up) ∧ (link = .up ↔ push.Up) ∧
        (link = .ended ↔ push.rtmp = none) :=
  ⟨_, rfl, rfl, @host_told ⟨10, 3, 1, 0⟩
    [.handshake true, .connectApp false, .handshake false, .handshake false, .handshake false] _ rfl⟩

end AdTerminal.Live
