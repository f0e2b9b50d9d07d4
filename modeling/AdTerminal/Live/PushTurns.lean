import AdTerminal.Live.Written

/-! What a turn of the publisher's thread can do, and a step of the encoders' thread beside it. -/

namespace AdTerminal.Live

open Rtmp BigEndian Simulation

namespace AnyRtmpPush

/-- The statistics touch nothing but themselves and what is called back. -/
structure Untouched (push push' : AnyRtmpPush) : Prop where
  needKeyframe : push'.needKeyframe = push.needKeyframe
  retrys : push'.retrys = push.retrys
  sound : push'.sound = push.sound
  rtmpStatus : push'.rtmpStatus = push.rtmpStatus
  rtmp : push'.rtmp = push.rtmp
  lstEncData : push'.lstEncData = push.lstEncData
  pushing : push'.pushing = push.pushing
  clearing : push'.clearing = push.clearing
  reports : push'.reports = push.reports ∨ ∃ delayMs netBand, push'.reports = push.reports ++ [.statusEvent delayMs netBand]

theorem statics_untouched (now : UInt32) (push : AnyRtmpPush) : Untouched push (push.statics now) := by
  unfold statics report
  split
  · exact ⟨rfl, rfl, rfl, rfl, rfl, rfl, rfl, rfl, .inr ⟨(delay push.lstEncData).toInt32, (push.netBand * 9).toInt32, rfl⟩⟩
  · exact ⟨rfl, rfl, rfl, rfl, rfl, rfl, rfl, rfl, .inl rfl⟩

/-- The thread tries to get a connection to where a stream can be written. -/
def Connecting (push : AnyRtmpPush) : Prop :=
  push.rtmpStatus = .init ∧ push.rtmp.isSome ∨ push.rtmpStatus = .handshaked ∨ push.rtmpStatus = .connected

def Up (push : AnyRtmpPush) : Prop :=
  push.rtmpStatus = .published ∧ push.clearing = false

/-- What an event makes of the state. -/
inductive Turn (push : AnyRtmpPush) : PushEvent → AnyRtmpPush → Prop
  | handshaked (init : push.rtmpStatus = .init) (created : push.rtmp.isSome) :
      Turn push (.handshake true) { push with rtmpStatus := .handshaked }
  | connectedApp (handshaked : push.rtmpStatus = .handshaked) :
      Turn push (.connectApp true) { push with rtmpStatus := .connected }
  | lost {event : PushEvent} (connecting : push.Connecting)
      (fails : event = .handshake false ∨ event = .connectApp false ∨ event = .publishStream none) :
      Turn push event push.callDisconnect
  | published (connected : push.rtmpStatus = .connected) (writable : Nat) :
      Turn push (.publishStream (some writable)) { push with
        rtmpStatus := .published, rtmp := some (freshContext writable), needKeyframe := true, retrys := 0
        clearing := true }
  | connected (clearing : push.clearing = true) :
      Turn push .connected ({ push with lstEncData := [], clearing := false }.report .connected)
  | idle (up : push.Up) (empty : push.lstEncData = []) (now : UInt32) : Turn push (.doSendData now) (push.statics now)
  | sent (up : push.Up) {context context' : RawContext} (open_context : push.rtmp = some context) {encData : EncData}
      {rest : List EncData} (queued : push.lstEncData = encData :: rest)
      (sends : encData.send push.sound context = some context') (netBand now : UInt32) :
      Turn push (.doSendData now) ({ push with lstEncData := rest, rtmp := some context', netBand }.statics now)
  | broken (up : push.Up) {encData : EncData} {rest : List EncData} (queued : push.lstEncData = encData :: rest)
      (now : UInt32) : Turn push (.doSendData now) { push with lstEncData := rest }.callDisconnect
  | encoder {event : PushEvent} (needKeyframe onlyAudioMode : Bool) (pushing : List EncData)
      (other : event ≠ .connected ∧ event ≠ .queue) :
      Turn push event { push with needKeyframe, onlyAudioMode, pushing }
  | queue {encData : EncData} {pushing : List EncData} (next : push.pushing = encData :: pushing) :
      Turn push .queue { push with lstEncData := push.lstEncData ++ [encData], pushing }

theorem turn_doSendData {push push' : AnyRtmpPush} (up : push.Up) {context : RawContext}
    (open_context : push.rtmp = some context) {now : UInt32} (taken : push.doSendData now context = some push') :
    Turn push (.doSendData now) push' := by
  cases queued : push.lstEncData with
  | nil =>
    rw [doSendData, queued] at taken
    cases taken
    exact .idle up queued now
  | cons encData rest =>
    rw [doSendData, queued] at taken
    dsimp only at taken
    cases written : (encData.write push.sound).run context with
    | ok a context' =>
      rw [written] at taken
      cases taken
      have sends : encData.send push.sound context = some context' := by
        rw [EncData.send, written]
        rfl
      exact .sent up open_context queued sends _ now
    | error e context' =>
      rw [written] at taken
      by_cases crash : e = .assertion
      · subst crash
        nomatch taken
      have other : (if encData.ignores e then
          some ({ push with
            lstEncData := rest, rtmp := some context', netBand := push.netBand + UInt32.ofNat encData.dataLen }.statics now)
          else some { push with lstEncData := rest }.callDisconnect) = some push' := by
        cases e with
        | assertion => exact absurd rfl crash
        | _ => exact taken
      by_cases ignored : encData.ignores e = true
      · rw [if_pos ignored] at other
        cases other
        have sends : encData.send push.sound context = some context' := by
          rw [EncData.send, written, settle, if_pos ignored]
        exact .sent up open_context queued sends _ now
      · rw [if_neg ignored] at other
        cases other
        exact .broken up queued now

theorem turn_of_step {push push' : AnyRtmpPush} {event : PushEvent} (taken : push.step event = some push') :
    Turn push event push' := by
  unfold step at taken
  cases event with
  | handshake ok =>
    dsimp only at taken
    split_ifs at taken with ready succeeds
    · cases taken
      subst succeeds
      exact .handshaked ready.1 ready.2
    · cases taken
      exact .lost (.inl ready) (.inl (congrArg PushEvent.handshake (Bool.eq_false_iff.mpr succeeds)))
  | connectApp ok =>
    dsimp only at taken
    split_ifs at taken with ready succeeds
    · cases taken
      subst succeeds
      exact .connectedApp ready
    · cases taken
      exact .lost (.inr (.inl ready)) (.inr (.inl (congrArg PushEvent.connectApp (Bool.eq_false_iff.mpr succeeds))))
  | publishStream writable =>
    dsimp only at taken
    split_ifs at taken with ready
    cases writable with
    | some writable =>
      cases taken
      exact .published ready writable
    | none =>
      cases taken
      exact .lost (.inr (.inr ready)) (.inr (.inr rfl))
  | connected =>
    dsimp only at taken
    split_ifs at taken with ready
    cases taken
    exact .connected ready
  | doSendData now =>
    dsimp only at taken
    split_ifs at taken with ready
    obtain ⟨context, open_context, sent⟩ := Option.bind_eq_some_iff.mp taken
    exact turn_doSendData ⟨ready.1, Bool.eq_false_iff.mpr ready.2⟩ open_context sent
  | setH264Data data ts =>
    dsimp only at taken
    split_ifs at taken with ready
    cases taken
    unfold setH264Data
    dsimp only
    split
    · exact .encoder _ push.onlyAudioMode push.pushing ⟨nofun, nofun⟩
    · split
      · exact .encoder _ push.onlyAudioMode _ ⟨nofun, nofun⟩
      · exact .encoder _ push.onlyAudioMode _ ⟨nofun, nofun⟩
  | setAacData data ts =>
    dsimp only at taken
    split_ifs at taken with ready
    cases taken
    unfold setAacData
    split
    · exact .encoder push.needKeyframe push.onlyAudioMode push.pushing ⟨nofun, nofun⟩
    · exact .encoder push.needKeyframe push.onlyAudioMode _ ⟨nofun, nofun⟩
  | queue =>
    dsimp only at taken
    cases next : push.pushing with
    | nil =>
      rw [next] at taken
      nomatch taken
    | cons encData pushing =>
      rw [next] at taken
      cases taken
      exact .queue next
  | enableOnlyAudioMode =>
    cases taken
    exact .encoder push.needKeyframe true push.pushing ⟨nofun, nofun⟩

end AnyRtmpPush

end AdTerminal.Live
