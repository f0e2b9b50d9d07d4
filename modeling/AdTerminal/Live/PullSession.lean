import AdTerminal.Live.AnyRtmpPull
import AdTerminal.Live.AnyRtmpPush

/-! A player from its first attempt to connect: what its host is told, and what it is called back. -/

namespace AdTerminal.Live

open Rtmp

inductive PlyStatus
  | init
  | handshaked
  | connected
  | played
  deriving DecidableEq, Repr

inductive PullReport
  | connected
  | failed
  | disconnect
  deriving DecidableEq, Repr

inductive PlayerEvent
  | ok
  | close (errcode : Int)
  deriving DecidableEq, Repr

/-- The callbacks of the puller, each as what the host is called back with; `StopPlay` is the first of two calls. -/
def AnyRtmplayerImpl.onRtmpull : PullReport → List PlayerEvent
  | .connected => [.ok]
  | .failed => [.close 0, .close (-1)]
  | .disconnect => [.close 0, .close (-2)]

/-- `created` tells whether there is a connection, up or to be made. -/
structure PullSession where
  plyStatus : PlyStatus := .init
  connected : Bool := false
  retryCt : Nat := 0
  created : Bool := true
  pull : AnyRtmpPull := {}
  called : List PlayerEvent := []

/-- A turn of the thread that finds a connection. -/
inductive PullTurn
  | handshake (ok : Bool)
  | connectApp (ok : Bool)
  | playStream (ok : Bool)
  /-- the packet that `srs_rtmp_read_packet` returns, or its error -/
  | doReadData (packet : Option RtmpPacket)

namespace PullTurn

def fails : PullTurn → Bool
  | .handshake ok | .connectApp ok | .playStream ok => !ok
  | .doReadData _ => false

def packet? : PullTurn → Option RtmpPacket
  | .doReadData packet => packet
  | _ => none

end PullTurn

namespace PullSession

def report (report : PullReport) (session : PullSession) : PullSession :=
  { session with called := session.called ++ AnyRtmplayerImpl.onRtmpull report }

def callConnect (session : PullSession) : PullSession :=
  { session with retryCt := 0, connected := true }.report .connected

def callDisconnect (session : PullSession) : PullSession :=
  let session := { session with plyStatus := .init, retryCt := session.retryCt + 1 }
  if session.retryCt ≤ maxRetryTime then { session with created := true }
  else { session with created := false }.report (if session.connected then .disconnect else .failed)

/-- A packet that cannot be read is no packet: its error is dropped. An assertion of the library that fails ends the
process. -/
def doReadData (session : PullSession) : Option RtmpPacket → Option PullSession
  | none => some session
  | some packet => (session.pull.gotPacket packet).map fun pull => { session with pull }

/-- There is no turn that is not in the order of the states. -/
def step (session : PullSession) (turn : PullTurn) : Option PullSession :=
  if session.created then
    match session.plyStatus, turn with
    | .init, .handshake ok =>
      some (if ok then { session with plyStatus := .handshaked } else session.callDisconnect)
    | .handshaked, .connectApp ok =>
      some (if ok then { session with plyStatus := .connected } else session.callDisconnect)
    | .connected, .playStream ok =>
      some (if ok then { session with plyStatus := .played }.callConnect else session.callDisconnect)
    | .played, .doReadData packet => session.doReadData packet
    | _, _ => none
  else none

/-- No attempt has succeeded yet, and so many have failed. -/
structure Connecting (failures : Nat) (session : PullSession) : Prop where
  waiting : session.plyStatus ≠ .played
  created : session.created = true
  counted : session.retryCt = failures
  few : failures ≤ maxRetryTime
  fresh : session.connected = false
  unshown : session.pull = {}
  untold : session.called = []

/-- What a session has come to after so many failed attempts, with what it has read. -/
inductive CameTo (failures : Nat) (packets : List RtmpPacket) (session : PullSession) : Prop
  | connecting (connecting : session.Connecting failures) (unread : packets = [])
  | playing (played : session.plyStatus = .played) (created : session.created = true) (few : failures ≤ maxRetryTime)
      (shown : Transition.run AnyRtmpPull.gotPacket {} packets = some session.pull) (told : session.called = [.ok])
  | failed (gone : session.created = false) (all : failures = maxRetryTime + 1) (unread : packets = [])
      (unshown : session.pull = {}) (told : session.called = [.close 0, .close (-1)])

theorem Connecting.callDisconnect {failures : Nat} {session : PullSession} (connecting : session.Connecting failures) :
    session.callDisconnect.CameTo (failures + 1) [] := by
  have counted := connecting.counted
  unfold PullSession.callDisconnect
  dsimp only
  by_cases again : session.retryCt + 1 ≤ maxRetryTime
  · rw [if_pos again]
    refine .connecting ⟨PlyStatus.noConfusion, rfl, ?_, ?_, connecting.fresh, connecting.unshown, connecting.untold⟩ rfl
    · exact congrArg (· + 1) counted
    · rwa [counted] at again
  · rw [if_neg again, connecting.fresh]
    refine .failed rfl ?_ rfl connecting.unshown ?_
    · have few := connecting.few
      omega
    · exact congrArg (· ++ [PlayerEvent.close 0, .close (-1)]) connecting.untold

/-- An attempt goes on, or fails. -/
theorem Connecting.attempt {failures : Nat} {session : PullSession} (connecting : session.Connecting failures)
    (next : PlyStatus) (waiting : next ≠ .played) (ok : Bool) :
    (if ok then { session with plyStatus := next } else session.callDisconnect).CameTo
      (failures + if !ok then 1 else 0) [] := by
  cases ok with
  | true => exact .connecting { connecting with waiting } rfl
  | false => exact connecting.callDisconnect

theorem Connecting.play {failures : Nat} {session : PullSession} (connecting : session.Connecting failures) (ok : Bool) :
    (if ok then { session with plyStatus := .played }.callConnect else session.callDisconnect).CameTo
      (failures + if !ok then 1 else 0) [] := by
  cases ok with
  | true =>
    refine .playing rfl connecting.created connecting.few ?_ ?_
    · exact congrArg some connecting.unshown.symm
    · exact congrArg (· ++ [PlayerEvent.ok]) connecting.untold
  | false => exact connecting.callDisconnect

/-- What a turn adds to what the session has come to. -/
theorem cameTo_step {failures : Nat} {packets : List RtmpPacket} {session session' : PullSession} {turn : PullTurn}
    (came : session.CameTo failures packets) (taken : session.step turn = some session') :
    session'.CameTo (failures + if turn.fails then 1 else 0) (packets ++ turn.packet?.toList) := by
  cases came with
  | connecting connecting unread =>
    obtain rfl := unread
    unfold step at taken
    rw [if_pos connecting.created] at taken
    cases status : session.plyStatus with
    | init =>
      rw [status] at taken
      cases turn with
      | handshake ok =>
        cases taken
        exact connecting.attempt .handshaked (by decide) ok
      | connectApp ok | playStream ok | doReadData packet => cases taken
    | handshaked =>
      rw [status] at taken
      cases turn with
      | connectApp ok =>
        cases taken
        exact connecting.attempt .connected (by decide) ok
      | handshake ok | playStream ok | doReadData packet => cases taken
    | connected =>
      rw [status] at taken
      cases turn with
      | playStream ok =>
        cases taken
        exact connecting.play ok
      | handshake ok | connectApp ok | doReadData packet => cases taken
    | played => exact absurd status connecting.waiting
  | playing played created few shown told =>
    unfold step at taken
    rw [if_pos created, played] at taken
    cases turn with
    | doReadData packet =>
      cases packet with
      | none =>
        cases taken
        rw [PullTurn.packet?, Option.toList_none, List.append_nil]
        exact .playing played created few shown told
      | some packet =>
        obtain ⟨pull, read, rfl⟩ := Option.map_eq_some_iff.mp taken
        refine .playing played created few ?_ told
        rw [Transition.run_append, shown]
        change (AnyRtmpPull.gotPacket session.pull packet).bind _ = _
        rw [read]
        rfl
    | handshake ok | connectApp ok | playStream ok => cases taken
  | failed gone =>
    unfold step at taken
    rw [gone] at taken
    cases taken

theorem cameTo_run {turns : List PullTurn} {failures : Nat} {packets : List RtmpPacket} {session session' : PullSession}
    (came : session.CameTo failures packets) (reached : Transition.run step session turns = some session') :
    session'.CameTo (failures + turns.countP PullTurn.fails) (packets ++ turns.filterMap PullTurn.packet?) := by
  induction turns generalizing session failures packets with
  | nil =>
    cases reached
    rwa [List.countP_nil, List.filterMap_nil, List.append_nil]
  | cons turn turns ih =>
    obtain ⟨next, taken, rest⟩ := Transition.run_cons reached
    have later := ih (cameTo_step came taken) rest
    rw [List.append_assoc, Nat.add_assoc, Nat.add_comm (if turn.fails then 1 else 0)] at later
    rw [List.countP_cons]
    cases read : turn.packet? with
    | none =>
      rw [read] at later
      rwa [List.filterMap_cons_none read]
    | some packet =>
      rw [read] at later
      rwa [List.filterMap_cons_some read]

end PullSession

/-- Whatever becomes of a player's attempts and of its connection: it has told its host nothing while it still tries,
that it plays, once, from the first attempt that succeeds, and after the fourth that fails that it is closed. Once it
plays it never tells of an end, and what it has shown is what the packets it has read say. -/
theorem player_told {turns : List PullTurn} {session : PullSession}
    (reached : Transition.run PullSession.step {} turns = some session) :
    session.CameTo (turns.countP PullTurn.fails) (turns.filterMap PullTurn.packet?) := by
  have start : ({} : PullSession).CameTo 0 [] :=
    .connecting ⟨PlyStatus.noConfusion, rfl, rfl, Nat.zero_le _, rfl, rfl, rfl⟩ rfl
  have came := PullSession.cameTo_run start reached
  rwa [Nat.zero_add, List.nil_append] at came

/-- Three attempts fail, and the fourth one plays; of two reads, one fails. -/
def fourthAttempt : List PullTurn :=
  [.handshake false, .handshake true, .connectApp false, .handshake true, .connectApp true, .playStream false,
    .handshake true, .connectApp true, .playStream true, .doReadData none,
    .doReadData (some { type := typeAudio, timestamp := 40, data := [0xae, 0, 18, 8] })]

theorem player_told_fourthAttempt :
    ∃ session, Transition.run PullSession.step {} fourthAttempt = some session ∧
      session.CameTo 3 [{ type := typeAudio, timestamp := 40, data := [0xae, 0, 18, 8] }] :=
  ⟨_, rfl, @player_told fourthAttempt _ rfl⟩

end AdTerminal.Live
