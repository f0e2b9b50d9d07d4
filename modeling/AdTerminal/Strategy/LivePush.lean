import AdTerminal.Strategy.PlayLoops

/-! A live push takes the place of the videos. `stopVideoPlay` pauses and hides the view, and leaves
the loop of the player running. -/

namespace AdTerminal.Strategy.NewVideoMgr
open Transition

/-- During a push the view is not visible and no video has been started. -/
def Hidden (s : NewVideoMgr) : Prop := s.pushing → s.mVideoView.visibility ≠ .visible ∧ ¬ s.mVideoView.Started

/-- A message that is handled during a push finds no file: the list is empty, or the next file in
order is missing. -/
def FindsNothing (s : NewVideoMgr) : Event → Prop
  | .handleMessage exist => s.pushing → 0 < s.messages → ∀ file, s.upcoming = some file → exist file = false
  | _ => True

variable {s t : NewVideoMgr} {event : Event} {exist : String → Bool}

theorem hidden_of_view (unseen : s.mVideoView.visibility ≠ .visible) (stopped : ¬ s.mVideoView.Started) : Hidden s :=
  fun _ => ⟨unseen, stopped⟩

/-- What is pending does not make the view visible, unless a message finds a file. -/
theorem hidden_step (hidden : Hidden s) (finds : FindsNothing s event) (taken : step s event = some t) :
    Hidden t := by
  obtain ⟨can, reacts⟩ := step_eq_some.mp taken
  cases event with
  | handleMessage exist =>
    obtain ⟨pending, handled⟩ := handled taken
    cases handled with
    | ended | missing => exact hidden
    | shown file next present =>
      intro pushing
      exact absurd (finds pushing pending file next) (by simp [present])
  | onPrepared =>
    cases reacts
    intro pushing
    obtain ⟨notVisible, notStarted⟩ := hidden pushing
    exact ⟨by simpa using notVisible, mt (VideoView.started_onPrepared can).mp notStarted⟩
  | onCompletion =>
    cases reacts
    exact hidden_of_view Visibility.noConfusion (@VideoView.not_started_onCompletion _ s.mVideoView)
  | onError what extra =>
    cases reacts
    exact hidden_of_view Visibility.noConfusion (@VideoView.not_started_onError _ s.mVideoView)
  | stopVideoPlay =>
    cases reacts
    exact hidden_of_view Visibility.noConfusion (@VideoView.not_started_pause _ s.mVideoView)
  | restartVideoPlay =>
    cases reacts
    exact fun pushing => nomatch pushing
  | played | updateWhenStrategyChanged | updateOther =>
    cases reacts
    exact hidden

theorem findsNothing_of_hidden (all : ∀ t, step s event = some t → Hidden t) : FindsNothing s event := by
  cases event with
  | handleMessage exist =>
    intro pushing pending file next
    obtain ⟨t, taken, handled⟩ := handled_exists pending exist
    have hidden := all t taken
    cases handled with
    | ended none => exact absurd (none.symm.trans next) nofun
    | missing other same missing => exact Option.some.inj (same.symm.trans next) ▸ missing
    | shown => exact absurd rfl (hidden pushing).1
  | _ => trivial

/-- For every play list and every run: from each `stopVideoPlay` to the next `restartVideoPlay` the
view stays hidden and no video is started if and only if no message that is handled meanwhile finds
a file that exists. -/
theorem hidden_throughout_iff (videoList : List String) (events : List Event) :
    Throughout step Hidden (new videoList) events ↔ Steps step FindsNothing (new videoList) events := by
  have agree : ∀ s event, Hidden s → ((∀ t, step s event = some t → Hidden t) ↔ FindsNothing s event) :=
    fun s event hidden => ⟨findsNothing_of_hidden, fun finds t taken => hidden_step hidden finds taken⟩
  exact throughout_iff_self agree fun pushing => nomatch pushing

/-- A new list arrives during the push, and the message sent for it starts a video. -/
theorem updated_visible : ¬ Throughout step Hidden (new ["/adVideo/a.mp4"])
    [.handleMessage fun _ => true, .stopVideoPlay, .updateWhenStrategyChanged ["/adVideo/b.mp4"],
      .handleMessage fun _ => true] := by
  intro all
  exact (all _ [] (List.append_nil _).symm _ rfl rfl).1 rfl

end AdTerminal.Strategy.NewVideoMgr
