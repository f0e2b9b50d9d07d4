import AdTerminal.Library.RoundRobin
import AdTerminal.Library.Transition
import AdTerminal.Library.VideoView
import AdTerminal.Strategy.AdMediaInfo

/-! The loops of the players. A message asks for the next file of the play list; what handles it
sends the next message or leaves that to the listeners of the view. A list is none of null
elements, since every element is a path that was put together. -/

namespace AdTerminal.Strategy
open Transition

/-- The entries of `errorMap`, `MEDIA_ERROR_SYSTEM` last. -/
def errorMap (code : Int) : Text :=
  [(1, "MEDIA_ERROR_UNKNOWN"), (100, "MEDIA_ERROR_SERVER_DIED"),
    (200, "MEDIA_ERROR_NOT_VALID_FOR_PROGRESSIVE_PLAYBACK"), (-1004, "MEDIA_ERROR_IO"),
    (-1007, "MEDIA_ERROR_MALFORMED"), (-1010, "MEDIA_ERROR_UNSUPPORTED"), (-110, "MEDIA_ERROR_TIMED_OUT"),
    (-2147483648, "MEDIA_ERROR_SYSTEM")].lookup code

/-- What `onError` shows. -/
def errorToast (what extra : Int) : String :=
  "VideoView got an error, Error Type: " ++ (errorMap what).shown ++ "  Extra Error Type: " ++ (errorMap extra).shown

/-- `messages` counts the `MSG_PLAY_VIDEO` that are pending, delayed ones included. -/
structure NewVideoMgr where
  mVideoList : Option (List String)
  mPosition : Nat := 0
  mVideoAdPath : Option String := none
  currentPosition : Nat := 0
  mVideoView : VideoView String := {}
  messages : Nat := 0
  toast : Option String := none
  /-- History: `stopVideoPlay` was called, and `restartVideoPlay` not yet after it. -/
  pushing : Bool := false
  /-- History: what `getVideoByOrder` has returned since the list was set, with its position. -/
  returned : List (Option (String × Nat)) := []

namespace NewVideoMgr

def sendEmptyMessage (s : NewVideoMgr) : NewVideoMgr := { s with messages := s.messages + 1 }

/-- The constructor, with what `getVideoListWithIntervalCheck` returns. -/
def new (videoList : List String) : NewVideoMgr :=
  { mVideoList := some videoList
    mVideoView := ({} : VideoView String).setVisibility .visible : NewVideoMgr }.sendEmptyMessage

/-- Nothing for an index out of bounds. -/
def getVideoByOrder (s : NewVideoMgr) : Option (Option String × NewVideoMgr) :=
  (RoundRobin.getByOrder s.mVideoList s.mPosition).map fun (path, position) =>
    (path, { s with mPosition := position, returned := s.returned ++ [path.map fun file => (file, position)] })

/-- What is done with a message that has been taken, when the files that exist are these. A missing
file is passed over after five seconds. -/
def handleMessage (exist : String → Bool) (s : NewVideoMgr) : Option NewVideoMgr := do
  let (path, s) ← s.getVideoByOrder
  let s := { s with mVideoAdPath := path }
  match path with
  | none => some s
  | some video => some (if ¬ exist video then s.sendEmptyMessage else { s with mVideoView := s.mVideoView.play video })

def stopVideoPlay (s : NewVideoMgr) : NewVideoMgr :=
  { s with mVideoView := s.mVideoView.pause.setVisibility .gone, currentPosition := s.mVideoView.position
           pushing := true }

def restartVideoPlay (s : NewVideoMgr) : NewVideoMgr :=
  { s with
    mVideoView := (((s.mVideoView.setVisibility .visible).setZOrderOnTop true).seekTo s.currentPosition).start
    pushing := false }

def onError (what extra : Int) (s : NewVideoMgr) : NewVideoMgr :=
  { s with toast := some (errorToast what extra)
           mVideoView := s.mVideoView.setVisibility .invisible }.sendEmptyMessage

def onCompletion (s : NewVideoMgr) : NewVideoMgr :=
  { s with mVideoView := s.mVideoView.setVisibility .invisible }.sendEmptyMessage

/-- With what `getVideoList` returns. -/
def updateWhenStrategyChanged (videoList : List String) (s : NewVideoMgr) : NewVideoMgr :=
  { s with mVideoList := some videoList, returned := [] }.sendEmptyMessage

inductive Event where
  | handleMessage (exist : String → Bool)
  | onPrepared
  | onCompletion
  | onError (what extra : Int)
  /-- The video has been played up to there. -/
  | played (position : Nat)
  | updateWhenStrategyChanged (videoList : List String)
  /-- One of the other update methods, which do nothing. -/
  | updateOther
  | stopVideoPlay
  | restartVideoPlay

/-- A message can be handled when one is pending; the view reports on the video it has. -/
def CanCome (s : NewVideoMgr) : Event → Prop
  | .handleMessage _ => 0 < s.messages
  | .onPrepared => s.mVideoView.currentState = .preparing
  | .onCompletion => s.mVideoView.Completes
  | .onError _ _ => s.mVideoView.currentState ≠ .idle
  | .played _ => s.mVideoView.isPlaying
  | _ => True

instance (s : NewVideoMgr) : (event : Event) → Decidable (s.CanCome event)
  | .handleMessage _ => inferInstanceAs (Decidable (_ < _))
  | .onPrepared => inferInstanceAs (Decidable (_ = _))
  | .onCompletion => inferInstanceAs (Decidable (VideoView.Completes _))
  | .onError _ _ => inferInstanceAs (Decidable (_ ≠ _))
  | .played _ => inferInstanceAs (Decidable (_ = _))
  | .updateWhenStrategyChanged _ | .updateOther | .stopVideoPlay | .restartVideoPlay => isTrue trivial

/-- The listener of the view is called after the view itself. -/
def react (s : NewVideoMgr) : Event → Option NewVideoMgr
  | .handleMessage exist => { s with messages := s.messages - 1 }.handleMessage exist
  | .onPrepared => some { s with mVideoView := s.mVideoView.onPrepared }
  | .onCompletion => some { s with mVideoView := s.mVideoView.onCompletion }.onCompletion
  | .onError what extra => some ({ s with mVideoView := s.mVideoView.onError }.onError what extra)
  | .played position => some { s with mVideoView := { s.mVideoView with position } }
  | .updateWhenStrategyChanged videoList => some (s.updateWhenStrategyChanged videoList)
  | .updateOther => some s
  | .stopVideoPlay => some s.stopVideoPlay
  | .restartVideoPlay => some s.restartVideoPlay

def step (s : NewVideoMgr) (event : Event) : Option NewVideoMgr := if s.CanCome event then s.react event else none

/-- The files of the play list. -/
def files (s : NewVideoMgr) : List String := RoundRobin.elements s.mVideoList

/-- The file that is next in order. -/
def upcoming (s : NewVideoMgr) : Option String := RoundRobin.upcoming s.mVideoList s.mPosition

/-- A message has been taken and the next file has been asked for. -/
def asked (s : NewVideoMgr) : NewVideoMgr :=
  let position := RoundRobin.moved s.mVideoList s.mPosition
  { s with
    messages := s.messages - 1
    mPosition := position
    returned := s.returned ++ [s.upcoming.map fun file => (file, position)]
    mVideoAdPath := s.upcoming }

/-- What comes of a message that is handled. -/
inductive Handled (exist : String → Bool) (s : NewVideoMgr) : NewVideoMgr → Prop
  | ended (none : s.upcoming = none) : Handled exist s s.asked
  | missing (file : String) (next : s.upcoming = some file) (missing : exist file = false) :
    Handled exist s s.asked.sendEmptyMessage
  | shown (file : String) (next : s.upcoming = some file) (present : exist file = true) :
    Handled exist s { s.asked with mVideoView := s.mVideoView.play file }

variable {s t : NewVideoMgr} {event : Event} {exist : String → Bool}

theorem getVideoByOrder_eq (s : NewVideoMgr) : s.getVideoByOrder =
    let position := RoundRobin.moved s.mVideoList s.mPosition
    some (s.upcoming, { s with
      mPosition := position, returned := s.returned ++ [s.upcoming.map fun file => (file, position)] }) := by
  rw [getVideoByOrder, RoundRobin.getByOrder_eq]
  rfl

theorem upcoming_eq_none : s.upcoming = none ↔ s.files = [] := RoundRobin.upcoming_eq_none

/-- Handling a message never throws. -/
theorem handled_exists (pending : 0 < s.messages) (exist : String → Bool) :
    ∃ t, step s (.handleMessage exist) = some t ∧ Handled exist s t := by
  have same : ({ s with messages := s.messages - 1 } : NewVideoMgr).upcoming = s.upcoming := rfl
  rw [step, if_pos (show s.CanCome (.handleMessage exist) from pending), react, handleMessage, getVideoByOrder_eq, same]
  cases next : s.upcoming with
  | none => exact ⟨_, by simp [asked, next], .ended next⟩
  | some file =>
    cases present : exist file with
    | false => exact ⟨_, by simp [asked, next, present], .missing file next present⟩
    | true => exact ⟨_, by simp [asked, next, present], .shown file next present⟩

theorem handled (taken : step s (.handleMessage exist) = some t) : 0 < s.messages ∧ Handled exist s t := by
  have pending : 0 < s.messages := by
    by_contra none
    rw [step, if_neg (show ¬ s.CanCome (.handleMessage exist) from none)] at taken
    cases taken
  obtain ⟨u, same, handled⟩ := handled_exists pending exist
  cases taken.symm.trans same
  exact ⟨pending, handled⟩

theorem step_eq_some : step s event = some t ↔ s.CanCome event ∧ s.react event = some t := by
  unfold step
  split_ifs with can
  · exact (and_iff_right can).symm
  · simp [can]

/-- At most one message is pending, and with files to play one is or a video has been started. -/
structure OneLoop (s : NewVideoMgr) : Prop where
  atMostOne : s.messages ≤ 1
  lively : s.files ≠ [] → 0 < s.messages ∨ s.mVideoView.Started

def Event.Uninterrupted : Event → Prop
  | .stopVideoPlay | .restartVideoPlay => False
  | _ => True

/-- The events on which a message is sent without a message having been taken. -/
def Event.Posts : Event → Prop
  | .onCompletion | .onError _ _ | .updateWhenStrategyChanged _ => True
  | _ => False

/-- A strategy update, the end of a video or an error comes only while no message is pending. -/
def Awaited (s : NewVideoMgr) (event : Event) : Prop := s.CanCome event → event.Posts → s.messages = 0

theorem oneLoop_sendEmptyMessage : OneLoop s.sendEmptyMessage ↔ s.messages = 0 := by
  constructor
  · intro one
    exact Nat.le_zero.mp (Nat.le_of_succ_le_succ one.atMostOne)
  · intro none
    exact ⟨Nat.succ_le_succ none.le, fun _ => .inl (Nat.succ_pos _)⟩

theorem oneLoop_new (videoList : List String) : OneLoop (new videoList) := oneLoop_sendEmptyMessage.mpr rfl

theorem oneLoop_handled (one : OneLoop s) (pending : 0 < s.messages) (handled : Handled exist s t) : OneLoop t := by
  have last : s.messages - 1 = 0 := by
    have atMostOne := one.atMostOne
    omega
  cases handled with
  | ended next => exact ⟨last.le.trans (Nat.zero_le _), fun some => absurd (upcoming_eq_none.mp next) some⟩
  | missing file next missing => exact oneLoop_sendEmptyMessage.mpr last
  | shown file next present => exact ⟨last.le.trans (Nat.zero_le _), fun _ => .inr VideoView.started_play⟩

theorem react_posts (posts : event.Posts) :
    ∃ u : NewVideoMgr, u.messages = s.messages ∧ s.react event = some u.sendEmptyMessage := by
  cases event with
  | onCompletion | onError | updateWhenStrategyChanged =>
    refine ⟨_, ?_, rfl⟩
    rfl
  | _ => exact posts.elim

/-- A step from a state with one loop leads to one, if it sends no second message. -/
theorem oneLoop_step (one : OneLoop s) (uninterrupted : event.Uninterrupted) (awaited : Awaited s event)
    (taken : step s event = some t) : OneLoop t := by
  obtain ⟨can, reacts⟩ := step_eq_some.mp taken
  by_cases posts : event.Posts
  · obtain ⟨u, same, sent⟩ := react_posts posts
    cases sent.symm.trans reacts
    exact oneLoop_sendEmptyMessage.mpr (same.trans (awaited can posts))
  · cases event with
    | handleMessage exist =>
      obtain ⟨pending, handled⟩ := handled taken
      exact oneLoop_handled one pending handled
    | onPrepared =>
      cases reacts
      exact ⟨one.atMostOne, fun some => (one.lively some).imp_right (VideoView.started_onPrepared can).mpr⟩
    | played position =>
      cases reacts
      exact ⟨one.atMostOne, one.lively⟩
    | updateOther =>
      cases reacts
      exact one
    | onCompletion | onError | updateWhenStrategyChanged => exact absurd trivial posts
    | stopVideoPlay | restartVideoPlay => exact uninterrupted.elim

theorem awaited_of_oneLoop (all : ∀ t, step s event = some t → OneLoop t) : Awaited s event := by
  intro can posts
  obtain ⟨u, same, sent⟩ := react_posts posts
  exact same.symm.trans (oneLoop_sendEmptyMessage.mp (all _ (step_eq_some.mpr ⟨can, sent⟩)))

/-- In runs without a push, there is one loop throughout exactly if no second message is sent. -/
theorem oneLoop_throughout_iff (videoList : List String) {events : List Event}
    (uninterrupted : ∀ event ∈ events, event.Uninterrupted) :
    Throughout step OneLoop (new videoList) events ↔ Steps step Awaited (new videoList) events := by
  have agree : ∀ s event, OneLoop s → event.Uninterrupted →
      ((∀ t, step s event = some t → OneLoop t) ↔ Awaited s event) := fun s event one admitted =>
    ⟨awaited_of_oneLoop, fun awaited t taken => oneLoop_step one admitted awaited taken⟩
  have preserved : ∀ s event t, OneLoop s → event.Uninterrupted → Awaited s event → OneLoop t →
      step s event = some t → OneLoop t := fun s event t _ _ _ one _ => one
  exact throughout_congr agree preserved (oneLoop_new videoList) (oneLoop_new videoList) (Steps.of_forall uninterrupted)

end NewVideoMgr

inductive Animation where
  | slideInLeft
  | slideOutRight
  | slideInUp
  | slideOutDown
  | fadeIn
  | fadeOut
  deriving DecidableEq, Repr

structure InOutAnimation where
  in_ : Animation
  out : Animation
  deriving DecidableEq, Repr

/-- Without an image it is hidden. -/
structure ImageSwitcher where
  animation : InOutAnimation
  imageURI : Option String := none
  visibility : Visibility := .invisible
  deriving DecidableEq, Repr

/-- `messages` counts the `MSG_SWITCH_IMAGE` that are pending, delayed ones included. -/
structure NewImageMgr where
  mAnimLibrary : List InOutAnimation
  mAnimPosition : Nat := 0
  mImageList : Option (List String)
  mFilePath : Option String := none
  mCurrentImageId : Nat := 0
  mImageSwitcher : ImageSwitcher
  messages : Nat := 0
  /-- History: what `getImageByOrder` has returned since the list was set, with its position. -/
  returned : List (Option (String × Nat)) := []

namespace NewImageMgr

def sendEmptyMessage (s : NewImageMgr) : NewImageMgr := { s with messages := s.messages + 1 }

def initAnimLibrary : List InOutAnimation := [⟨.slideInUp, .slideOutDown⟩, ⟨.fadeIn, .fadeOut⟩]

/-- The constructor, with what `getImageListWhenStartUp` returns. With images to show the main
activity switches to them. -/
def new (imageList : List String) : NewImageMgr :=
  { mAnimLibrary := initAnimLibrary
    mImageList := some imageList
    mImageSwitcher :=
      { animation := ⟨.slideInLeft, .slideOutRight⟩
        visibility := if imageList.length > 0 then .visible else .invisible } : NewImageMgr }.sendEmptyMessage

/-- Nothing for an index out of bounds. -/
def getImageByOrder (s : NewImageMgr) : Option (Option String × NewImageMgr) :=
  (RoundRobin.getByOrder s.mImageList s.mCurrentImageId).map fun (path, position) =>
    (path, { s with
      mCurrentImageId := position, returned := s.returned ++ [path.map fun file => (file, position)] })

def setNextAnimation (s : NewImageMgr) : Option NewImageMgr :=
  (RoundRobin.getByOrder (some s.mAnimLibrary) s.mAnimPosition).map fun (inOut, position) =>
    match inOut with
    | none => s
    | some inOut =>
      { s with mAnimPosition := position, mImageSwitcher := { s.mImageSwitcher with animation := inOut } }

/-- What is done with a message that has been taken, when the files that exist are these. The next
one is sent in any case, with a delay. -/
def dispatchMessage (exist : String → Bool) (s : NewImageMgr) : Option NewImageMgr := do
  let (path, s) ← s.getImageByOrder
  let s := { s with mFilePath := path }
  match path with
  | some file =>
    if ¬ exist file then some s.sendEmptyMessage
    else do
      let s ← s.setNextAnimation
      some { s with mImageSwitcher := { s.mImageSwitcher with imageURI := some file } }.sendEmptyMessage
  | none => some { s with mImageSwitcher := { s.mImageSwitcher with imageURI := none } }.sendEmptyMessage

/-- With what `getImageList` returns. -/
def updateWhenStrategyChanged (imageList : List String) (s : NewImageMgr) : NewImageMgr :=
  let s := { s with mImageList := some imageList, returned := [] }
  if ¬ 0 < s.messages then s.sendEmptyMessage else s

inductive Event where
  | dispatchMessage (exist : String → Bool)
  | updateWhenStrategyChanged (imageList : List String)
  /-- One of the other update methods, which do nothing. -/
  | updateOther

def step (s : NewImageMgr) : Event → Option NewImageMgr
  | .dispatchMessage exist =>
    if 0 < s.messages then { s with messages := s.messages - 1 }.dispatchMessage exist else none
  | .updateWhenStrategyChanged imageList => some (s.updateWhenStrategyChanged imageList)
  | .updateOther => some s

/-- The files of the play list. -/
def files (s : NewImageMgr) : List String := RoundRobin.elements s.mImageList

/-- The file that is next in order. -/
def upcoming (s : NewImageMgr) : Option String := RoundRobin.upcoming s.mImageList s.mCurrentImageId

/-- A message has been taken and the next file has been asked for. -/
def asked (s : NewImageMgr) : NewImageMgr :=
  let position := RoundRobin.moved s.mImageList s.mCurrentImageId
  { s with
    messages := s.messages - 1
    mCurrentImageId := position
    returned := s.returned ++ [s.upcoming.map fun file => (file, position)]
    mFilePath := s.upcoming }

/-- What comes of a message that is handled. -/
inductive Handled (exist : String → Bool) (s : NewImageMgr) : NewImageMgr → Prop
  | ended (empty : s.upcoming = none) :
    Handled exist s { s.asked with mImageSwitcher := { s.mImageSwitcher with imageURI := none } }.sendEmptyMessage
  | missing (file : String) (next : s.upcoming = some file) (missing : exist file = false) :
    Handled exist s s.asked.sendEmptyMessage
  | shown (file : String) (next : s.upcoming = some file) (present : exist file = true) (mAnimPosition : Nat)
    (animation : InOutAnimation) :
    Handled exist s { s.asked with
      mAnimPosition, mImageSwitcher := { s.mImageSwitcher with animation, imageURI := some file } }.sendEmptyMessage

variable {s t : NewImageMgr} {event : Event} {exist : String → Bool}

theorem getImageByOrder_eq (s : NewImageMgr) : s.getImageByOrder =
    let position := RoundRobin.moved s.mImageList s.mCurrentImageId
    some (s.upcoming, { s with
      mCurrentImageId := position, returned := s.returned ++ [s.upcoming.map fun file => (file, position)] }) := by
  rw [getImageByOrder, RoundRobin.getByOrder_eq]
  rfl

theorem upcoming_eq_none : s.upcoming = none ↔ s.files = [] := RoundRobin.upcoming_eq_none

theorem setNextAnimation_eq (s : NewImageMgr) : ∃ mAnimPosition animation, s.setNextAnimation =
    some { s with mAnimPosition, mImageSwitcher := { s.mImageSwitcher with animation } } := by
  rw [setNextAnimation, RoundRobin.getByOrder_eq]
  cases RoundRobin.upcoming (some s.mAnimLibrary) s.mAnimPosition with
  | none => exact ⟨s.mAnimPosition, s.mImageSwitcher.animation, rfl⟩
  | some inOut => exact ⟨_, inOut, rfl⟩

/-- Handling a message never throws. -/
theorem handled_exists (pending : 0 < s.messages) (exist : String → Bool) :
    ∃ t, step s (.dispatchMessage exist) = some t ∧ Handled exist s t := by
  have same : ({ s with messages := s.messages - 1 } : NewImageMgr).upcoming = s.upcoming := rfl
  rw [step, if_pos pending, dispatchMessage, getImageByOrder_eq, same]
  cases next : s.upcoming with
  | none => exact ⟨_, by simp [asked, next], .ended next⟩
  | some file =>
    cases present : exist file with
    | false => exact ⟨_, by simp [asked, next, present], .missing file next present⟩
    | true =>
      obtain ⟨mAnimPosition, animation, animated⟩ := setNextAnimation_eq s.asked
      simp only [asked, next, Option.map_some] at animated
      exact ⟨_, by simp [asked, next, present, animated], .shown file next present mAnimPosition animation⟩

theorem handled (taken : step s (.dispatchMessage exist) = some t) : 0 < s.messages ∧ Handled exist s t := by
  have pending : 0 < s.messages := by
    by_contra none
    rw [step, if_neg none] at taken
    cases taken
  obtain ⟨u, same, handled⟩ := handled_exists pending exist
  cases taken.symm.trans same
  exact ⟨pending, handled⟩

/-- Exactly one message is pending. -/
def OneLoop (s : NewImageMgr) : Prop := s.messages = 1

theorem oneLoop_step (one : OneLoop s) (taken : step s event = some t) : OneLoop t := by
  cases event with
  | dispatchMessage exist =>
    obtain ⟨pending, handled⟩ := handled taken
    have sent : s.messages - 1 + 1 = 1 := by rw [one]
    cases handled with
    | ended | missing | shown => exact sent
  | updateWhenStrategyChanged imageList =>
    cases taken
    unfold updateWhenStrategyChanged
    rw [if_neg (not_not_intro (one ▸ Nat.one_pos))]
    exact one
  | updateOther =>
    cases taken
    exact one

theorem oneLoop_throughout (imageList : List String) (events : List Event) :
    Throughout step OneLoop (new imageList) events := by
  exact throughout_of_invariant (fun s event t one _ taken => oneLoop_step one taken) (fun s one => one) rfl Steps.any

end NewImageMgr

/-- For all play lists and all runs without a push: the players keep one loop each if and only if
no strategy update, end of a video or error comes while a message to play a video is pending. -/
theorem playbackLoops_iff (videoList imageList : List String) {videoEvents : List NewVideoMgr.Event}
    (uninterrupted : ∀ event ∈ videoEvents, event.Uninterrupted) (imageEvents : List NewImageMgr.Event) :
    Throughout NewVideoMgr.step NewVideoMgr.OneLoop (.new videoList) videoEvents ∧
      Throughout NewImageMgr.step NewImageMgr.OneLoop (.new imageList) imageEvents ↔
        Steps NewVideoMgr.step NewVideoMgr.Awaited (.new videoList) videoEvents := by
  rw [NewVideoMgr.oneLoop_throughout_iff videoList uninterrupted]
  exact and_iff_left (NewImageMgr.oneLoop_throughout imageList imageEvents)

/-- A missing file is to be looked for again in five seconds, and a new list is to be played at
once: the messages of two loops are pending. -/
theorem updated_twoLoops : ¬ (Throughout NewVideoMgr.step NewVideoMgr.OneLoop (.new ["/adVideo/a.mp4"])
    [.handleMessage fun _ => false, .updateWhenStrategyChanged ["/adVideo/b.mp4"]] ∧
    Throughout NewImageMgr.step NewImageMgr.OneLoop (.new []) []) := by
  intro both
  have one := (both.1 _ [] (List.append_nil _).symm _ rfl).atMostOne
  exact absurd one (by decide)

/-- The list is replaced after the file has been started. -/
theorem updated_oneLoop : Throughout NewVideoMgr.step NewVideoMgr.OneLoop (.new ["/adVideo/a.mp4"])
    [.handleMessage fun _ => true, .updateWhenStrategyChanged ["/adVideo/b.mp4"]] ∧
    Throughout NewImageMgr.step NewImageMgr.OneLoop (.new []) [] := by
  have uninterrupted : ∀ event ∈ [NewVideoMgr.Event.handleMessage fun _ => true,
      .updateWhenStrategyChanged ["/adVideo/b.mp4"]], event.Uninterrupted := by
    simp [NewVideoMgr.Event.Uninterrupted]
  refine (playbackLoops_iff ["/adVideo/a.mp4"] [] uninterrupted []).mpr ⟨fun _ posts => posts.elim, fun t taken => ?_⟩
  cases taken
  exact ⟨fun _ _ => rfl, fun _ _ => trivial⟩

end AdTerminal.Strategy
