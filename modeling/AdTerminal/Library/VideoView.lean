import Mathlib.Tactic.SplitIfs

/-! Android's `VideoView`: the state its player is in and the state it is to get to. A video that
is still being prepared starts by itself when that is what it is to get to. -/

namespace AdTerminal

inductive PlayState where
  | error
  | idle
  | preparing
  | prepared
  | playing
  | paused
  | playbackCompleted
  deriving DecidableEq, Repr

inductive Visibility where
  | visible
  | invisible
  | gone
  deriving DecidableEq, Repr

structure VideoView (Path : Type) where
  videoPath : Option Path := none
  currentState : PlayState := .idle
  targetState : PlayState := .idle
  visibility : Visibility := .visible
  onTop : Bool := false
  position : Nat := 0
  deriving DecidableEq

namespace VideoView

variable {Path : Type}

def isInPlaybackState (v : VideoView Path) : Bool := v.currentState ∉ [PlayState.error, .idle, .preparing]

/-- A video that is being prepared does not play yet. -/
def isPlaying (v : VideoView Path) : Bool := v.currentState = .playing

def setVideoPath (path : Path) (v : VideoView Path) : VideoView Path :=
  { v with videoPath := some path, currentState := .preparing, position := 0 }

def setVisibility (visibility : Visibility) (v : VideoView Path) : VideoView Path := { v with visibility }

def setZOrderOnTop (onTop : Bool) (v : VideoView Path) : VideoView Path := { v with onTop }

def start (v : VideoView Path) : VideoView Path :=
  { v with currentState := if v.isInPlaybackState then .playing else v.currentState, targetState := .playing }

def pause (v : VideoView Path) : VideoView Path :=
  { v with currentState := if v.isPlaying then .paused else v.currentState, targetState := .paused }

def seekTo (position : Nat) (v : VideoView Path) : VideoView Path := { v with position }

/-- What the view does itself on the events of its player, before its listener is called. -/
def onPrepared (v : VideoView Path) : VideoView Path :=
  if v.targetState = .playing then { v with currentState := .playing } else { v with currentState := .prepared }

def onCompletion (v : VideoView Path) : VideoView Path :=
  { v with currentState := .playbackCompleted, targetState := .playbackCompleted }

def onError (v : VideoView Path) : VideoView Path := { v with currentState := .error, targetState := .error }

/-- The video has been started, has not come to an end and has not been paused. -/
def Started (v : VideoView Path) : Prop :=
  v.currentState = .playing ∨ v.currentState = .preparing ∧ v.targetState = .playing

instance (v : VideoView Path) : Decidable v.Started := inferInstanceAs (Decidable (_ ∨ _))

/-- The end of a video may be reported after it was paused. -/
def Completes (v : VideoView Path) : Prop := v.currentState = .playing ∨ v.currentState = .paused

instance (v : VideoView Path) : Decidable v.Completes := inferInstanceAs (Decidable (_ ∨ _))

/-- A video is set, shown and started. -/
def play (path : Path) (v : VideoView Path) : VideoView Path := ((v.setVideoPath path).setVisibility .visible).start

/-- The video can be seen, and plays or is about to. -/
def Shows (path : Path) (v : VideoView Path) : Prop :=
  v.videoPath = some path ∧ v.visibility = .visible ∧ v.Started

variable {v : VideoView Path} {path : Path}

@[simp] theorem visibility_onPrepared : v.onPrepared.visibility = v.visibility := by
  unfold onPrepared
  split_ifs <;> rfl

theorem started_play : (v.play path).Started := .inr ⟨rfl, rfl⟩

theorem shows_play : (v.play path).Shows path := ⟨rfl, rfl, started_play⟩

theorem started_of_isPlaying (playing : v.isPlaying) : v.Started := .inl (decide_eq_true_iff.mp playing)

theorem not_started_pause : ¬ v.pause.Started := by
  unfold pause Started isPlaying
  by_cases playing : v.currentState = .playing <;> simp [playing]

@[simp] theorem not_started_onCompletion : ¬ v.onCompletion.Started := by simp [onCompletion, Started]

@[simp] theorem not_started_onError : ¬ v.onError.Started := by simp [onError, Started]

/-- Being prepared neither starts nor stops a video. -/
theorem started_onPrepared (preparing : v.currentState = .preparing) : v.onPrepared.Started ↔ v.Started := by
  unfold onPrepared Started
  by_cases target : v.targetState = .playing <;> simp [target, preparing]

end VideoView

end AdTerminal
