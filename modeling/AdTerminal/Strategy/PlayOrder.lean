import AdTerminal.Strategy.PlayLoops

/-! The order of play. Both players take the files of their list in turn, from a position that
stays where it is when the list is replaced. -/

namespace AdTerminal.Strategy
open Transition RoundRobin

/-- A player as far as its order goes: what it hands out, which of its events are messages that are
handled, when the files that exist are these, and which of them replace the list. -/
structure Player (σ ε : Type) where
  step : σ → ε → Option σ
  getByOrder : σ → Option (Option String × σ)
  order : σ → Order String
  handles : ε → Option (String → Bool)
  replaces : ε → Option (List String)
  Shows : String → σ → σ → Prop
  answers : ∀ s, ∃ t, getByOrder s = some ((order s).upcoming, t) ∧ order t = (order s).next
  moves : ∀ s e t, step s e = some t → order t = match handles e, replaces e with
    | some _, _ => (order s).next
    | none, some list => (order s).replace (some list)
    | none, none => order s
  shows : ∀ s e t exist file, step s e = some t → handles e = some exist → (order s).upcoming = some file →
    exist file = true → Shows file s t

namespace Player

variable {σ ε : Type} (p : Player σ ε)

/-- Calls from anywhere come between the events of the program. -/
def interleaved (s : σ) : Option ε → Option σ
  | none => (p.getByOrder s).map Prod.snd
  | some event => p.step s event

def files (s : σ) : List String := (p.order s).elements

/-- The list stays, and the file exists whenever a message is handled. -/
def Keeps (file : String) (event : ε) : Prop :=
  p.replaces event = none ∧ ∀ exist, p.handles event = some exist → exist file = true

/-- A call returns null for an empty list only, and else the element at a position of the list. As
many calls as the list is long, one after the other on the same list, have returned every position
once, in cyclic order. Before as many messages have been handled each file that exists is shown. -/
structure Fair (s : σ) : Prop where
  answers : ∃ path t, p.getByOrder s = some (path, t) ∧ (path = none ↔ p.files s = []) ∧
    ∀ file, path = some file → (p.files s)[(p.order t).position]? = some file
  window : ∀ before window after, (p.order s).returned = before ++ window ++ after →
    window.length = (p.files s).length → ∃ k, window = ((p.files s).zipIdx.rotate k).map some
  shown : ∀ file ∈ p.files s, ∀ events t, (∀ event ∈ events, p.Keeps file event) → run p.step s events = some t →
    (p.files s).length ≤ events.countP (fun event => (p.handles event).isSome) →
      ∃ before event after u v, events = before ++ event :: after ∧ run p.step s before = some u ∧
        p.step u event = some v ∧ p.Shows file u v

variable {p} {s t : σ}

theorem turning_interleaved (turning : Turning (p.order s)) {event : Option ε}
    (taken : p.interleaved s event = some t) : Turning (p.order t) := by
  cases event with
  | none =>
    obtain ⟨u, called, moved⟩ := p.answers s
    rw [interleaved, called] at taken
    cases taken
    rw [moved]
    exact turning.next
  | some event =>
    rw [p.moves s event t taken]
    cases p.handles event with
    | some exist => exact turning.next
    | none =>
      cases p.replaces event with
      | some list => exact .start rfl
      | none => exact turning

theorem fair_of_turning (turning : Turning (p.order s)) : p.Fair s where
  answers := by
    obtain ⟨t, called, moved⟩ := p.answers s
    refine ⟨_, t, called, upcoming_eq_none, fun file next => ?_⟩
    rw [moved]
    exact getElem?_moved next
  window before window after := turning.window
  shown := by
    intro file listed events t keeps whole enough
    have moves : ∀ s event t, p.Keeps file event → p.step s event = some t →
        p.order t = if (p.handles event).isSome then (p.order s).next else p.order s := by
      intro s event t kept taken
      rw [p.moves s event t taken, kept.1]
      cases p.handles event <;> rfl
    have found : ∀ s event t, p.Keeps file event → (p.handles event).isSome → p.step s event = some t →
        (p.order s).upcoming = some file → ∃ t, p.step s event = some t ∧ p.Shows file s t := by
      intro s event t kept asked taken next
      obtain ⟨exist, handles⟩ := Option.isSome_iff_exists.mp asked
      exact ⟨t, taken, p.shows s event t exist file taken handles next (kept.2 exist handles)⟩
    obtain ⟨before, event, after, u, split, reached, v, taken, shown⟩ :=
      exists_asked moves found listed (Steps.of_forall keeps) whole enough
    exact ⟨before, event, after, u, v, split, reached, taken, shown⟩

/-- Whatever the first position is, the order of a player is fair throughout. -/
theorem fair_throughout (fresh : (p.order s).returned = []) (events : List (Option ε)) :
    Throughout p.interleaved p.Fair s events := by
  have preserved : ∀ s event t, Turning (p.order s) → True → p.interleaved s event = some t → Turning (p.order t) :=
    fun s event t turning _ taken => turning_interleaved turning taken
  exact throughout_of_invariant preserved (fun s turning => fair_of_turning turning) (.start fresh) Steps.any

end Player

namespace NewVideoMgr

def order (s : NewVideoMgr) : Order String := ⟨s.mVideoList, s.mPosition, s.returned⟩

def Event.handles : Event → Option (String → Bool)
  | .handleMessage exist => some exist
  | _ => none

def Event.replaces : Event → Option (List String)
  | .updateWhenStrategyChanged videoList => some videoList
  | _ => none

theorem order_step {s t : NewVideoMgr} {event : Event} (taken : step s event = some t) :
    t.order = match event.handles, event.replaces with
      | some _, _ => s.order.next
      | none, some list => s.order.replace (some list)
      | none, none => s.order := by
  cases event with
  | handleMessage exist =>
    cases (handled taken).2 with
    | ended | missing | shown => rfl
  | _ =>
    cases (step_eq_some.mp taken).2
    rfl

/-- A video is shown when the view is set to it, visible and started. -/
def player : Player NewVideoMgr Event where
  step := step
  getByOrder := getVideoByOrder
  order := order
  handles := Event.handles
  replaces := Event.replaces
  Shows file _ t := t.mVideoView.Shows file
  answers s := ⟨_, getVideoByOrder_eq s, rfl⟩
  moves s event t := order_step
  shows := by
    intro s event t exist file taken handles next present
    cases event with
    | handleMessage files =>
      cases handles
      cases (handled taken).2 with
      | ended none => exact absurd (none.symm.trans next) nofun
      | missing other same missing =>
        cases same.symm.trans next
        exact absurd (missing.symm.trans present) nofun
      | shown other same =>
        cases same.symm.trans next
        exact VideoView.shows_play
    | _ => exact nomatch handles

end NewVideoMgr

namespace NewImageMgr

def order (s : NewImageMgr) : Order String := ⟨s.mImageList, s.mCurrentImageId, s.returned⟩

def Event.handles : Event → Option (String → Bool)
  | .dispatchMessage exist => some exist
  | _ => none

def Event.replaces : Event → Option (List String)
  | .updateWhenStrategyChanged imageList => some imageList
  | _ => none

theorem order_step {s t : NewImageMgr} {event : Event} (taken : step s event = some t) :
    t.order = match event.handles, event.replaces with
      | some _, _ => s.order.next
      | none, some list => s.order.replace (some list)
      | none, none => s.order := by
  cases event with
  | dispatchMessage exist =>
    cases (handled taken).2 with
    | ended | missing | shown => rfl
  | updateWhenStrategyChanged imageList =>
    cases taken
    unfold updateWhenStrategyChanged
    dsimp only
    split_ifs <;> rfl
  | updateOther =>
    cases taken
    rfl

/-- An image is shown when the switcher is set to it. -/
def player : Player NewImageMgr Event where
  step := step
  getByOrder := getImageByOrder
  order := order
  handles := Event.handles
  replaces := Event.replaces
  Shows file _ t := t.mFilePath = some file ∧ t.mImageSwitcher.imageURI = some file
  answers s := ⟨_, getImageByOrder_eq s, rfl⟩
  moves s event t := order_step
  shows := by
    intro s event t exist file taken handles next present
    cases event with
    | dispatchMessage files =>
      cases handles
      cases (handled taken).2 with
      | ended none => exact absurd (none.symm.trans next) nofun
      | missing other same missing =>
        cases same.symm.trans next
        exact absurd (missing.symm.trans present) nofun
      | shown other same =>
        cases same.symm.trans next
        exact ⟨next, rfl⟩
    | _ => exact nomatch handles

end NewImageMgr

end AdTerminal.Strategy
