import AdTerminal.Library.Stateful
import AdTerminal.Library.Transition

/-! The USB camera. `UVCCamera.instance` hands out one object for the life of the process, and
`destroy` clears its native pointer, which only the constructor sets. -/

namespace AdTerminal.Camera
open Stateful Transition

inductive Thrown where
  | unsupportedOperationException
  | illegalArgumentException
  | nullPointerException
  deriving DecidableEq, Repr

/-- What of a `UVCCamera` its life cycle depends on: the native pointer, whether `mCtrlBlock`
refers to the block of a device, and whether the preview runs. -/
structure UVCCamera where
  mNativePtr : Nat
  mCtrlBlock : Bool := false
  previewing : Bool := false
  deriving DecidableEq, Repr

namespace UVCCamera

def startPreview (camera : UVCCamera) : UVCCamera :=
  if camera.mCtrlBlock then { camera with previewing := decide (camera.mNativePtr ≠ 0) || camera.previewing } else camera

def stopPreview (camera : UVCCamera) : UVCCamera :=
  if camera.mCtrlBlock then { camera with previewing := false } else camera

/-- Closing its block has the monitor call `onDisconnect`, which closes the camera once more. -/
def close (camera : UVCCamera) : UVCCamera := { camera.stopPreview with mCtrlBlock := false }

def destroy (camera : UVCCamera) : UVCCamera := { camera.close with mNativePtr := 0 }

theorem startPreview_mNativePtr (camera : UVCCamera) : camera.startPreview.mNativePtr = camera.mNativePtr := by
  unfold startPreview
  split <;> rfl

theorem stopPreview_mNativePtr (camera : UVCCamera) : camera.stopPreview.mNativePtr = camera.mNativePtr := by
  unfold stopPreview
  split <;> rfl

theorem close_mNativePtr (camera : UVCCamera) : camera.close.mNativePtr = camera.mNativePtr :=
  camera.stopPreview_mNativePtr

@[simp] theorem destroy_mNativePtr (camera : UVCCamera) : camera.destroy.mNativePtr = 0 := rfl

theorem destroy_of_connected {camera : UVCCamera} (connected : camera.mCtrlBlock = true) :
    camera.destroy = { mNativePtr := 0 } := by
  simp [destroy, close, stopPreview, connected]

end UVCCamera

/-- The process: the object that `instance` hands out once it is made, and whether the field
`mUVCCamera` of the enumerator refers to it. -/
structure Process where
  sUVCCamera : Option UVCCamera := none
  mUVCCamera : Bool := false
  deriving DecidableEq, Repr

abbrev Program := EStateM Thrown Process

/-- The native side: the pointer it creates, and how it answers a connection. -/
structure Native where
  nativeCreate : Nat
  nativeConnect : Nat → Int

/-- What a device answers when it is connected: whether its block can be cloned, and the results
of the two calls of `nativeSetPreviewSize`. -/
structure Answers where
  clones : Bool := true
  yuyv : Int := 0
  fallback : Int := 0
  deriving DecidableEq, Repr

/-- A method of the camera object is called. -/
def onCamera (method : UVCCamera → UVCCamera) : Program Unit :=
  modify fun s => { s with sUVCCamera := s.sUVCCamera.map method }

variable (native : Native)

/-- `mUVCCamera = UVCCamera.instance()`. -/
def instance_ : Program Unit :=
  modify fun s => { sUVCCamera := some (s.sUVCCamera.getD { mNativePtr := native.nativeCreate }), mUVCCamera := true }

/-- `mUVCCamera.open(ctrlBlock)`. A result other than zero is thrown, with the block kept if it
could be cloned. -/
def open_ (answers : Answers) : Program Unit := do
  let some camera := (← get).sUVCCamera | throw .nullPointerException
  if answers.clones then
    onCamera fun camera => { camera with mCtrlBlock := true }
    if native.nativeConnect camera.mNativePtr ≠ 0 then throw .unsupportedOperationException
  else throw .unsupportedOperationException

/-- `mUVCCamera.setPreviewSize`, with the result of its native call. -/
def setPreviewSize (result : Int) : Program Unit := do
  let some camera := (← get).sUVCCamera | throw .nullPointerException
  if camera.mNativePtr ≠ 0 ∧ result ≠ 0 then throw .illegalArgumentException

def onConnect (answers : Answers) : Program Unit := do
  if (← get).mUVCCamera then onCamera UVCCamera.destroy
  instance_ native
  open_ native answers
  tryCatch (setPreviewSize answers.yuyv) fun e =>
    if e = .illegalArgumentException then
      tryCatch (setPreviewSize answers.fallback) fun e1 =>
        if e1 = .illegalArgumentException then do
          onCamera UVCCamera.destroy
          modify fun s => { s with mUVCCamera := false }
        else throw e1
    else throw e

def onDisconnect : Program Unit := do
  if (← get).mUVCCamera then onCamera UVCCamera.close

def startUVCPreview : Program Unit := do
  if (← get).mUVCCamera then onCamera UVCCamera.startPreview else throw .nullPointerException

def stopUVCPreview : Program Unit := do
  if (← get).mUVCCamera then
    onCamera UVCCamera.stopPreview
    onCamera UVCCamera.destroy

inductive Event where
  | connect (answers : Answers)
  | disconnect
  | startUVCPreview
  | stopUVCPreview
  deriving DecidableEq, Repr

def Event.program : Event → Program Unit
  | connect answers => onConnect native answers
  | disconnect => onDisconnect
  | startUVCPreview => Camera.startUVCPreview
  | stopUVCPreview => Camera.stopUVCPreview

/-- An exception is left to the caller. -/
def step (s : Process) (event : Event) : Option Process := some (final (event.program native) s)

/-- The camera is open, on an object of the native side. -/
def Opened (s : Process) : Prop :=
  s.mUVCCamera = true ∧ ∃ camera, s.sUVCCamera = some camera ∧ camera.mNativePtr ≠ 0 ∧ camera.mCtrlBlock = true

/-- `onConnect` returns with the camera open. -/
def Reopens (s : Process) : Event → Prop
  | .connect answers => thrown (onConnect native answers) s = none ∧ Opened (final (onConnect native answers) s)
  | _ => True

/-- The object is not made before, and the device can be cloned and takes the preview size. -/
def FirstConnect (s : Process) : Event → Prop
  | .connect answers => s.sUVCCamera = none ∧ answers.clones = true ∧ (answers.yuyv = 0 ∨ answers.fallback = 0)
  | _ => True

/-- An object that the field does not refer to is destroyed. -/
def Spent (s : Process) : Prop := ∀ camera ∈ s.sUVCCamera, s.mUVCCamera = true ∨ camera.mNativePtr = 0

variable {native} {s s' : Process} {answers : Answers}

theorem run_setPreviewSize {camera : UVCCamera} (made : s.sUVCCamera = some camera) (result : Int) :
    (setPreviewSize result).run s =
      if camera.mNativePtr ≠ 0 ∧ result ≠ 0 then .error .illegalArgumentException s else .ok () s := by
  have read : (get : Program Process).run s = .ok s s := rfl
  rw [setPreviewSize, EStateM.run_bind, read]
  simp only [made]
  split
  next => rfl
  next => rfl

/-- What `onConnect` does once the camera is open. -/
def previewSizes (yuyv fallback : Int) : Program Unit :=
  tryCatch (setPreviewSize yuyv) fun e =>
    if e = .illegalArgumentException then
      tryCatch (setPreviewSize fallback) fun e1 =>
        if e1 = .illegalArgumentException then do
          onCamera UVCCamera.destroy
          modify fun s => { s with mUVCCamera := false }
        else throw e1
    else throw e

/-- The second size is tried when the first is refused, and the camera is given up when both are. -/
theorem run_previewSizes {camera : UVCCamera} (made : s.sUVCCamera = some camera) (connected : camera.mNativePtr ≠ 0)
    (yuyv fallback : Int) :
    (previewSizes yuyv fallback).run s =
      if yuyv = 0 ∨ fallback = 0 then .ok () s
      else .ok () { sUVCCamera := s.sUVCCamera.map UVCCamera.destroy, mUVCCamera := false } := by
  rw [previewSizes, run_tryCatch, run_setPreviewSize made]
  by_cases first : yuyv = 0
  · rw [if_neg fun both => both.2 first, if_pos (Or.inl first)]
  · rw [if_pos ⟨connected, first⟩]
    show EStateM.run (tryCatch (setPreviewSize fallback) _) s = _
    rw [run_tryCatch, run_setPreviewSize made]
    by_cases second : fallback = 0
    · rw [if_neg fun both => both.2 second, if_pos (Or.inr second)]
    · rw [if_pos ⟨connected, second⟩, if_neg (not_or.mpr ⟨first, second⟩)]
      rfl

section
variable (connects : ∀ pointer, native.nativeConnect pointer = 0 ↔ pointer ≠ 0)
include connects

theorem run_open_destroyed {camera : UVCCamera} (destroyed : camera.mNativePtr = 0) :
    ∃ t, (open_ native answers).run { sUVCCamera := some camera, mUVCCamera := true } =
      .error .unsupportedOperationException t ∧ t.mUVCCamera = true := by
  have refused : ¬ native.nativeConnect 0 = 0 := fun result => (connects 0).mp result rfl
  unfold open_
  by_cases clones : answers.clones = true <;> simp [clones, destroyed, refused, onCamera]

/-- An object of an earlier event is destroyed, unless it is already, and then opened again. -/
theorem run_onConnect_spent (spent : Spent s) {camera : UVCCamera} (made : s.sUVCCamera = some camera) :
    ∃ t, (onConnect native answers).run s = .error .unsupportedOperationException t ∧ t.mUVCCamera = true := by
  obtain ⟨sUVCCamera, mUVCCamera⟩ := s
  subst made
  cases mUVCCamera with
  | true =>
    obtain ⟨t, throws, kept⟩ := @run_open_destroyed native answers connects camera.destroy rfl
    exact ⟨t, by simp [onConnect, onCamera, instance_, throws], kept⟩
  | false =>
    have destroyed : camera.mNativePtr = 0 := (spent camera rfl).resolve_left (by simp)
    obtain ⟨t, throws, kept⟩ := @run_open_destroyed native answers connects camera destroyed
    exact ⟨t, by simp [onConnect, instance_, throws], kept⟩

/-- With no object made before, what the device answers decides. -/
theorem run_onConnect_first (creates : native.nativeCreate ≠ 0) (unmade : s.sUVCCamera = none) :
    (onConnect native answers).run s =
      if answers.clones = false then
        .error .unsupportedOperationException
          { sUVCCamera := some { mNativePtr := native.nativeCreate }, mUVCCamera := true }
      else if answers.yuyv = 0 ∨ answers.fallback = 0 then
        .ok () { sUVCCamera := some { mNativePtr := native.nativeCreate, mCtrlBlock := true }, mUVCCamera := true }
      else .ok () { sUVCCamera := some { mNativePtr := 0 }, mUVCCamera := false } := by
  obtain ⟨sUVCCamera, mUVCCamera⟩ := s
  subst unmade
  have accepted : native.nativeConnect native.nativeCreate = 0 := (connects _).mpr creates
  have ready : (open_ native answers).run { sUVCCamera := some { mNativePtr := native.nativeCreate }, mUVCCamera := true } =
      if answers.clones = false then
        .error .unsupportedOperationException
          { sUVCCamera := some { mNativePtr := native.nativeCreate }, mUVCCamera := true }
      else .ok () { sUVCCamera := some { mNativePtr := native.nativeCreate, mCtrlBlock := true }, mUVCCamera := true } := by
    unfold open_
    by_cases clones : answers.clones = true <;> simp [clones, accepted, onCamera]
  have destroyed := @UVCCamera.destroy_of_connected { mNativePtr := native.nativeCreate, mCtrlBlock := true } rfl
  have sizes := @run_previewSizes
    { sUVCCamera := some { mNativePtr := native.nativeCreate, mCtrlBlock := true }, mUVCCamera := true } _ rfl creates
    answers.yuyv answers.fallback
  have parts : onConnect native answers = (do
      if (← get).mUVCCamera then onCamera UVCCamera.destroy
      instance_ native
      open_ native answers
      previewSizes answers.yuyv answers.fallback) := rfl
  rw [parts]
  cases mUVCCamera <;> cases clones : answers.clones <;>
    simp [onCamera, instance_, ready, clones, sizes, destroyed]

theorem onConnect_opens_iff (creates : native.nativeCreate ≠ 0) (spent : Spent s) :
    thrown (onConnect native answers) s = none ∧ Opened (final (onConnect native answers) s) ↔
      s.sUVCCamera = none ∧ answers.clones = true ∧ (answers.yuyv = 0 ∨ answers.fallback = 0) := by
  unfold Opened thrown final
  cases made : s.sUVCCamera with
  | some camera =>
    obtain ⟨t, throws, _⟩ := @run_onConnect_spent native s answers connects spent camera made
    simp [throws]
  | none =>
    rw [run_onConnect_first connects creates made]
    cases clones : answers.clones with
    | false => simp
    | true => by_cases accepted : answers.yuyv = 0 ∨ answers.fallback = 0 <;> simp [accepted, creates]

theorem preserves_onConnect (creates : native.nativeCreate ≠ 0) : Preserves Spent (onConnect native answers) := by
  intro s spent
  cases made : s.sUVCCamera with
  | some camera =>
    obtain ⟨t, throws, kept⟩ := @run_onConnect_spent native s answers connects spent camera made
    rw [final_of_error throws]
    exact fun _ _ => Or.inl kept
  | none =>
    unfold final
    rw [run_onConnect_first connects creates made]
    cases clones : answers.clones with
    | false => simp [Spent]
    | true => by_cases accepted : answers.yuyv = 0 ∨ answers.fallback = 0 <;> simp [accepted, Spent]

end

/-- The methods that are called on the camera leave the field as it is, and what is destroyed
stays so. -/
theorem preserves_onCamera {method : UVCCamera → UVCCamera}
    (kept : ∀ camera, camera.mNativePtr = 0 → (method camera).mNativePtr = 0) :
    Preserves Spent (onCamera method) := by
  intro s spent changed member
  obtain ⟨camera, made, rfl⟩ := Option.map_eq_some_iff.mp member
  exact (spent camera made).imp id (kept camera)

theorem preserves_program (connects : ∀ pointer, native.nativeConnect pointer = 0 ↔ pointer ≠ 0)
    (creates : native.nativeCreate ≠ 0) (event : Event) : Preserves Spent (event.program native) := by
  cases event with
  | connect answers => exact preserves_onConnect connects creates
  | disconnect =>
    refine Within.bind Within.get fun s => Within.ite (fun _ => preserves_onCamera ?_) fun _ => Within.pure _
    exact fun camera destroyed => camera.close_mNativePtr.trans destroyed
  | startUVCPreview =>
    refine Within.bind Within.get fun s => Within.ite (fun _ => preserves_onCamera ?_) fun _ => Within.throw _
    exact fun camera destroyed => camera.startPreview_mNativePtr.trans destroyed
  | stopUVCPreview =>
    refine Within.bind Within.get fun s => Within.ite (fun _ => ?_) fun _ => Within.pure _
    refine Within.bind (preserves_onCamera ?_) fun _ => preserves_onCamera fun camera _ => camera.destroy_mNativePtr
    exact fun camera destroyed => camera.stopPreview_mNativePtr.trans destroyed

/-- Every connection leaves the camera open exactly when the first one of the process is the
only one, and its device does as it should. -/
theorem reopens_iff (connects : ∀ pointer, native.nativeConnect pointer = 0 ↔ pointer ≠ 0)
    (creates : native.nativeCreate ≠ 0) (events : List Event) :
    Steps (step native) (Reopens native) {} events ↔ Steps (step native) FirstConnect {} events := by
  have agree : ∀ s event, Spent s → (Reopens native s event ↔ FirstConnect s event) := by
    intro s event spent
    cases event with
    | connect answers => exact onConnect_opens_iff connects creates spent
    | _ => exact Iff.rfl
  have preserved : ∀ s event t, Spent s → Reopens native s event → step native s event = some t → Spent t := by
    intro s event t spent _ taken
    cases taken
    exact preserves_program connects creates event s spent
  have start : Spent {} := fun _ member => by simp at member
  exact steps_iff agree preserved start

/-- A device that is connected once, started, stopped and taken away. -/
theorem once_reopens :
    let native : Native := ⟨1, fun pointer => if pointer = 0 then -1 else 0⟩
    Steps (step native) (Reopens native) {} [.disconnect, .connect { fallback := -2, yuyv := 0 }, .startUVCPreview,
      .stopUVCPreview, .disconnect] := by
  intro native
  refine (@reopens_iff native ?_ (by decide) _).mpr ?_
  · intro pointer
    by_cases null : pointer = 0 <;> simp [native, null]
  · simp [Steps, step, FirstConnect, final, Event.program, onDisconnect]

/-- The camera is connected, stopped and connected again: the object that `instance` hands out
is the destroyed one. -/
theorem second_not_reopened :
    let native : Native := ⟨1, fun pointer => if pointer = 0 then -1 else 0⟩
    native.nativeCreate ≠ 0 ∧ (∀ pointer, native.nativeConnect pointer = 0 ↔ pointer ≠ 0) ∧
      ¬ Steps (step native) (Reopens native) {} [.connect {}, .stopUVCPreview, .connect {}] := by
  intro native
  have connects : ∀ pointer, native.nativeConnect pointer = 0 ↔ pointer ≠ 0 := by
    intro pointer
    by_cases null : pointer = 0 <;> simp [native, null]
  refine ⟨by decide, connects, fun all => ?_⟩
  have third := (all.2 _ rfl).2 _ rfl
  have throws : thrown (onConnect native {}) (final (stopUVCPreview) (final (onConnect native {}) {})) ≠ none := by decide
  exact throws third.1.1

end AdTerminal.Camera
