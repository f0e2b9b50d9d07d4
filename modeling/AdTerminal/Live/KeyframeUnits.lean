import AdTerminal.Live.Written
import Mathlib.Data.List.Infix

/-! How the publisher takes a key frame apart: which of its units are queued as frames of their own. -/

namespace AdTerminal.Live

open Rtmp

/-- No start code begins in the first of the two lists, when the second one follows. -/
def Quiet : List UInt8 → List UInt8 → Prop
  | [], _ => True
  | b :: bytes, rest => ¬ StartCodeAt (b :: bytes ++ rest) 0 ∧ Quiet bytes rest

theorem startCodeAt_drop (p : List UInt8) (i : Nat) : StartCodeAt p i ↔ StartCodeAt (p.drop i) 0 := by
  have byte : ∀ k, p.getD (i + k) 0 = (p.drop i).getD k 0 := fun k => by
    rw [List.getD_eq_getElem?_getD, List.getD_eq_getElem?_getD, List.getElem?_drop]
  have first := byte 0
  rw [Nat.add_zero] at first
  unfold StartCodeAt
  rw [first, byte 1, byte 2, byte 3]

/-- A unit with its start code. There is none in it, and it does not end in a zero. -/
structure Nal where
  long : Bool
  nalu : List UInt8
  two_le : 2 ≤ nalu.length
  last : nalu.getLast? ≠ some 0
  plain : ¬ [0, 0, 1] <:+: nalu

namespace Nal

def code (nal : Nal) : List UInt8 :=
  if nal.long then freshNaluHeader else contNaluHeader

def bytes (nal : Nal) : List UInt8 :=
  nal.code ++ nal.nalu

end Nal

theorem quiet_plain {nalu : List UInt8} (last : nalu.getLast? ≠ some 0) (plain : ¬ [0, 0, 1] <:+: nalu)
    (rest : List UInt8) : Quiet nalu rest := by
  induction nalu with
  | nil => trivial
  | cons b nalu ih =>
    have later : ¬ [0, 0, 1] <:+: nalu := fun inside => plain (List.infix_cons inside)
    refine ⟨?_, ?_⟩
    · rintro ⟨zero, zero', third⟩
      obtain rfl : b = 0 := zero
      cases nalu with
      | nil => exact last rfl
      | cons b1 nalu =>
        obtain rfl : b1 = 0 := zero'
        cases nalu with
        | nil => exact last rfl
        | cons b2 nalu =>
          rcases third with one | ⟨zero'', fourth⟩
          · obtain rfl : b2 = 1 := one
            exact plain ⟨[], nalu, rfl⟩
          · obtain rfl : b2 = 0 := zero''
            cases nalu with
            | nil => exact last rfl
            | cons b3 nalu =>
              obtain rfl : b3 = 1 := fourth
              exact later ⟨[], nalu, rfl⟩
    · cases nalu with
      | nil => trivial
      | cons b' nalu => exact ih (by rwa [List.getLast?_cons_cons] at last) later

/-- The end of a start code begins none. -/
theorem quiet_code (nal : Nal) (rest : List UInt8) :
    Quiet ([0, 1] ++ nal.nalu) rest ∧ Quiet ([1] ++ nal.nalu) rest := by
  have unit := quiet_plain nal.last nal.plain rest
  have nonzero : (1 : UInt8) ≠ 0 := by decide
  have one : ¬ StartCodeAt ([1] ++ nal.nalu ++ rest) 0 := fun starts => nonzero starts.1
  have zero : ¬ StartCodeAt ([0, 1] ++ nal.nalu ++ rest) 0 := fun starts => nonzero starts.2.1
  exact ⟨⟨zero, one, unit⟩, one, unit⟩

theorem scan_end {p : List UInt8} {i : Nat} (ends : ¬ i + 4 < p.length) (fuel : Nat) (found : Keyframe) :
    scanKeyframe p fuel i found = found := by
  cases fuel with
  | zero => rfl
  | succ fuel => rw [scanKeyframe, if_pos ends]

/-- Turns enough to come to the end are as good as any more. -/
theorem scan_fuel (p : List UInt8) {fuel fuel' i : Nat} (enough : p.length ≤ fuel + i) (enough' : p.length ≤ fuel' + i)
    (found : Keyframe) : scanKeyframe p fuel i found = scanKeyframe p fuel' i found := by
  induction fuel generalizing fuel' i found with
  | zero => rw [scan_end (by omega), scan_end (by omega)]
  | succ fuel ih =>
    cases fuel' with
    | zero => rw [scan_end (by omega), scan_end (by omega)]
    | succ fuel' =>
      have one : ∀ found, scanKeyframe p fuel (i + 1) found = scanKeyframe p fuel' (i + 1) found :=
        fun found => ih (by omega) (by omega) found
      have two : ∀ found, scanKeyframe p fuel (i + 2) found = scanKeyframe p fuel' (i + 2) found :=
        fun found => ih (by omega) (by omega) found
      simp only [scanKeyframe, one, two]

/-- The scan from a place on, with as many turns as it takes. -/
def scanFrom (p : List UInt8) (i : Nat) (found : Keyframe) : Keyframe :=
  scanKeyframe p p.length i found

theorem scanFrom_step (p : List UInt8) {i : Nat} (inside : i + 4 < p.length) (found : Keyframe) :
    scanFrom p i found =
      if StartCodeAt p i then
        let head01 := if p.getD (i + 2) 0 = 1 then 3 else 4
        if found.find7 = 0 then scanFrom p (i + 2) { found with find7 := i }
        else if found.find8 = 0 then
          if nalUnitType (p.drop (i + head01)) = naluTypeIDR then { found with find8 := i, third := some (i, head01) }
          else scanFrom p (i + 1) { found with find8 := i }
        else { found with third := some (i, head01) }
      else scanFrom p (i + 1) found := by
  obtain ⟨fuel, more⟩ : ∃ fuel, p.length = fuel + 1 := ⟨p.length - 1, by omega⟩
  have one : ∀ found, scanKeyframe p fuel (i + 1) found = scanKeyframe p p.length (i + 1) found :=
    fun found => scan_fuel p (by omega) (by omega) found
  have two : ∀ found, scanKeyframe p fuel (i + 2) found = scanKeyframe p p.length (i + 2) found :=
    fun found => scan_fuel p (by omega) (by omega) found
  have turn : scanFrom p i found = scanKeyframe p (fuel + 1) i found := scan_fuel p (by omega) (by omega) found
  rw [turn, scanKeyframe, if_neg (not_not.mpr inside)]
  simp only [one, two]
  rfl

/-- Where no start code begins, the scan goes on. -/
theorem scanFrom_quiet {p bytes rest : List UInt8} {i : Nat} (here : p.drop i = bytes ++ rest) (quiet : Quiet bytes rest)
    (found : Keyframe) : scanFrom p i found = scanFrom p (i + bytes.length) found := by
  induction bytes generalizing i with
  | nil => rfl
  | cons b bytes ih =>
    have next : p.drop (i + 1) = bytes ++ rest := by
      rw [← List.drop_drop, here]
      rfl
    have counted : i + 1 + bytes.length = i + (b :: bytes).length := by
      rw [List.length_cons]
      omega
    by_cases inside : i + 4 < p.length
    · have none_here : ¬ StartCodeAt p i := by
        rw [startCodeAt_drop, here]
        exact quiet.1
      rw [scanFrom_step p inside, if_neg none_here, ih next quiet.2, counted]
    · have beyond : ¬ i + (b :: bytes).length + 4 < p.length := by omega
      rw [scanFrom, scan_end inside, scanFrom, scan_end beyond]

/-- What is found at a start code. -/
theorem code_found {p rest : List UInt8} {i : Nat} {nal : Nal} (here : p.drop i = nal.bytes ++ rest) :
    i + 4 < p.length ∧ StartCodeAt p i ∧ (if p.getD (i + 2) 0 = 1 then 3 else 4) = nal.code.length ∧
      p.drop (i + nal.code.length) = nal.nalu ++ rest := by
  have size := congrArg List.length here
  have two := nal.two_le
  have third : p.getD (i + 2) 0 = (p.drop i).getD 2 0 := by
    rw [List.getD_eq_getElem?_getD, List.getD_eq_getElem?_getD, List.getElem?_drop]
  have behind : p.drop (i + nal.code.length) = nal.nalu ++ rest := by
    rw [← List.drop_drop, here, Nal.bytes, List.append_assoc, List.drop_left' rfl]
  rw [List.length_drop, List.length_append, Nal.bytes, List.length_append] at size
  rw [startCodeAt_drop, third, here]
  refine ⟨?_, ?_, ?_, behind⟩
  all_goals rw [Nal.code] at *
  · have three : 3 ≤ (if nal.long then freshNaluHeader else contNaluHeader).length := by
      split <;> decide
    omega
  · rw [Nal.bytes, Nal.code]
    split
    · exact ⟨rfl, rfl, .inr ⟨rfl, rfl⟩⟩
    · exact ⟨rfl, rfl, .inl rfl⟩
  · rw [Nal.bytes, Nal.code]
    split <;> rfl

/-- The scan goes on behind a start code that was found in its middle. -/
theorem scanFrom_unit {p rest : List UInt8} {i : Nat} {nal : Nal} (here : p.drop i = nal.bytes ++ rest)
    (found : Keyframe) : scanFrom p (i + 2) found = scanFrom p (i + nal.bytes.length) found := by
  have behind : p.drop (i + 2) = nal.code.drop 2 ++ nal.nalu ++ rest := by
    rw [← List.drop_drop, here, Nal.bytes, Nal.code]
    split <;> rfl
  have quiet : Quiet (nal.code.drop 2 ++ nal.nalu) rest := by
    rw [Nal.code]
    split
    · exact (quiet_code nal rest).1
    · exact (quiet_code nal rest).2
  have size : i + 2 + (nal.code.drop 2 ++ nal.nalu).length = i + nal.bytes.length := by
    have long : 2 ≤ nal.code.length := by
      rw [Nal.code]
      split <;> decide
    rw [Nal.bytes, List.length_append, List.length_append, List.length_drop]
    omega
  rw [scanFrom_quiet behind quiet, size]

/-- What is queued as the third frame, of the units behind the parameter sets. -/
def thirdFrame : List Nal → List UInt8
  | [] => []
  | third :: rest =>
    if nalUnitType third.nalu = naluTypeIDR then (third :: rest).flatMap Nal.bytes
    -- the scan goes on in the middle of its start code
    else if third.long then contNaluHeader ++ third.nalu ++ rest.flatMap Nal.bytes
    else rest.flatMap Nal.bytes

theorem nalUnitType_append {nalu : List UInt8} (nonempty : nalu ≠ []) (rest : List UInt8) :
    nalUnitType (nalu ++ rest) = nalUnitType nalu := by
  cases nalu with
  | nil => exact absurd rfl nonempty
  | cons b nalu => rfl

theorem Nal.nonempty (nal : Nal) : nal.nalu ≠ [] := by
  intro none_left
  have two := nal.two_le
  rw [none_left] at two
  exact absurd two (by decide)

/-- The scan behind the parameter sets. -/
theorem scanFrom_third {p : List UInt8} {i7 i8 : Nat} (some_sps : i7 ≠ 0) (some_pps : i8 ≠ 0) (units : List Nal)
    (here : p.drop i8 = units.flatMap Nal.bytes) (nonempty : units ≠ []) :
    ∃ found : Keyframe, scanFrom p i8 { find7 := i7 } = found ∧ found.find7 = i7 ∧ found.find8 = i8 ∧
      (match found.third with
        | some (i, _) => p.drop i
        | none => []) = thirdFrame units := by
  obtain ⟨third, rest, rfl⟩ := List.exists_cons_of_ne_nil nonempty
  rw [List.flatMap_cons] at here
  obtain ⟨inside, starts, head01, behind⟩ := code_found here
  rw [scanFrom_step p inside, if_pos starts]
  dsimp only
  rw [if_neg some_sps, if_pos rfl, head01, behind, nalUnitType_append third.nonempty, thirdFrame]
  by_cases idr : nalUnitType third.nalu = naluTypeIDR
  · rw [if_pos idr, if_pos idr, List.flatMap_cons]
    exact ⟨_, rfl, rfl, rfl, here⟩
  rw [if_neg idr, if_neg idr]
  have set : i8 ≠ 0 := some_pps
  by_cases long : third.long = true
  · -- the last three bytes of its start code are one as well
    let short : Nal := { third with long := false }
    have again : p.drop (i8 + 1) = short.bytes ++ rest.flatMap Nal.bytes := by
      rw [← List.drop_drop, here, Nal.bytes, Nal.code, if_pos long]
      rfl
    obtain ⟨inside', starts', -, -⟩ := code_found again
    rw [if_pos long, scanFrom_step p inside', if_pos starts']
    dsimp only
    rw [if_neg some_sps, if_neg set]
    exact ⟨_, rfl, rfl, rfl, again⟩
  · have middle : p.drop (i8 + 1) = [0, 1] ++ third.nalu ++ rest.flatMap Nal.bytes := by
      rw [← List.drop_drop, here, Nal.bytes, Nal.code, if_neg long]
      rfl
    have after : p.drop (i8 + 1 + ([0, 1] ++ third.nalu).length) = rest.flatMap Nal.bytes := by
      rw [← List.drop_drop, middle, List.drop_left' rfl]
    rw [if_neg long, scanFrom_quiet middle (quiet_code third _).1]
    generalize i8 + 1 + ([0, 1] ++ third.nalu).length = i9 at after
    cases rest with
    | nil =>
      have ends : ¬ i9 + 4 < p.length := by
        have none_left := congrArg List.length after
        rw [List.length_drop, List.flatMap_nil, List.length_nil] at none_left
        omega
      rw [scanFrom, scan_end ends]
      exact ⟨_, rfl, rfl, rfl, rfl⟩
    | cons fourth rest =>
      rw [List.flatMap_cons] at after
      obtain ⟨inside', starts', -, -⟩ := code_found after
      rw [scanFrom_step p inside', if_pos starts']
      dsimp only
      rw [if_neg some_sps, if_neg set]
      exact ⟨_, rfl, rfl, rfl, by rw [List.flatMap_cons]; exact after⟩

/-- A key frame is queued as its parameter sets and a third frame. -/
theorem keyframeUnits_eq (sps pps : Nal) (fresh : sps.long = true) {units : List Nal} (nonempty : units ≠ []) :
    keyframeUnits ((sps :: pps :: units).flatMap Nal.bytes) = [sps.bytes, pps.bytes, thirdFrame units] := by
  rw [List.flatMap_cons, List.flatMap_cons]
  generalize whole : sps.bytes ++ (pps.bytes ++ units.flatMap Nal.bytes) = p
  have code : sps.code = freshNaluHeader := if_pos fresh
  have size : 4 + sps.nalu.length = sps.bytes.length := by
    rw [Nal.bytes, code, List.length_append]
    rfl
  have unit : p.drop 4 = sps.nalu ++ (pps.bytes ++ units.flatMap Nal.bytes) := by
    rw [← whole, Nal.bytes, code]
    rfl
  have behindSps : p.drop sps.bytes.length = pps.bytes ++ units.flatMap Nal.bytes := by
    rw [← whole, List.drop_left' rfl]
  have behindPps : p.drop (sps.bytes.length + pps.bytes.length) = units.flatMap Nal.bytes := by
    rw [← List.drop_drop, behindSps, List.drop_left' rfl]
  have some_sps : sps.bytes.length ≠ 0 := by omega
  obtain ⟨inside, starts, -, -⟩ := code_found behindSps
  obtain ⟨found, scanned, find7, find8, third⟩ := @scanFrom_third p sps.bytes.length
    (sps.bytes.length + pps.bytes.length) some_sps (by omega) units behindPps nonempty
  have scan : keyframe p = found := by
    change scanFrom p 4 {} = found
    rw [scanFrom_quiet unit (quiet_plain sps.last sps.plain _), size, scanFrom_step p inside, if_pos starts, if_pos rfl,
      scanFrom_unit behindSps, scanned]
  have first : p.take sps.bytes.length = sps.bytes := by
    rw [← whole, List.take_left' rfl]
  have second : (p.take (sps.bytes.length + pps.bytes.length)).drop sps.bytes.length = pps.bytes := by
    rw [← whole, List.take_append, List.take_of_length_le (Nat.le_add_right _ _), Nat.add_sub_cancel_left,
      List.take_left' rfl, List.drop_left' rfl]
  rw [keyframeUnits, scan]
  simp only [Keyframe.first, Keyframe.second, find7, find8, first, second]
  exact congrArg (fun frame => [sps.bytes, pps.bytes, frame]) third

/-- The library takes the frame for a slice of a key frame. -/
def IsIdrFrame (frame : List UInt8) : Prop :=
  ∃ nalu, SrsRawH264Stream.annexbDemuxPri frame = .ok nalu ∧ nalUnitType nalu = naluTypeIDR

theorem isIdrFrame_iff (nal : Nal) (rest : List UInt8) :
    IsIdrFrame (nal.bytes ++ rest) ↔ nalUnitType nal.nalu = naluTypeIDR := by
  have demuxed : SrsRawH264Stream.annexbDemuxPri (nal.bytes ++ rest) = .ok (nal.nalu ++ rest) := by
    rw [Nal.bytes, Nal.code, List.append_assoc]
    split
    · exact annexbDemuxPri_unit 1 _
    · exact annexbDemuxPri_unit 0 _
  constructor
  · rintro ⟨nalu, same, idr⟩
    rw [demuxed] at same
    cases same
    rwa [nalUnitType_append nal.nonempty] at idr
  · intro idr
    exact ⟨_, demuxed, (nalUnitType_append nal.nonempty rest).trans idr⟩

theorem not_isIdrFrame_nil : ¬ IsIdrFrame [] := by
  rintro ⟨nalu, demuxed, -⟩
  nomatch demuxed

/-- The slice comes right behind the parameter sets, or behind one unit with a start code of three bytes. -/
def SliceInPlace : List Nal → Prop
  | [] => False
  | third :: rest => nalUnitType third.nalu = naluTypeIDR ∨
    third.long = false ∧ match rest with
      | [] => False
      | fourth :: _ => nalUnitType fourth.nalu = naluTypeIDR

theorem thirdFrame_isIdr (units : List Nal) : IsIdrFrame (thirdFrame units) ↔ SliceInPlace units := by
  cases units with
  | nil => exact iff_of_false not_isIdrFrame_nil id
  | cons third rest =>
    unfold thirdFrame SliceInPlace
    dsimp only
    by_cases idr : nalUnitType third.nalu = naluTypeIDR
    · rw [if_pos idr, List.flatMap_cons, isIdrFrame_iff]
      exact iff_of_true idr (.inl idr)
    rw [if_neg idr]
    cases long : third.long with
    | true =>
      rw [if_pos rfl]
      have short := isIdrFrame_iff { third with long := false } (rest.flatMap Nal.bytes)
      refine iff_of_false (fun isIdr => idr (short.mp isIdr)) ?_
      rintro (isIdr | ⟨other, -⟩)
      · exact idr isIdr
      · nomatch other
    | false =>
      rw [if_neg Bool.false_ne_true, or_iff_right idr, and_iff_right rfl]
      cases rest with
      | nil => exact iff_of_false not_isIdrFrame_nil id
      | cons fourth rest => exact isIdrFrame_iff fourth _

/-- A key frame is queued as its two parameter sets and one frame more. Its slice is one of the frames that are queued
exactly if it comes right behind the parameter sets, or behind one unit more that has a start code of three bytes. -/
theorem keyframe_slice_queued_iff {sps pps : Nal} (spsType : nalUnitType sps.nalu = naluTypeSPS)
    (ppsType : nalUnitType pps.nalu = naluTypePPS) (fresh : sps.long = true) {units : List Nal} (nonempty : units ≠ [])
    (push : AnyRtmpPush) (ts : UInt32) :
    let push' := push.setH264Data ((sps :: pps :: units).flatMap Nal.bytes) ts
    push'.pushing = [.video sps.bytes ts, .video pps.bytes ts, .video (thirdFrame units) ts] ∧
      ((∃ frame, .video frame ts ∈ push'.pushing ∧ IsIdrFrame frame) ↔ SliceInPlace units) := by
  have unit : ((sps :: pps :: units).flatMap Nal.bytes).drop 4 = sps.nalu ++ (pps :: units).flatMap Nal.bytes := by
    have code : sps.code = freshNaluHeader := if_pos fresh
    rw [List.flatMap_cons, Nal.bytes, code]
    rfl
  have key : nalUnitType (((sps :: pps :: units).flatMap Nal.bytes).drop 4) = naluTypeSPS := by
    rw [unit, nalUnitType_append sps.nonempty, spsType]
  have pushing : (push.setH264Data ((sps :: pps :: units).flatMap Nal.bytes) ts).pushing =
      [.video sps.bytes ts, .video pps.bytes ts, .video (thirdFrame units) ts] := by
    unfold AnyRtmpPush.setH264Data
    simp only [key, decide_true, Bool.not_true, Bool.and_false, Bool.false_eq_true, if_false, if_true,
      keyframeUnits_eq sps pps fresh nonempty]
    rfl
  refine ⟨pushing, ?_⟩
  rw [pushing, ← thirdFrame_isIdr]
  constructor
  · rintro ⟨frame, member, isIdr⟩
    simp only [List.mem_cons, List.not_mem_nil, or_false, EncData.video.injEq, and_true] at member
    rcases member with rfl | rfl | rfl
    · have isIdr := (isIdrFrame_iff sps []).mp (by rwa [List.append_nil])
      exact absurd (spsType.symm.trans isIdr) (by decide)
    · have isIdr := (isIdrFrame_iff pps []).mp (by rwa [List.append_nil])
      exact absurd (ppsType.symm.trans isIdr) (by decide)
    · exact isIdr
  · intro isIdr
    exact ⟨thirdFrame units, by simp, isIdr⟩

/-- Behind a unit of supplemental information with a start code of four bytes, the slice is lost. -/
theorem keyframe_slice_queued_iff_sei :
    let sps : Nal := ⟨true, [0x67, 66, 0, 30], by decide, by decide, by decide⟩
    let pps : Nal := ⟨true, [0x68, 0xce], by decide, by decide, by decide⟩
    let sei : Nal := ⟨true, [0x06, 5], by decide, by decide, by decide⟩
    let idr : Nal := ⟨true, [0x65, 0x88], by decide, by decide, by decide⟩
    let push' := ({ sound := ⟨10, 3, 1, 0⟩ } : AnyRtmpPush).setH264Data ([sps, pps, sei, idr].flatMap Nal.bytes) 0
    push'.pushing = [.video sps.bytes 0, .video pps.bytes 0, .video (thirdFrame [sei, idr]) 0] ∧
      ((∃ frame, .video frame 0 ∈ push'.pushing ∧ IsIdrFrame frame) ↔ SliceInPlace [sei, idr]) :=
  keyframe_slice_queued_iff rfl rfl rfl (List.cons_ne_nil _ _) _ 0

end AdTerminal.Live
