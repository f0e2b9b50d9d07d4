import AdTerminal.Live.TagDemuxing
import Mathlib.Data.List.Infix

/-! The units that the demuxer finds behind start codes, and those it finds in a frame whose length begins with
a start code. -/

namespace AdTerminal.Live

open Rtmp SrsAvcAacCodec

/-- No start code begins anywhere in these bytes. -/
def CodeFree (bytes : List UInt8) : Prop :=
  ¬ [0, 0, 1] <:+: bytes

theorem codeFree_nil : CodeFree [] :=
  fun inside => absurd (List.IsInfix.length_le inside) (by decide)

theorem startsWith_code (rest : List UInt8) : (srsAvcStartswithAnnexb (0 :: 0 :: 1 :: rest)).isSome :=
  rfl

/-- A start code has three bytes or more. -/
theorem startsWith_three {bytes : List UInt8} {k : Nat} (starts : srsAvcStartswithAnnexb bytes = some k) :
    3 ≤ k ∧ k ≤ bytes.length := by
  induction bytes generalizing k with
  | nil => nomatch starts
  | cons b0 bytes ih =>
    match bytes with
    | [] => nomatch starts
    | [_] => nomatch starts
    | b1 :: b2 :: rest =>
      rw [srsAvcStartswithAnnexb] at starts
      split_ifs at starts with other one
      · cases starts
        exact ⟨le_rfl, by simp⟩
      · obtain ⟨k', later, rfl⟩ := Option.map_eq_some_iff.mp starts
        obtain ⟨three, inside⟩ := ih later
        rw [List.length_cons]
        omega

/-- The unit up to the next start code. -/
theorem untilAnnexb_parts (bytes : List UInt8) :
    (untilAnnexb bytes).1 ++ (untilAnnexb bytes).2 = bytes ∧ CodeFree (untilAnnexb bytes).1 ∧
      ((untilAnnexb bytes).2 = [] ∨ (srsAvcStartswithAnnexb (untilAnnexb bytes).2).isSome) := by
  induction bytes with
  | nil => exact ⟨rfl, codeFree_nil, .inl rfl⟩
  | cons b bytes ih =>
    obtain ⟨parts, free, next⟩ := ih
    rw [untilAnnexb]
    by_cases starts : (srsAvcStartswithAnnexb (b :: bytes)).isSome = true
    · rw [if_pos starts]
      exact ⟨rfl, codeFree_nil, .inr starts⟩
    · rw [if_neg starts]
      refine ⟨congrArg (b :: ·) parts, fun inside => ?_, next⟩
      rcases List.infix_cons_iff.mp inside with ⟨rest, first⟩ | later
      · refine starts ?_
        have whole : b :: bytes = 0 :: 0 :: 1 :: (rest ++ (untilAnnexb bytes).2) := by
          calc
            b :: bytes = (b :: (untilAnnexb bytes).1) ++ (untilAnnexb bytes).2 := congrArg (b :: ·) parts.symm
            _ = ([0, 0, 1] ++ rest) ++ (untilAnnexb bytes).2 := congrArg (· ++ _) first.symm
            _ = 0 :: 0 :: 1 :: (rest ++ (untilAnnexb bytes).2) := rfl
        rw [whole]
        exact startsWith_code _
      · exact free later

/-- The units that were found, and that one of them is a slice of a key frame. -/
def withUnits (sample : SrsCodecSample) (units : List (List UInt8)) : SrsCodecSample :=
  { sample with
    sampleUnits := sample.sampleUnits ++ units
    hasIdr := sample.hasIdr || units.any fun unit => sample.isVideo && nalUnitType unit == naluTypeIDR }

theorem withUnits_nil (sample : SrsCodecSample) : withUnits sample [] = sample := by
  rw [withUnits, List.append_nil, List.any_nil, Bool.or_false]

theorem addSampleUnit_ok {sample sample' : SrsCodecSample} {unit : List UInt8}
    (added : sample.addSampleUnit unit unit.length = .ok sample') : sample' = withUnits sample [unit] := by
  rw [SrsCodecSample.addSampleUnit] at added
  split_ifs at added
  rw [List.take_length] at added
  cases added
  rw [withUnits, List.any_cons, List.any_nil, Bool.or_false]

theorem withUnits_append (sample : SrsCodecSample) (first second : List (List UInt8)) :
    withUnits (withUnits sample first) second = withUnits sample (first ++ second) := by
  simp only [withUnits, List.append_assoc, List.any_append, Bool.or_assoc]

/-- The units that are found behind start codes. -/
theorem annexbUnits_ok {fuel : Nat} {bytes : List UInt8} {sample sample' : SrsCodecSample}
    (found : annexbUnits fuel bytes sample = .ok sample') :
    ∃ units, sample' = withUnits sample units ∧
      ∀ unit ∈ units, unit ≠ [] ∧ CodeFree unit ∧ unit.length + 3 ≤ bytes.length := by
  induction fuel generalizing bytes sample with
  | zero =>
    cases found
    exact ⟨[], (withUnits_nil _).symm, fun unit member => absurd member List.not_mem_nil⟩
  | succ fuel ih =>
    rw [annexbUnits] at found
    cases starts : srsAvcStartswithAnnexb bytes with
    | none =>
      rw [starts] at found
      cases found
      exact ⟨[], (withUnits_nil _).symm, fun unit member => absurd member List.not_mem_nil⟩
    | some startCode =>
      obtain ⟨three, inside⟩ := startsWith_three starts
      obtain ⟨parts, free, -⟩ := untilAnnexb_parts (bytes.drop startCode)
      have total := congrArg List.length parts
      rw [List.length_append, List.length_drop] at total
      rw [starts] at found
      dsimp only at found
      have shorter : ∀ unit : List UInt8, unit.length + 3 ≤ (untilAnnexb (bytes.drop startCode)).2.length →
          unit.length + 3 ≤ bytes.length := fun unit small => by omega
      by_cases empty : (untilAnnexb (bytes.drop startCode)).1 = []
      · rw [if_pos empty] at found
        obtain ⟨units, same, within⟩ := ih found
        exact ⟨units, same, fun unit member =>
          ⟨(within unit member).1, (within unit member).2.1, shorter unit (within unit member).2.2⟩⟩
      · rw [if_neg empty] at found
        cases added : sample.addSampleUnit (untilAnnexb (bytes.drop startCode)).1
            (untilAnnexb (bytes.drop startCode)).1.length with
        | error e =>
          rw [added] at found
          cases found
        | ok sample'' =>
          rw [added] at found
          obtain ⟨units, same, within⟩ := ih found
          refine ⟨(untilAnnexb (bytes.drop startCode)).1 :: units, ?_, fun unit member => ?_⟩
          · rw [same, addSampleUnit_ok added, withUnits_append]
            rfl
          · rcases List.mem_cons.mp member with rfl | member
            · exact ⟨empty, free, by omega⟩
            · exact ⟨(within unit member).1, (within unit member).2.1, shorter unit (within unit member).2.2⟩

/-- What is found of a frame whose length begins with a start code: never a unit of the frame's own length. -/
structure Mistaken (length : Nat) (unit : List UInt8) : Prop where
  nonempty : unit ≠ []
  free : CodeFree unit
  size : unit.length = length + 1 ∨ unit.length + 2 ≤ length

theorem annexbUnits_mistaken {fuel : Nat} (b : UInt8) {nalu : List UInt8} {sample sample' : SrsCodecSample}
    (found : annexbUnits fuel (0 :: 0 :: 1 :: b :: nalu) sample = .ok sample') :
    ∃ units, sample' = withUnits sample units ∧ ∀ unit ∈ units, Mistaken nalu.length unit := by
  cases fuel with
  | zero =>
    cases found
    exact ⟨[], (withUnits_nil _).symm, fun unit member => absurd member List.not_mem_nil⟩
  | succ fuel =>
    have starts : srsAvcStartswithAnnexb (0 :: 0 :: 1 :: b :: nalu) = some 3 := rfl
    have behind : (0 :: 0 :: 1 :: b :: nalu).drop 3 = b :: nalu := rfl
    rw [annexbUnits, starts] at found
    dsimp only at found
    rw [behind] at found
    obtain ⟨parts, free, next⟩ := untilAnnexb_parts (b :: nalu)
    have total := congrArg List.length parts
    rw [List.length_append, List.length_cons] at total
    have long : (untilAnnexb (b :: nalu)).2 = [] ∨ 3 ≤ (untilAnnexb (b :: nalu)).2.length := by
      rcases next with none_left | starts
      · exact .inl none_left
      · obtain ⟨k, code⟩ := Option.isSome_iff_exists.mp starts
        obtain ⟨three, inside⟩ := startsWith_three code
        exact .inr (by omega)
    have later : ∀ unit : List UInt8, unit ≠ [] ∧ CodeFree unit ∧ unit.length + 3 ≤ (untilAnnexb (b :: nalu)).2.length →
        Mistaken nalu.length unit := fun unit within => ⟨within.1, within.2.1, .inr (by omega)⟩
    by_cases empty : (untilAnnexb (b :: nalu)).1 = []
    · rw [if_pos empty] at found
      obtain ⟨units, same, within⟩ := annexbUnits_ok found
      exact ⟨units, same, fun unit member => later unit (within unit member)⟩
    · rw [if_neg empty] at found
      cases added : sample.addSampleUnit (untilAnnexb (b :: nalu)).1 (untilAnnexb (b :: nalu)).1.length with
      | error e =>
        rw [added] at found
        cases found
      | ok sample'' =>
        rw [added] at found
        obtain ⟨units, same, within⟩ := annexbUnits_ok found
        refine ⟨(untilAnnexb (b :: nalu)).1 :: units, ?_, fun unit member => ?_⟩
        · rw [same, addSampleUnit_ok added, withUnits_append]
          rfl
        · rcases List.mem_cons.mp member with rfl | member
          · refine ⟨empty, free, ?_⟩
            rcases long with none_left | three
            · rw [none_left, List.length_nil] at total
              exact .inl (by omega)
            · exact .inr (by omega)
          · exact later unit (within unit member)

theorem annexbUnits_error {fuel : Nat} {bytes : List UInt8} {sample : SrsCodecSample} {e : AvcError}
    (fails : annexbUnits fuel bytes sample = .error e) : e = .hlsDecodeError := by
  induction fuel generalizing bytes sample with
  | zero => cases fails
  | succ fuel ih =>
    rw [annexbUnits] at fails
    cases starts : srsAvcStartswithAnnexb bytes with
    | none =>
      rw [starts] at fails
      cases fails
    | some startCode =>
      rw [starts] at fails
      dsimp only at fails
      split at fails
      · exact ih fails
      · split at fails
        next e' added =>
          rw [SrsCodecSample.addSampleUnit] at added
          split_ifs at added
          cases added
          cases fails
          rfl
        next sample' added => exact ih fails

end AdTerminal.Live
