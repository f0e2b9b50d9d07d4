import Mathlib.Data.List.Induction
import Mathlib.Tactic.SplitIfs

/-! How the encoder's bit rate follows the delay of the network. Rates are multiplied in 32 bits. -/

namespace AdTerminal.Live

structure VH264Encoder where
  videoBitrate : Int32 := 768
  delayMs : Int := 0
  adjustVBitrate : Int32 := 768
  deriving DecidableEq, Repr

namespace VH264Encoder

def setRates (bitrate : Int32) (encoder : VH264Encoder) : VH264Encoder :=
  { encoder with videoBitrate := bitrate }

def setAutoAdjustBit (enabled : Bool) (encoder : VH264Encoder) : VH264Encoder :=
  if enabled then { encoder with adjustVBitrate := encoder.videoBitrate } else encoder

/-- A level of delay, and its rate. -/
def atLevel (level : Int) (bitrate : Int32) (encoder : VH264Encoder) : VH264Encoder :=
  { encoder with delayMs := level }.setRates bitrate

def setNetDelay (encoder : VH264Encoder) (delayMs : Int) : VH264Encoder :=
  if 0 ≤ delayMs ∧ delayMs < 3000 then
    if encoder.delayMs ≠ 0 ∧ delayMs ≤ 1000 then encoder.atLevel 0 encoder.adjustVBitrate else encoder
  else if 3000 ≤ delayMs ∧ delayMs < 5000 then
    if encoder.delayMs = 0 then encoder.atLevel 3000 (encoder.adjustVBitrate * 3 / 4)
    else if 5000 ≤ encoder.delayMs ∧ delayMs ≤ 4000 then encoder.atLevel 3000 (encoder.adjustVBitrate * 3 / 4)
    else encoder
  else if 5000 ≤ delayMs ∧ delayMs < 10000 then
    if encoder.delayMs ≤ 3000 then encoder.atLevel 5000 (encoder.adjustVBitrate / 2)
    else if 10000 ≤ encoder.delayMs ∧ delayMs ≤ 7000 then encoder.atLevel 5000 (encoder.adjustVBitrate / 2)
    else encoder
  else if 10000 ≤ delayMs then
    if encoder.delayMs ≤ 5000 then encoder.atLevel 10000 (encoder.adjustVBitrate / 3) else encoder
  else encoder

/-- The encoder is at one of its four rates. -/
inductive AtRate (bitrate : Int32) (encoder : VH264Encoder) : Prop
  | whole (level : encoder.delayMs = 0) (rate : encoder.videoBitrate = bitrate)
  | threeQuarters (level : encoder.delayMs = 3000) (rate : encoder.videoBitrate = bitrate * 3 / 4)
  | half (level : encoder.delayMs = 5000) (rate : encoder.videoBitrate = bitrate / 2)
  | third (level : encoder.delayMs = 10000) (rate : encoder.videoBitrate = bitrate / 3)

theorem AtRate.levels {bitrate : Int32} {encoder : VH264Encoder} (atRate : encoder.AtRate bitrate) :
    encoder.delayMs = 0 ∨ encoder.delayMs = 3000 ∨ encoder.delayMs = 5000 ∨ encoder.delayMs = 10000 := by
  cases atRate with
  | whole level => exact .inl level
  | threeQuarters level => exact .inr (.inl level)
  | half level => exact .inr (.inr (.inl level))
  | third level => exact .inr (.inr (.inr level))

/-- The delays at which a level is left again. A delay between two of their ranges leaves none. -/
def Releases (level delayMs : Int) : Prop :=
  0 ≤ delayMs ∧ delayMs ≤ 1000 ∨ 3000 < level ∧ 3000 ≤ delayMs ∧ delayMs ≤ 4000 ∨
    5000 < level ∧ 5000 ≤ delayMs ∧ delayMs ≤ 7000

/-- The level was reached and has not been left since. -/
def Reached (level : Int) (delays : List Int) : Prop :=
  ∃ before delayMs after, delays = before ++ delayMs :: after ∧ level ≤ delayMs ∧ ∀ later ∈ after, ¬ Releases level later

theorem not_reached_nil (level : Int) : ¬ Reached level [] := by
  rintro ⟨before, delayMs, after, split, -⟩
  exact List.append_ne_nil_of_right_ne_nil before (List.cons_ne_nil delayMs after) split.symm

/-- One delay more. -/
theorem reached_concat (level : Int) (delays : List Int) (delayMs : Int) :
    Reached level (delays ++ [delayMs]) ↔ level ≤ delayMs ∨ Reached level delays ∧ ¬ Releases level delayMs := by
  constructor
  · rintro ⟨before, first, after, split, reached, kept⟩
    rcases List.eq_nil_or_concat after with rfl | ⟨after, last, same⟩
    · obtain ⟨rfl, same⟩ := List.append_inj' split rfl
      cases same
      exact .inl reached
    · rw [List.concat_eq_append] at same
      subst same
      rw [← List.cons_append, ← List.append_assoc] at split
      obtain ⟨rfl, same⟩ := List.append_inj' split rfl
      cases same
      refine .inr ⟨⟨before, first, after, rfl, reached, fun later member => ?_⟩, ?_⟩
      · exact kept later (List.mem_append_left _ member)
      · exact kept delayMs (List.mem_append_right _ List.mem_cons_self)
  · rintro (reached | ⟨⟨before, first, after, rfl, reached, kept⟩, stays⟩)
    · exact ⟨delays, delayMs, [], rfl, reached, fun later member => absurd member List.not_mem_nil⟩
    · refine ⟨before, first, after ++ [delayMs], by rw [List.append_assoc, List.cons_append], reached, ?_⟩
      intro later member
      rcases List.mem_append.mp member with earlier | last
      · exact kept later earlier
      · rwa [List.mem_singleton.mp last]

/-- A level is that of a rate. -/
def IsLevel (level : Int) : Prop :=
  level = 3000 ∨ level = 5000 ∨ level = 10000

/-- A delay either reaches a level, or leaves it, or lets it be. -/
theorem setNetDelay_level {bitrate : Int32} {encoder : VH264Encoder} (atRate : encoder.AtRate bitrate) (delayMs : Int)
    {level : Int} (isLevel : IsLevel level) :
    level ≤ (encoder.setNetDelay delayMs).delayMs ↔
      level ≤ delayMs ∨ level ≤ encoder.delayMs ∧ ¬ Releases level delayMs := by
  have levels := atRate.levels
  unfold IsLevel at isLevel
  unfold setNetDelay Releases
  split_ifs <;> try dsimp only [atLevel, setRates]
  all_goals omega

theorem setNetDelay_atRate {bitrate : Int32} {encoder : VH264Encoder} (atRate : encoder.AtRate bitrate)
    (adjusted : encoder.adjustVBitrate = bitrate) (delayMs : Int) : (encoder.setNetDelay delayMs).AtRate bitrate := by
  subst adjusted
  unfold setNetDelay
  split_ifs
  · exact .whole rfl rfl
  · exact atRate
  · exact .threeQuarters rfl rfl
  · exact .threeQuarters rfl rfl
  · exact atRate
  · exact .half rfl rfl
  · exact .half rfl rfl
  · exact atRate
  · exact .third rfl rfl
  · exact atRate
  · exact atRate

theorem setNetDelay_adjustVBitrate (encoder : VH264Encoder) (delayMs : Int) :
    (encoder.setNetDelay delayMs).adjustVBitrate = encoder.adjustVBitrate := by
  unfold setNetDelay
  split_ifs <;> rfl

/-- The encoder that adjusts its rate from this one on. -/
def adjusting (bitrate : Int32) : VH264Encoder :=
  (({} : VH264Encoder).setRates bitrate).setAutoAdjustBit true

/-- The encoder is at its rate after any delays, and at the levels that were reached. -/
theorem adjusted (bitrate : Int32) (delays : List Int) :
    (delays.foldl setNetDelay (adjusting bitrate)).adjustVBitrate = bitrate ∧
      (delays.foldl setNetDelay (adjusting bitrate)).AtRate bitrate ∧
      ∀ level, IsLevel level → (level ≤ (delays.foldl setNetDelay (adjusting bitrate)).delayMs ↔ Reached level delays) := by
  induction delays using List.reverseRecOn with
  | nil =>
    refine ⟨rfl, .whole rfl rfl, fun level isLevel => iff_of_false (fun low => ?_) (not_reached_nil level)⟩
    have zero : level ≤ 0 := low
    unfold IsLevel at isLevel
    omega
  | append_singleton delays delayMs ih =>
    obtain ⟨rate, atRate, levels⟩ := ih
    rw [List.foldl_append, List.foldl_cons, List.foldl_nil]
    have same := setNetDelay_adjustVBitrate (delays.foldl setNetDelay (adjusting bitrate)) delayMs
    refine ⟨same.trans rate, setNetDelay_atRate atRate rate delayMs, fun level isLevel => ?_⟩
    rw [setNetDelay_level atRate delayMs isLevel, levels level isLevel, reached_concat]

/-- Up to a third of what 32 bits hold, the product does not overflow. -/
theorem threeQuarters_toInt {bitrate : Int32} (positive : 0 ≤ bitrate.toInt) (small : bitrate.toInt * 3 < 2147483648) :
    (bitrate * 3 / 4).toInt = bitrate.toInt * 3 / 4 := by
  have product : (bitrate * 3).toInt = bitrate.toInt * 3 := by
    have low : -(((4294967296 : Nat) : Int) / 2) ≤ bitrate.toInt * 3 := by omega
    have high : bitrate.toInt * 3 < (((4294967296 : Nat) : Int) + 1) / 2 := by omega
    exact (Int32.toInt_mul bitrate 3).trans (Int.bmod_eq_of_le low high)
  rw [Int32.toInt_div_of_ne_right _ _ (by decide), product]
  exact Int.tdiv_eq_ediv_of_nonneg (by omega)

end VH264Encoder

/-- Whatever delays the network has had, the rate is that of the highest level that was reached and not left since. -/
theorem rate_follows_delay (bitrate : Int32) (delays : List Int) :
    let encoder : VH264Encoder := delays.foldl VH264Encoder.setNetDelay (VH264Encoder.adjusting bitrate)
    let reached : Int → Prop := fun level => VH264Encoder.Reached level delays
    (reached 10000 → encoder.videoBitrate = bitrate / 3) ∧
      (reached 5000 ∧ ¬ reached 10000 → encoder.videoBitrate = bitrate / 2) ∧
      (reached 3000 ∧ ¬ reached 5000 ∧ ¬ reached 10000 → encoder.videoBitrate = bitrate * 3 / 4) ∧
      (¬ reached 3000 ∧ ¬ reached 5000 ∧ ¬ reached 10000 → encoder.videoBitrate = bitrate) := by
  obtain ⟨-, atRate, levels⟩ := VH264Encoder.adjusted bitrate delays
  have first := levels 3000 (.inl rfl)
  have second := levels 5000 (.inr (.inl rfl))
  have last := levels 10000 (.inr (.inr rfl))
  dsimp only
  rw [← first, ← second, ← last]
  -- at each level one of the four conditions is met
  cases atRate with
  | whole level rate | threeQuarters level rate | half level rate | third level rate =>
    rw [level, rate]
    refine ⟨fun met => ?_, fun met => ?_, fun met => ?_, fun met => ?_⟩ <;> first | rfl | exact absurd met (by decide)

/-- A delay of two seconds keeps the encoder at half its rate, where one of three and a half does not. -/
example : ([5000, 2000].foldl VH264Encoder.setNetDelay (VH264Encoder.adjusting 768)).videoBitrate = 384 ∧
    ([5000, 3500].foldl VH264Encoder.setNetDelay (VH264Encoder.adjusting 768)).videoBitrate = 576 := by
  decide

end AdTerminal.Live
