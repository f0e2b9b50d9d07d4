import Mathlib.Data.Int.Log
import Mathlib.Data.Rat.Floor
import Mathlib.Tactic.FieldSimp
import Mathlib.Tactic.Linarith
import Mathlib.Tactic.NormNum
import Mathlib.Tactic.Positivity
import Mathlib.Tactic.Ring

/-! Binary floating point with 24 significant bits, as exact rational values: rounding to
nearest with ties to even, and truncation to a 32-bit integer. The exponent is left
unbounded, so the results are those of a 32-bit float wherever that neither overflows nor
becomes subnormal. -/

namespace AdTerminal.Binary32

def roundEven (x : ℚ) : ℤ :=
  if x - ⌊x⌋ < 1 / 2 then ⌊x⌋
  else if 1 / 2 < x - ⌊x⌋ then ⌊x⌋ + 1
  else ⌊x⌋ + ⌊x⌋ % 2

/-- The exponent of the last of the 24 significant bits. -/
def place (x : ℚ) : ℤ := Int.log 2 |x| - 23

def round (x : ℚ) : ℚ := roundEven (x / 2 ^ place x) * 2 ^ place x

/-- The conversion of a value to an integer: towards zero, and within 32 bits. -/
def truncate (x : ℚ) : ℤ := max (-2 ^ 31) (min (2 ^ 31 - 1) (if x < 0 then ⌈x⌉ else ⌊x⌋))

/-- A value that 24 significant bits can hold. -/
def Representable (x : ℚ) : Prop := ∃ m e : ℤ, |m| ≤ 2 ^ 24 ∧ x = m * 2 ^ e

@[simp] theorem roundEven_intCast (k : ℤ) : roundEven (k : ℚ) = k := by
  simp [roundEven]

theorem floor_le_roundEven (x : ℚ) : ⌊x⌋ ≤ roundEven x := by
  unfold roundEven
  split_ifs <;> omega

theorem roundEven_le_floor_add_one (x : ℚ) : roundEven x ≤ ⌊x⌋ + 1 := by
  unfold roundEven
  split_ifs <;> omega

theorem roundEven_mono {x y : ℚ} (le : x ≤ y) : roundEven x ≤ roundEven y := by
  rcases (Int.floor_mono le).lt_or_eq with below | same
  · calc
      roundEven x ≤ ⌊x⌋ + 1 := roundEven_le_floor_add_one x
      _ ≤ ⌊y⌋ := below
      _ ≤ roundEven y := floor_le_roundEven y
  · unfold roundEven
    rw [same]
    split_ifs <;> first | omega | (exfalso; linarith)

theorem roundEven_le_of_lt {x : ℚ} {k : ℤ} (below : x < k + 1 / 2) : roundEven x ≤ k := by
  have floor : (⌊x⌋ : ℚ) ≤ x := Int.floor_le x
  have half : ⌊x⌋ ≤ k := by
    have bound : (⌊x⌋ : ℚ) < k + 1 := by linarith
    exact_mod_cast Int.lt_add_one_iff.mp (by exact_mod_cast bound)
  rcases half.lt_or_eq with less | same
  · exact (roundEven_le_floor_add_one x).trans less
  · unfold roundEven
    rw [if_pos (by rw [same]; linarith)]
    exact half

theorem place_bounds {x : ℚ} (positive : 0 < x) :
    (2 : ℚ) ^ (23 : ℤ) * 2 ^ place x ≤ x ∧ x < (2 : ℚ) ^ (24 : ℤ) * 2 ^ place x := by
  have lower := Int.zpow_log_le_self (b := 2) one_lt_two positive
  have upper := Int.lt_zpow_succ_log_self (b := 2) one_lt_two x
  rw [place, abs_of_pos positive, ← zpow_add₀ two_ne_zero, ← zpow_add₀ two_ne_zero]
  have first : (23 : ℤ) + (Int.log 2 x - 23) = Int.log 2 x := by omega
  have last : (24 : ℤ) + (Int.log 2 x - 23) = Int.log 2 x + 1 := by omega
  rw [first, last]
  exact ⟨by exact_mod_cast lower, by exact_mod_cast upper⟩

theorem place_mono {x y : ℚ} (positive : 0 < x) (le : x ≤ y) : place x ≤ place y := by
  rw [place, place, abs_of_pos positive, abs_of_pos (positive.trans_le le)]
  have logs := Int.log_mono_right (b := 2) positive le
  omega

/-- The significand of a positive value, before it is rounded. -/
theorem significand_bounds {x : ℚ} (positive : 0 < x) :
    (2 : ℚ) ^ (23 : ℤ) ≤ x / 2 ^ place x ∧ x / 2 ^ place x < (2 : ℚ) ^ (24 : ℤ) := by
  have unit : (0 : ℚ) < 2 ^ place x := zpow_pos two_pos _
  have bounds := place_bounds positive
  exact ⟨(le_div_iff₀ unit).mpr bounds.1, (div_lt_iff₀ unit).mpr bounds.2⟩

theorem roundEven_bounds {x : ℚ} (positive : 0 < x) :
    (2 : ℤ) ^ 23 ≤ roundEven (x / 2 ^ place x) ∧ roundEven (x / 2 ^ place x) ≤ (2 : ℤ) ^ 24 := by
  have bounds := significand_bounds positive
  constructor
  · calc
      (2 : ℤ) ^ 23 = roundEven (((2 : ℤ) ^ 23 : ℤ) : ℚ) := (roundEven_intCast _).symm
      _ ≤ _ := roundEven_mono (by push_cast; exact_mod_cast bounds.1)
  · calc
      _ ≤ roundEven (((2 : ℤ) ^ 24 : ℤ) : ℚ) := roundEven_mono (by push_cast; exact_mod_cast bounds.2.le)
      _ = (2 : ℤ) ^ 24 := roundEven_intCast _

theorem round_pos {x : ℚ} (positive : 0 < x) : 0 < round x := by
  have significand : (0 : ℤ) < roundEven (x / 2 ^ place x) := lt_of_lt_of_le (by norm_num) (roundEven_bounds positive).1
  have unit : (0 : ℚ) < 2 ^ place x := zpow_pos two_pos _
  exact mul_pos (by exact_mod_cast significand) unit

theorem round_nonpos {x : ℚ} (nonpos : x ≤ 0) : round x ≤ 0 := by
  have unit : (0 : ℚ) < 2 ^ place x := zpow_pos two_pos _
  have significand : roundEven (x / 2 ^ place x) ≤ 0 := by
    calc
      _ ≤ roundEven ((0 : ℤ) : ℚ) := roundEven_mono (by simpa using div_nonpos_of_nonpos_of_nonneg nonpos unit.le)
      _ = 0 := roundEven_intCast 0
  exact mul_nonpos_of_nonpos_of_nonneg (by exact_mod_cast significand) unit.le

@[simp] theorem round_zero : round 0 = 0 := by
  simp [round, roundEven]

theorem representable_round {x : ℚ} (positive : 0 < x) : Representable (round x) := by
  have bounds := roundEven_bounds positive
  refine ⟨roundEven (x / 2 ^ place x), place x, ?_, rfl⟩
  rw [abs_of_nonneg (le_trans (by norm_num) bounds.1)]
  exact bounds.2

/-- Rounding is monotone: within one binade because ties are, and across binades because
each value stays within its own. -/
theorem round_mono {x y : ℚ} (positive : 0 < x) (le : x ≤ y) : round x ≤ round y := by
  have unit : ∀ z : ℚ, (0 : ℚ) < 2 ^ place z := fun z => zpow_pos two_pos (place z)
  rcases (place_mono positive le).lt_or_eq with below | same
  · have upper : round x ≤ (2 : ℚ) ^ (24 : ℤ) * 2 ^ place x := by
      apply mul_le_mul_of_nonneg_right _ (unit x).le
      exact_mod_cast (roundEven_bounds positive).2
    have lower : (2 : ℚ) ^ (23 : ℤ) * 2 ^ place y ≤ round y := by
      apply mul_le_mul_of_nonneg_right _ (unit y).le
      exact_mod_cast (roundEven_bounds (positive.trans_le le)).1
    have between : (2 : ℚ) ^ (24 : ℤ) * 2 ^ place x ≤ (2 : ℚ) ^ (23 : ℤ) * 2 ^ place y := by
      rw [← zpow_add₀ two_ne_zero, ← zpow_add₀ two_ne_zero]
      exact zpow_le_zpow_right₀ one_le_two (by omega)
    exact upper.trans (between.trans lower)
  · unfold round
    rw [same]
    apply mul_le_mul_of_nonneg_right _ (unit y).le
    exact_mod_cast roundEven_mono (div_le_div_of_nonneg_right le (unit y).le)

/-- A positive representable value in the form rounding produces. -/
theorem Representable.significand {x : ℚ} (held : Representable x) (positive : 0 < x) :
    ∃ k : ℤ, x = k * 2 ^ place x ∧ 2 ^ 23 ≤ k ∧ k < 2 ^ 24 := by
  obtain ⟨m, e, bits, same⟩ := held
  have unit : (0 : ℚ) < 2 ^ place x := zpow_pos two_pos _
  -- `2 ^ 24 * 2 ^ e` is itself in the next binade, which only helps.
  have fits : place x ≤ e ∨ x = (2 : ℚ) ^ (23 : ℤ) * 2 ^ (e + 1) := by
    by_cases full : m = 2 ^ 24
    · right
      rw [same, full, zpow_add₀ two_ne_zero]
      norm_num
      ring
    · left
      have small : m < 2 ^ 24 := lt_of_le_of_ne ((le_abs_self m).trans bits) full
      have below : x < (2 : ℚ) ^ (24 + e) := by
        rw [same, zpow_add₀ two_ne_zero]
        apply mul_lt_mul_of_pos_right _ (zpow_pos two_pos e)
        exact_mod_cast small
      have log := (Int.lt_zpow_iff_log_lt (b := 2) one_lt_two positive).mp below
      rw [place, abs_of_pos positive]
      omega
  have whole : ∃ k : ℤ, x = k * 2 ^ place x := by
    rcases fits with le | equal
    · refine ⟨m * 2 ^ (e - place x).toNat, ?_⟩
      have power : (2 : ℚ) ^ e = 2 ^ (e - place x).toNat * 2 ^ place x := by
        rw [← zpow_natCast, ← zpow_add₀ two_ne_zero]
        congr 1
        omega
      rw [same]
      push_cast
      rw [mul_assoc, ← same, ← power]
      exact same
    · refine ⟨2 ^ 23, ?_⟩
      have exponent : place x = e + 1 := by
        rw [place, abs_of_pos positive, equal, ← zpow_add₀ two_ne_zero]
        have log := Int.log_zpow (R := ℚ) (b := 2) one_lt_two (23 + (e + 1))
        push_cast at log
        rw [log]
        ring
      rw [exponent, equal]
      push_cast
      norm_num
  obtain ⟨k, equal⟩ := whole
  have bounds := place_bounds positive
  refine ⟨k, equal, ?_, ?_⟩
  · have scaled : (2 : ℚ) ^ (23 : ℤ) * 2 ^ place x ≤ k * 2 ^ place x := equal ▸ bounds.1
    exact_mod_cast le_of_mul_le_mul_right scaled unit
  · have scaled : (k : ℚ) * 2 ^ place x < (2 : ℚ) ^ (24 : ℤ) * 2 ^ place x := equal ▸ bounds.2
    exact_mod_cast lt_of_mul_lt_mul_right scaled unit.le

theorem round_of_representable {x : ℚ} (held : Representable x) (positive : 0 < x) : round x = x := by
  obtain ⟨k, equal, -, -⟩ := held.significand positive
  have unit : (0 : ℚ) < 2 ^ place x := zpow_pos two_pos _
  have whole : x / 2 ^ place x = k := by
    rw [div_eq_iff unit.ne']
    exact equal
  rw [round, whole, roundEven_intCast]
  exact equal.symm

theorem representable_natCast {n : ℕ} (small : n ≤ 2 ^ 24) : Representable (n : ℚ) :=
  ⟨n, 0, by rw [abs_of_nonneg (by positivity)]; exact_mod_cast small, by simp⟩

/-- A counter of at most `2 ^ 24` is converted without loss. -/
theorem round_natCast {n : ℕ} (small : n ≤ 2 ^ 24) : round (n : ℚ) = n := by
  rcases Nat.eq_zero_or_pos n with rfl | positive
  · simp
  · exact round_of_representable (representable_natCast small) (by exact_mod_cast positive)

theorem round_le {x y : ℚ} (positive : 0 < x) (le : x ≤ y) (held : Representable y) : round x ≤ y :=
  (round_mono positive le).trans_eq (round_of_representable held (positive.trans_le le))

theorem le_round {x y : ℚ} (positive : 0 < x) (le : x ≤ y) (held : Representable x) : x ≤ round y :=
  (round_of_representable held positive).symm.trans_le (round_mono positive le)

/-- Two different values of 24 bits are at least one part in `2 ^ 24` apart. -/
theorem Representable.gap {x y : ℚ} (first : Representable x) (second : Representable y) (positive : 0 < x)
    (less : x < y) : x ≤ y * ((2 ^ 24 - 1) / 2 ^ 24) := by
  obtain ⟨k, left, -, small⟩ := first.significand positive
  obtain ⟨m, right, large, small'⟩ := second.significand (positive.trans less)
  have unit : (0 : ℚ) < 2 ^ place x := zpow_pos two_pos _
  have top : (k : ℚ) ≤ 2 ^ 24 - 1 := by exact_mod_cast Int.le_sub_one_of_lt small
  have bottom : (2 : ℚ) ^ 23 ≤ m := by exact_mod_cast large
  have upper : (m : ℚ) < 2 ^ 24 := by exact_mod_cast small'
  rcases (place_mono positive less.le).lt_or_eq with below | same
  · -- `x` lies in a lower binade, and `y` is at least twice the start of that one.
    have double : 2 * (2 : ℚ) ^ place x ≤ 2 ^ place y := by
      rw [← zpow_one_add₀ two_ne_zero]
      exact zpow_le_zpow_right₀ one_le_two (by omega)
    calc
      x = k * 2 ^ place x := left
      _ ≤ (2 ^ 24 - 1) * 2 ^ place x := mul_le_mul_of_nonneg_right top unit.le
      _ = 2 ^ 23 * (2 * 2 ^ place x) * ((2 ^ 24 - 1) / 2 ^ 24) := by ring
      _ ≤ m * 2 ^ place y * ((2 ^ 24 - 1) / 2 ^ 24) := by gcongr
      _ = y * ((2 ^ 24 - 1) / 2 ^ 24) := by rw [← right]
  · rw [← same] at right
    have order : k < m := by
      rw [left, right] at less
      exact_mod_cast lt_of_mul_lt_mul_right less unit.le
    have step : (k : ℚ) ≤ m - 1 := by exact_mod_cast Int.le_sub_one_of_lt order
    calc
      x = k * 2 ^ place x := left
      _ ≤ (m - 1) * 2 ^ place x := mul_le_mul_of_nonneg_right step unit.le
      _ ≤ m * ((2 ^ 24 - 1) / 2 ^ 24) * 2 ^ place x := by
        apply mul_le_mul_of_nonneg_right _ unit.le
        linarith
      _ = m * 2 ^ place x * ((2 ^ 24 - 1) / 2 ^ 24) := by ring
      _ = y * ((2 ^ 24 - 1) / 2 ^ 24) := by rw [← right]

/-- The quotient of two different values stays below one after rounding. -/
theorem round_div_le {x y : ℚ} (first : Representable x) (second : Representable y) (positive : 0 < x)
    (less : x < y) : round (x / y) ≤ (2 ^ 24 - 1) / 2 ^ 24 := by
  have divisor := positive.trans less
  apply round_le (div_pos positive divisor)
  · rw [div_le_iff₀ divisor, mul_comm]
    exact first.gap second positive less
  · refine ⟨2 ^ 24 - 1, -24, by norm_num, ?_⟩
    norm_num [zpow_neg]

/-- A hundred times a rounded quotient below one is below a hundred, and stays so. -/
theorem round_hundred_lt {x : ℚ} (positive : 0 < x) (le : x ≤ (2 ^ 24 - 1) / 2 ^ 24) :
    round (x * 100) < 100 := by
  have scaled : 0 < x * 100 := by positivity
  by_cases small : x * 100 ≤ 64
  · have bound := round_le scaled small ⟨64, 0, by norm_num, by norm_num⟩
    linarith
  · have lower : ((2 : ℕ) : ℚ) ^ (6 : ℤ) ≤ x * 100 := by
      norm_num at small ⊢
      linarith
    have upper : x * 100 < ((2 : ℕ) : ℚ) ^ (7 : ℤ) := by
      norm_num at le ⊢
      linarith
    have above := (Int.zpow_le_iff_le_log (b := 2) one_lt_two scaled).mp lower
    have below := (Int.lt_zpow_iff_log_lt (b := 2) one_lt_two scaled).mp upper
    have exponent : place (x * 100) = -17 := by
      rw [place, abs_of_pos scaled]
      omega
    have significand : roundEven (x * 100 / 2 ^ (-17 : ℤ)) ≤ 13107199 := by
      apply roundEven_le_of_lt
      norm_num [zpow_neg] at le ⊢
      linarith
    have cast : (roundEven (x * 100 / 2 ^ (-17 : ℤ)) : ℚ) ≤ 13107199 := by exact_mod_cast significand
    rw [round, exponent]
    calc
      _ ≤ (13107199 : ℚ) * 2 ^ (-17 : ℤ) := mul_le_mul_of_nonneg_right cast (zpow_pos two_pos _).le
      _ < 100 := by norm_num [zpow_neg]

theorem truncate_lt {x : ℚ} {k : ℤ} (nonneg : 0 ≤ x) (less : x < k) (large : -2 ^ 31 < k) :
    truncate x < k := by
  have floor : ⌊x⌋ < k := Int.floor_lt.mpr less
  rw [truncate, if_neg nonneg.not_gt]
  omega

theorem le_truncate {x : ℚ} {k : ℤ} (nonneg : 0 ≤ k) (le : k ≤ x) (small : k < 2 ^ 31) : k ≤ truncate x := by
  have floor : k ≤ ⌊x⌋ := Int.le_floor.mpr le
  have sign : ¬ x < 0 := by
    have lower : (0 : ℚ) ≤ k := by exact_mod_cast nonneg
    linarith
  rw [truncate, if_neg sign]
  omega

end AdTerminal.Binary32
