import Mathlib.Data.Int.Log
import Mathlib.Data.Rat.Floor
import Mathlib.Tactic.FieldSimp
import Mathlib.Tactic.Linarith
import Mathlib.Tactic.Positivity
import Mathlib.Tactic.Ring

set_option autoImplicit false

/-! Rounding to a binary floating-point format: to the nearest number, ties to even. A
format has no greatest number here; overflow is left to those who use it. -/

namespace Rounding

/-! ### The nearest integer -/

/-- The nearest integer, the even one of two. -/
def nearestEven (x : ℚ) : ℤ :=
  let below := ⌊x⌋
  let rest := x - below
  if rest < 1 / 2 then below
  else if 1 / 2 < rest then below + 1
  else if below % 2 = 0 then below
  else below + 1

theorem nearestEven_cases (x : ℚ) :
    nearestEven x = ⌊x⌋ ∧ x - ⌊x⌋ ≤ 1 / 2 ∨ nearestEven x = ⌊x⌋ + 1 ∧ 1 / 2 ≤ x - ⌊x⌋ := by
  unfold nearestEven
  dsimp only
  split_ifs with low high even
  · exact .inl ⟨rfl, le_of_lt low⟩
  · exact .inr ⟨rfl, le_of_lt high⟩
  · exact .inl ⟨rfl, not_lt.mp high⟩
  · exact .inr ⟨rfl, not_lt.mp low⟩

theorem nearestEven_near (x : ℚ) : |(nearestEven x : ℚ) - x| ≤ 1 / 2 := by
  have below := Int.floor_le x
  have above := Int.lt_floor_add_one x
  rw [abs_le]
  rcases nearestEven_cases x with ⟨same, rest⟩ | ⟨same, rest⟩
  · rw [same]
    constructor <;> linarith
  · rw [same]
    push_cast
    constructor <;> linarith

theorem nearestEven_intCast (n : ℤ) : nearestEven n = n := by
  rcases nearestEven_cases n with ⟨same, _⟩ | ⟨_, rest⟩
  · rw [same, Int.floor_intCast]
  · rw [Int.floor_intCast, sub_self] at rest
    linarith

/-- Less than a half is rounded off. -/
theorem nearestEven_of_lt {x : ℚ} {n : ℤ} (above : n ≤ x) (half : x - n < 1 / 2) :
    nearestEven x = n := by
  have floor : ⌊x⌋ = n := Int.floor_eq_iff.mpr ⟨above, by linarith⟩
  unfold nearestEven
  dsimp only
  rw [floor, if_pos half]

theorem nearestEven_neg (x : ℚ) : nearestEven (-x) = -nearestEven x := by
  by_cases whole : x = ⌊x⌋
  · rw [whole, ← Int.cast_neg, nearestEven_intCast, nearestEven_intCast]
  · have below : (⌊x⌋ : ℚ) < x := lt_of_le_of_ne (Int.floor_le x) (Ne.symm whole)
    have above := Int.lt_floor_add_one x
    have floor : ⌊-x⌋ = -⌊x⌋ - 1 := by
      apply Int.floor_eq_iff.mpr
      push_cast
      constructor <;> linarith
    unfold nearestEven
    dsimp only
    rw [floor]
    -- The fraction is what the other one leaves of a whole.
    push_cast
    split_ifs <;> first | omega | (exfalso; linarith)

theorem nearestEven_mono {x y : ℚ} (ordered : x ≤ y) : nearestEven x ≤ nearestEven y := by
  have floors : ⌊x⌋ ≤ ⌊y⌋ := Int.floor_le_floor ordered
  by_cases same : ⌊x⌋ = ⌊y⌋
  · unfold nearestEven
    dsimp only
    rw [same]
    -- The fractions are ordered as the numbers are.
    split_ifs <;> first | omega | (exfalso; linarith)
  · rcases nearestEven_cases x with ⟨left, _⟩ | ⟨left, _⟩ <;>
      rcases nearestEven_cases y with ⟨right, _⟩ | ⟨right, _⟩ <;> omega

/-! ### Rounding at a place -/

theorem two_zpow_pos (k : ℤ) : (0 : ℚ) < 2 ^ k := zpow_pos (by norm_num) k

/-- Rounding to a multiple of a power of two. -/
def roundAt (place : ℤ) (x : ℚ) : ℚ := nearestEven (x / 2 ^ place) * 2 ^ place

section Place

variable {place : ℤ} {x y : ℚ}

theorem roundAt_near (place : ℤ) (x : ℚ) : |roundAt place x - x| ≤ 2 ^ (place - 1) := by
  have unit := two_zpow_pos place
  have near := nearestEven_near (x / 2 ^ place)
  have scaled : roundAt place x - x =
      ((nearestEven (x / 2 ^ place) : ℚ) - x / 2 ^ place) * 2 ^ place := by
    unfold roundAt
    field_simp
  rw [scaled, abs_mul, abs_of_pos unit, zpow_sub_one₀ (by norm_num)]
  calc _ ≤ 1 / 2 * (2 : ℚ) ^ place := mul_le_mul_of_nonneg_right near unit.le
    _ = 2 ^ place * 2⁻¹ := by ring

theorem roundAt_mono (place : ℤ) (ordered : x ≤ y) : roundAt place x ≤ roundAt place y := by
  have unit := two_zpow_pos place
  have integers : (nearestEven (x / 2 ^ place) : ℚ) ≤ nearestEven (y / 2 ^ place) := by
    exact_mod_cast nearestEven_mono (div_le_div_of_nonneg_right ordered unit.le)
  exact mul_le_mul_of_nonneg_right integers unit.le

/-- Multiples of a higher power are multiples of this one. -/
theorem roundAt_multiple {e : ℤ} (higher : place ≤ e) (n : ℤ) :
    roundAt place (n * 2 ^ e) = n * 2 ^ e := by
  obtain ⟨k, rfl⟩ := Int.le.dest higher
  have unit := (two_zpow_pos place).ne'
  have whole : (n : ℚ) * 2 ^ (place + (k : ℤ)) / 2 ^ place = ((n * 2 ^ k : ℤ) : ℚ) := by
    rw [zpow_add₀ (by norm_num), zpow_natCast]
    push_cast
    field_simp
  rw [roundAt, whole, nearestEven_intCast, ← whole, div_mul_cancel₀ _ unit]

end Place

/-! ### Formats -/

/-- A number of binary digits, and the place of the last digit of the smallest numbers. -/
structure Format where
  precision : ℕ
  least : ℤ
  some_ : 0 < precision

namespace Format

variable (f : Format)

/-- The place of the last digit of a number. -/
def place (x : ℚ) : ℤ :=
  if x = 0 then f.least else max (Int.log 2 |x| + 1 - f.precision) f.least

def round (x : ℚ) : ℚ := roundAt (f.place x) x

/-- The numbers of the format. -/
def Has (x : ℚ) : Prop :=
  ∃ m e : ℤ, |m| ≤ 2 ^ f.precision ∧ f.least ≤ e ∧ x = m * 2 ^ e

variable {f}

theorem Has.neg {x : ℚ} (has : f.Has x) : f.Has (-x) := by
  obtain ⟨m, e, small, normal, rfl⟩ := has
  refine ⟨-m, e, by rwa [abs_neg], normal, ?_⟩
  push_cast
  ring

theorem place_nonzero {x : ℚ} (nonzero : x ≠ 0) :
    f.place x = max (Int.log 2 |x| + 1 - f.precision) f.least :=
  if_neg nonzero

theorem least_le_place (x : ℚ) : f.least ≤ f.place x := by
  unfold place
  split
  · exact le_refl _
  · exact le_max_right _ _

/-- A number below a power of two has its last digit no higher than that power says. -/
theorem place_le {x : ℚ} {k : ℤ} (small : |x| < 2 ^ k) :
    f.place x ≤ max (k - f.precision) f.least := by
  unfold place
  split
  · exact le_max_right _ _
  · rename_i nonzero
    have below : Int.log 2 |x| < k :=
      (Int.lt_zpow_iff_log_lt (by norm_num) (abs_pos.mpr nonzero)).mp (by exact_mod_cast small)
    exact max_le_max (by omega) (le_refl _)

theorem round_near {x : ℚ} {k : ℤ} (small : |x| < 2 ^ k) (normal : f.least ≤ k - f.precision) :
    |f.round x - x| ≤ 2 ^ (k - f.precision - 1) := by
  have place := place_le (f := f) small
  rw [max_eq_left normal] at place
  have near := roundAt_near (f.place x) x
  exact near.trans (zpow_le_zpow_right₀ (by norm_num) (by omega))

/-- Between numbers of different places stands a power of two that both places have. -/
theorem place_lt {x y : ℚ} (lower : f.place x < f.place y) :
    ∃ k : ℤ, |x| < 2 ^ k ∧ (2 : ℚ) ^ k ≤ |y| ∧ f.place x ≤ k ∧ f.place y ≤ k := by
  have some_ := f.some_
  have floor := f.least_le_place x
  have nonzero : y ≠ 0 := by
    intro zero
    have least : f.place y = f.least := if_pos zero
    omega
  have position : f.place y = Int.log 2 |y| + 1 - f.precision := by
    rw [place_nonzero nonzero] at lower ⊢
    omega
  refine ⟨Int.log 2 |y|, ?_, ?_, by omega, by omega⟩
  · by_cases zero : x = 0
    · rw [zero, abs_zero]
      exact two_zpow_pos _
    · have logs : Int.log 2 |x| + 1 ≤ Int.log 2 |y| := by
        rw [place_nonzero zero] at lower
        omega
      have above : |x| < (2 : ℚ) ^ (Int.log 2 |x| + 1) := by
        exact_mod_cast Int.lt_zpow_succ_log_self (by norm_num : 1 < 2) |x|
      exact above.trans_le (zpow_le_zpow_right₀ (by norm_num) logs)
  · exact_mod_cast Int.zpow_log_le_self (by norm_num : 1 < 2) (abs_pos.mpr nonzero)

theorem round_mono {x y : ℚ} (ordered : x ≤ y) : f.round x ≤ f.round y := by
  unfold round
  rcases lt_trichotomy (f.place x) (f.place y) with lower | same | higher
  · obtain ⟨k, small, large, placeX, placeY⟩ := place_lt lower
    have high : (2 : ℚ) ^ k ≤ y := by
      rcases le_abs.mp large with above | below
      · exact above
      · have negative : |x| < -y := small.trans_le below
        have inner := neg_le_abs x
        linarith
    have left := roundAt_mono (f.place x) ((le_abs_self x).trans small.le)
    have right := roundAt_mono (f.place y) high
    have one := roundAt_multiple placeX 1
    have two := roundAt_multiple placeY 1
    rw [Int.cast_one, one_mul] at one two
    rw [one] at left
    rw [two] at right
    exact left.trans right
  · rw [same]
    exact roundAt_mono _ ordered
  · obtain ⟨k, small, large, placeY, placeX⟩ := place_lt higher
    have low : x ≤ -2 ^ k := by
      rcases le_abs.mp large with above | below
      · have inner := le_abs_self y
        linarith
      · linarith
    have edge : -(2 : ℚ) ^ k ≤ y := by
      have inner := neg_abs_le y
      linarith
    have left := roundAt_mono (f.place x) low
    have right := roundAt_mono (f.place y) edge
    have one := roundAt_multiple placeX (-1)
    have two := roundAt_multiple placeY (-1)
    rw [Int.cast_neg, Int.cast_one, neg_one_mul] at one two
    rw [one] at left
    rw [two] at right
    exact left.trans right

/-- Numbers of the format stay what they are. -/
theorem round_of_has {x : ℚ} (has : f.Has x) : f.round x = x := by
  obtain ⟨m, e, small, normal, rfl⟩ := has
  have some_ := f.some_
  have unit := two_zpow_pos e
  have size : |(m : ℚ) * 2 ^ e| = |(m : ℚ)| * 2 ^ e := by rw [abs_mul, abs_of_pos unit]
  by_cases below : |m| < 2 ^ f.precision
  · have bound : |(m : ℚ) * 2 ^ e| < 2 ^ (f.precision + e) := by
      have digits : |(m : ℚ)| < 2 ^ f.precision := by exact_mod_cast below
      rw [size, zpow_add₀ (by norm_num), zpow_natCast]
      exact mul_lt_mul_of_pos_right digits unit
    have place := place_le (f := f) bound
    exact roundAt_multiple (by omega) m
  · -- The greatest digits are those of the next power.
    have whole : |(m : ℚ)| = 2 ^ f.precision := by
      exact_mod_cast le_antisymm small (not_lt.mp below)
    have power : |(m : ℚ) * 2 ^ e| = 2 ^ (f.precision + e) := by
      rw [size, whole, zpow_add₀ (by norm_num), zpow_natCast]
    have bound : |(m : ℚ) * 2 ^ e| < 2 ^ (f.precision + e + 1) := by
      rw [power]
      exact zpow_lt_zpow_right₀ (by norm_num) (by omega)
    have place := place_le (f := f) bound
    have higher : f.place (m * 2 ^ e) ≤ f.precision + e := by omega
    unfold round
    rcases abs_cases ((m : ℚ) * 2 ^ e) with ⟨same, _⟩ | ⟨same, _⟩
    · have one := roundAt_multiple higher 1
      rw [Int.cast_one, one_mul, ← power, same] at one
      exact one
    · have one := roundAt_multiple higher (-1)
      rw [Int.cast_neg, Int.cast_one, neg_one_mul, ← power, same, neg_neg] at one
      exact one

theorem round_abs_le {x y : ℚ} (has : f.Has y) (bounded : |x| ≤ y) : |f.round x| ≤ y := by
  obtain ⟨low, high⟩ := abs_le.mp bounded
  have left : f.round (-y) ≤ f.round x := round_mono low
  have right : f.round x ≤ f.round y := round_mono high
  rw [round_of_has has.neg] at left
  rw [round_of_has has] at right
  exact abs_le.mpr ⟨left, right⟩

theorem has_zpow {k : ℤ} (normal : f.least ≤ k) : f.Has (2 ^ k) :=
  ⟨1, k, by rw [abs_one]; exact one_le_pow₀ (by norm_num), normal, by simp⟩

theorem round_intCast {n : ℤ} (small : |n| ≤ 2 ^ f.precision) (least : f.least ≤ 0) :
    f.round n = n :=
  round_of_has ⟨n, 0, small, least, by simp⟩

/-- What is rounded is a number of the format. -/
theorem round_has (x : ℚ) : f.Has (f.round x) := by
  refine ⟨nearestEven (x / 2 ^ f.place x), f.place x, ?_, f.least_le_place x, rfl⟩
  have unit := two_zpow_pos (f.place x)
  have bound : |x| ≤ 2 ^ f.precision * 2 ^ f.place x := by
    by_cases zero : x = 0
    · rw [zero, abs_zero]
      exact mul_nonneg (by positivity) (two_zpow_pos _).le
    · have above : |x| < (2 : ℚ) ^ (Int.log 2 |x| + 1) := by
        exact_mod_cast Int.lt_zpow_succ_log_self (by norm_num : 1 < 2) |x|
      have place := place_nonzero (f := f) zero
      rw [← zpow_natCast, ← zpow_add₀ (by norm_num)]
      exact above.le.trans (zpow_le_zpow_right₀ (by norm_num) (by omega))
  obtain ⟨low, high⟩ := abs_le.mp bound
  rw [abs_le]
  have upper : x / 2 ^ f.place x ≤ ((2 ^ f.precision : ℤ) : ℚ) := by
    push_cast
    exact (div_le_iff₀ unit).mpr high
  have lower : ((-2 ^ f.precision : ℤ) : ℚ) ≤ x / 2 ^ f.place x := by
    push_cast
    rw [le_div_iff₀ unit]
    linarith
  constructor
  · have ordered := nearestEven_mono lower
    rwa [nearestEven_intCast] at ordered
  · have ordered := nearestEven_mono upper
    rwa [nearestEven_intCast] at ordered

/-! ### Sums that stop growing -/

/-- The place of the numbers from a power of two up to the next. -/
theorem place_power {x : ℚ} {k : ℤ} (low : 2 ^ k ≤ x) (high : x < 2 ^ (k + 1))
    (normal : f.least ≤ k + 1 - f.precision) : f.place x = k + 1 - f.precision := by
  have positive : 0 < x := (two_zpow_pos k).trans_le low
  have size : |x| = x := abs_of_pos positive
  have atLeast : k ≤ Int.log 2 x :=
    (Int.zpow_le_iff_le_log (by norm_num) positive).mp (by exact_mod_cast low)
  have below : Int.log 2 x < k + 1 :=
    (Int.lt_zpow_iff_log_lt (by norm_num) positive).mp (by exact_mod_cast high)
  rw [place_nonzero positive.ne', size]
  omega

/-- What is less than half of the last digit leaves a power of two as it is. -/
theorem round_power {d : ℚ} {k : ℤ} (nonneg : 0 ≤ d) (tiny : d < 2 ^ (k - f.precision))
    (normal : f.least ≤ k + 1 - f.precision) : f.round (2 ^ k + d) = 2 ^ k := by
  have some_ := f.some_
  have unit := two_zpow_pos (k + 1 - f.precision)
  have half : (2 : ℚ) ^ (k - (f.precision : ℤ)) = 2 ^ (k + 1 - f.precision) / 2 := by
    rw [show k + 1 - (f.precision : ℤ) = k - f.precision + 1 by omega, zpow_add_one₀ (by norm_num)]
    ring
  have digits : (2 : ℚ) ^ k = ((2 ^ (f.precision - 1) : ℤ) : ℚ) * 2 ^ (k + 1 - f.precision) := by
    push_cast
    rw [← zpow_natCast, ← zpow_add₀ (by norm_num)]
    congr 1
    omega
  have smaller : (2 : ℚ) ^ (k - (f.precision : ℤ)) ≤ 2 ^ k :=
    zpow_le_zpow_right₀ (by norm_num) (by omega)
  have place : f.place (2 ^ k + d) = k + 1 - f.precision := by
    apply place_power _ _ normal
    · linarith
    · rw [zpow_add_one₀ (by norm_num)]
      linarith
  have nearest : nearestEven ((2 ^ k + d) / 2 ^ (k + 1 - (f.precision : ℤ))) =
      2 ^ (f.precision - 1) := by
    have quotient : (2 ^ k + d) / 2 ^ (k + 1 - (f.precision : ℤ)) =
        ((2 ^ (f.precision - 1) : ℤ) : ℚ) + d / 2 ^ (k + 1 - (f.precision : ℤ)) := by
      rw [add_div, digits, mul_div_cancel_right₀ _ unit.ne']
    have rest : 0 ≤ d / 2 ^ (k + 1 - (f.precision : ℤ)) := div_nonneg nonneg unit.le
    apply nearestEven_of_lt
    · rw [quotient]
      linarith
    · rw [quotient, add_sub_cancel_left, div_lt_iff₀ unit]
      linarith
  rw [round, place, roundAt, nearest, ← digits]

theorem round_neg (x : ℚ) : f.round (-x) = -f.round x := by
  have place : f.place (-x) = f.place x := by
    unfold place
    rw [abs_neg]
    simp only [neg_eq_zero]
  rw [round, round, place, roundAt, roundAt, neg_div, nearestEven_neg]
  push_cast
  ring

/-- A number that is kept below a power of two stays there when something smaller than
half of the power's last digit is added. -/
theorem round_add_le {x d : ℚ} {k : ℤ} (bounded : |x| ≤ 2 ^ k)
    (tiny : |d| < 2 ^ (k - f.precision)) (normal : f.least ≤ k + 1 - f.precision) :
    |f.round (x + d)| ≤ 2 ^ k := by
  obtain ⟨low, high⟩ := abs_le.mp bounded
  obtain ⟨down, up⟩ := abs_le.mp (le_refl |d|)
  have above : f.round (x + d) ≤ f.round (2 ^ k + |d|) := round_mono (by linarith)
  have below : f.round (-(2 ^ k + |d|)) ≤ f.round (x + d) := round_mono (by linarith)
  rw [round_neg] at below
  rw [round_power (abs_nonneg d) tiny normal] at above below
  exact abs_le.mpr ⟨below, above⟩

end Format

end Rounding
