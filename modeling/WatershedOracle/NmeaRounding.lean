import WatershedOracle.Library.Rounding
import WatershedOracle.NmeaPositions

set_option autoImplicit false

/-! The positions of nmea.zig in binary64, with every result rounded: how far they are
from the exact ones that the other modules reckon with. -/

namespace WatershedOracle

/-- IEEE 754 binary64, up to its overflow. -/
def binary64 : Rounding.Format := ⟨53, -1074, by decide⟩

/-- The error of one rounding. -/
theorem binary64_near {x : ℚ} {k : ℤ} (small : |x| < 2 ^ k) (normal : -1021 ≤ k) :
    |binary64.round x - x| ≤ 2 ^ (k - 54) := by
  have place : k - (binary64.precision : ℤ) - 1 = k - 54 := by
    show k - 53 - 1 = k - 54
    omega
  have near := Rounding.Format.round_near (f := binary64) small
    (by show -1074 ≤ k - 53; omega)
  rwa [place] at near

/-- The float that an operation returns, from its exact result. -/
def F64.rounded : F64 → F64
  | .finite value => .finite (binary64.round value)
  | other => other

namespace Nmea

open Zig Rounding

/-- A literal as the nearest double. -/
def parseRounded (s : Bytes) : Parsed F64 := (parseFloat .f64 s).map F64.rounded

/-- parseLatLon, with the rounding of each of its operations. -/
def parseLatLonRounded (mag dir : Bytes) : Parsed (Option F64) :=
  if dir.length = 0 then .ok none
  else if mag.length = 0 then .ok none
  else if 1 < dir.length then invalidNMEA
  else if mag.length < 9 then invalidNMEA
  else match mag.findIdx? (· == dot) with
    | none => invalidNMEA
    | some i =>
        if i < 2 then panic .integerOverflow
        else do
          let degrees ← parseRounded (mag.take (i - 2))
          let minutes ← parseRounded (mag.drop (i - 2))
          let angle := (F64.add degrees (F64.divBy 60 minutes).rounded).rounded
          match dir with
          | [78] | [69] => pure (some angle)
          | [83] | [87] => pure (some angle.negate)
          | _ => invalidNMEA

/-! ### One magnitude -/

namespace Magnitude

variable (m : Magnitude)

/-- The fraction of a degree that the minutes make. -/
def roundedMinutes : ℚ := binary64.round (binary64.round m.minutes / 60)

def roundedAngle : ℚ := binary64.round (digitsValue m.degrees + m.roundedMinutes)

def roundedSigned (negative : Bool) : ℚ := if negative then -m.roundedAngle else m.roundedAngle

variable {m}

theorem round_small (n : ℕ) (small : n ≤ 2 ^ 53) : binary64.round n = n := by
  have bound : |(n : ℤ)| ≤ 2 ^ binary64.precision := by
    rw [Nat.abs_cast]
    exact_mod_cast small
  exact_mod_cast Format.round_intCast bound (by decide)

theorem round_nonneg {x : ℚ} (nonneg : 0 ≤ x) : 0 ≤ binary64.round x := by
  have zero := round_small 0 (by decide)
  have ordered := Format.round_mono (f := binary64) nonneg
  rw [Nat.cast_zero] at zero
  rwa [zero] at ordered

theorem round_le {x : ℚ} {n : ℕ} (small : n ≤ 2 ^ 53) (bounded : x ≤ n) :
    binary64.round x ≤ n := by
  have ordered := Format.round_mono (f := binary64) bounded
  rwa [round_small n small] at ordered

theorem minutes_lt_sixty (small : m.wholeMinutes < 60) : m.minutes < 60 := by
  have whole : (m.wholeMinutes : ℚ) + 1 ≤ 60 := by exact_mod_cast small
  have minutes := m.minutes_lt
  linarith

theorem roundedMinutes_bounds (small : m.wholeMinutes < 60) :
    0 ≤ m.roundedMinutes ∧ m.roundedMinutes ≤ 1 := by
  have low := round_nonneg m.minutes_nonneg
  have high : binary64.round m.minutes ≤ (60 : ℕ) :=
    round_le (by norm_num) (by push_cast; exact (minutes_lt_sixty small).le)
  push_cast at high
  constructor
  · exact round_nonneg (by positivity)
  · have one : binary64.round (binary64.round m.minutes / 60) ≤ (1 : ℕ) :=
      round_le (by norm_num) (by push_cast; linarith)
    exact_mod_cast one

/-- The roundings of a magnitude within 180 degrees add up to less than 2^-45 degrees. -/
theorem roundedAngle_near (small : m.wholeMinutes < 60) (bounded : m.angle ≤ 180) :
    |m.roundedAngle - m.angle| ≤ 2 ^ (-45 : ℤ) := by
  have nonneg := m.minutes_nonneg
  have below := minutes_lt_sixty small
  obtain ⟨low, high⟩ := roundedMinutes_bounds small
  have degrees : (0 : ℚ) ≤ digitsValue m.degrees := by positivity
  have angle : m.angle = digitsValue m.degrees + m.minutes / 60 := rfl
  have lowRead := round_nonneg nonneg
  have highRead : binary64.round m.minutes ≤ (60 : ℕ) :=
    round_le (by norm_num) (by push_cast; exact below.le)
  push_cast at highRead
  have read := binary64_near (x := m.minutes) (k := 6)
    (by rw [abs_of_nonneg nonneg]; norm_num; linarith) (by norm_num)
  have divided := binary64_near (x := binary64.round m.minutes / 60) (k := 1)
    (by rw [abs_of_nonneg (by positivity)]; norm_num; linarith) (by norm_num)
  have summed := binary64_near (x := digitsValue m.degrees + m.roundedMinutes) (k := 8)
    (by rw [abs_of_nonneg (by linarith)]; norm_num; linarith) (by norm_num)
  rw [← roundedMinutes] at divided
  rw [← roundedAngle] at summed
  rw [abs_le] at read divided summed ⊢
  norm_num at read divided summed ⊢
  constructor <;> linarith

/-- Nothing is rounded below zero or beyond the limit of the axis. -/
theorem roundedAngle_bounds {limit : ℕ} (small : m.wholeMinutes < 60) (bounded : m.angle ≤ limit)
    (exact_ : limit ≤ 2 ^ 53) : 0 ≤ m.roundedAngle ∧ m.roundedAngle ≤ limit := by
  obtain ⟨low, high⟩ := roundedMinutes_bounds small
  have degrees : (0 : ℚ) ≤ digitsValue m.degrees := by positivity
  constructor
  · exact round_nonneg (by linarith)
  · apply round_le exact_
    rcases (m.angle_le_iff small limit).mp bounded with below | ⟨same, none_⟩
    · have below : (digitsValue m.degrees : ℚ) + 1 ≤ limit := by exact_mod_cast below
      linarith
    · have zero : binary64.round 0 = 0 := by
        have zero := round_small 0 (by norm_num)
        rwa [Nat.cast_zero] at zero
      rw [same, roundedMinutes, m.minutes_eq_zero.mpr none_, zero, zero_div, zero, add_zero]

theorem roundedAngle_zero (small : m.wholeMinutes < 60) (none_ : m.angle ≤ 0) :
    m.roundedAngle ≤ 0 := by
  have none_ : m.angle ≤ (0 : ℕ) := by exact_mod_cast none_
  have bounds := roundedAngle_bounds small none_ (by norm_num)
  exact_mod_cast bounds.2

/-- The least angle that is not zero is far above the error. -/
theorem angle_pos_ge (positive : 0 < m.angle) : 1 / 60000000 ≤ m.angle := by
  have degrees : (0 : ℚ) ≤ digitsValue m.degrees := by positivity
  unfold angle at positive ⊢
  by_cases none_ : m.fineMinutes = 0
  · rw [m.minutes_eq_zero.mpr none_, zero_div, add_zero] at positive ⊢
    have whole : 0 < digitsValue m.degrees := by exact_mod_cast positive
    have one : (1 : ℚ) ≤ digitsValue m.degrees := by exact_mod_cast whole
    linarith
  · have one : (1 : ℚ) ≤ m.fineMinutes := by exact_mod_cast Nat.one_le_iff_ne_zero.mpr none_
    have scale : (10 : ℚ) ^ m.fraction.length ≤ 10 ^ 6 :=
      pow_le_pow_right₀ (by norm_num) m.fine.2
    have minutes : (1 : ℚ) / 10 ^ 6 ≤ m.minutes := by
      unfold minutes
      exact div_le_div₀ (by linarith) one (by positivity) scale
    norm_num at minutes ⊢
    linarith

theorem roundedAngle_pos (small : m.wholeMinutes < 60) (bounded : m.angle ≤ 180)
    (positive : 0 < m.angle) : 0 < m.roundedAngle := by
  have near := roundedAngle_near small bounded
  have large := angle_pos_ge positive
  rw [abs_le] at near
  norm_num at near large
  linarith

/-- A greater angle is not rounded to a smaller one. -/
theorem roundedAngle_mono {m m' : Magnitude} (small : m.wholeMinutes < 60)
    (small' : m'.wholeMinutes < 60) (ordered : m.angle ≤ m'.angle) :
    m.roundedAngle ≤ m'.roundedAngle := by
  have below := minutes_lt_sixty small'
  have nonneg := m.minutes_nonneg
  obtain ⟨_, high⟩ := roundedMinutes_bounds small
  obtain ⟨low, _⟩ := roundedMinutes_bounds small'
  unfold angle at ordered
  apply Format.round_mono
  have degrees : digitsValue m.degrees ≤ digitsValue m'.degrees := by
    have real : (digitsValue m.degrees : ℚ) < digitsValue m'.degrees + 1 := by linarith
    have whole : digitsValue m.degrees < digitsValue m'.degrees + 1 := by exact_mod_cast real
    omega
  rcases Nat.lt_or_eq_of_le degrees with less | same
  · have less : (digitsValue m.degrees : ℚ) + 1 ≤ digitsValue m'.degrees := by exact_mod_cast less
    linarith
  · rw [same] at ordered ⊢
    have minutes : m.minutes ≤ m'.minutes := by linarith
    have read := Format.round_mono (f := binary64) minutes
    have divided : m.roundedMinutes ≤ m'.roundedMinutes :=
      Format.round_mono (div_le_div_of_nonneg_right read (by norm_num))
    linarith

theorem roundedAngle_pos_iff (small : m.wholeMinutes < 60) (bounded : m.angle ≤ 180) :
    0 < m.roundedAngle ↔ 0 < m.angle := by
  constructor
  · intro positive
    by_contra none_
    have zero := roundedAngle_zero small (not_lt.mp none_)
    linarith
  · exact roundedAngle_pos small bounded

theorem roundedSigned_mono {m m' : Magnitude} {negative negative' : Bool}
    (small : m.wholeMinutes < 60) (small' : m'.wholeMinutes < 60)
    (ordered : m.signed negative ≤ m'.signed negative') :
    m.roundedSigned negative ≤ m'.roundedSigned negative' := by
  have nonneg := m.angle_nonneg
  have nonneg' := m'.angle_nonneg
  have low : ∀ {m : Magnitude}, m.wholeMinutes < 60 → 0 ≤ m.roundedAngle := fun small =>
    round_nonneg (add_nonneg (by positivity) (roundedMinutes_bounds small).1)
  cases negative with
  | false =>
    cases negative' with
    | false => exact roundedAngle_mono small small' ordered
    | true =>
      -- Both are zero.
      have first : m.angle ≤ -m'.angle := ordered
      have one := roundedAngle_zero small (by linarith)
      have two := roundedAngle_zero small' (by linarith)
      show m.roundedAngle ≤ -m'.roundedAngle
      linarith
  | true =>
    cases negative' with
    | false =>
      have one := low small
      have two := low small'
      show -m.roundedAngle ≤ m'.roundedAngle
      linarith
    | true =>
      have angles : -m.angle ≤ -m'.angle := ordered
      exact neg_le_neg (roundedAngle_mono small' small (neg_le_neg_iff.mp angles))

end Magnitude

/-! ### The reader -/

theorem parseRounded_degrees (m : Magnitude) :
    parseRounded (digitsText m.degrees) = .ok (.finite (digitsValue m.degrees)) := by
  have whole : binary64.round (digitsValue m.degrees) = digitsValue m.degrees := by
    have below := m.degrees_lt
    exact Magnitude.round_small _ (by omega)
  rw [parseRounded, parseFloat_degrees]
  show Except.ok (F64.finite (binary64.round _)) = _
  rw [whole]

theorem parseRounded_minutes (m : Magnitude) :
    parseRounded (digitsText [m.tens, m.ones] ++ dot :: digitsText m.fraction) =
      .ok (.finite (binary64.round m.minutes)) := by
  rw [parseRounded, parseFloat_minutes]
  rfl

theorem parseLatLonRounded_text (axis : Axis) {m : Magnitude} (small : m.wholeMinutes < 60)
    (negative : Bool) :
    parseLatLonRounded m.text [axis.letter negative] =
      .ok (some (.finite (m.roundedSigned negative))) := by
  have fine := m.fine
  have wide := m.wide
  have long : ¬ m.text.length < 9 := by
    simp only [Magnitude.text, List.length_append, List.length_cons, length_digitsText,
      List.length_nil]
    omega
  have found : m.text.findIdx? (· == dot) = some (m.degrees.length + 2) := by
    rw [m.text_eq, findIdx_dot (not_mem_digitsText (by decide)), length_digitsText,
      List.length_append]
    rfl
  have front : m.text.take (m.degrees.length + 2 - 2) = digitsText m.degrees :=
    List.take_left' (length_digitsText _)
  have back : m.text.drop (m.degrees.length + 2 - 2) =
      digitsText [m.tens, m.ones] ++ dot :: digitsText m.fraction :=
    List.drop_left' (length_digitsText _)
  have sum : F64.add (.finite (digitsValue m.degrees))
      (F64.divBy 60 (.finite (binary64.round m.minutes))).rounded =
        .finite (digitsValue m.degrees + m.roundedMinutes) := by
    obtain ⟨low, high⟩ := Magnitude.roundedMinutes_bounds small
    have degrees : (digitsValue m.degrees : ℚ) < 1000 := by exact_mod_cast m.degrees_lt
    have nonneg : (0 : ℚ) ≤ digitsValue m.degrees := by positivity
    show F64.ofRat .f64 (digitsValue m.degrees + m.roundedMinutes) = _
    exact ofRat_small (by linarith) (by linarith)
  unfold parseLatLonRounded
  rw [if_neg (by simp), if_neg (by intro empty; omega), if_neg (by simp), if_neg long, found]
  dsimp only
  rw [if_neg (by omega), front, back, parseRounded_degrees, parseRounded_minutes]
  simp only [Bind.bind, Except.bind]
  rw [sum]
  cases axis <;> cases negative <;> rfl

/-! ### Positions -/

/-- A double next to the exact coordinate: on Earth, and on the same side of zero. -/
structure Rounds (axis : Axis) (exact_ value : ℚ) : Prop where
  double : binary64.Has value
  near : |value - exact_| ≤ 2 ^ (-45 : ℤ)
  inside : |value| ≤ axis.limit
  negative : value < 0 ↔ exact_ < 0

theorem Magnitude.rounds {axis : Axis} {m : Magnitude} (small : m.wholeMinutes < 60)
    (within : m.Within axis.limit) (negative : Bool) :
    Rounds axis (m.signed negative) (m.roundedSigned negative) := by
  have earth : axis.limit ≤ 180 := by cases axis <;> decide
  have bounded := (m.angle_le_iff small axis.limit).mpr within
  have half : m.angle ≤ 180 := bounded.trans (by exact_mod_cast earth)
  have near := roundedAngle_near small half
  obtain ⟨low, high⟩ := roundedAngle_bounds small bounded (by omega)
  have same := roundedAngle_pos_iff small half
  have nonneg := m.angle_nonneg
  have has : binary64.Has m.roundedAngle := Format.round_has _
  cases negative with
  | false =>
    refine ⟨has, near, ?_, ?_⟩
    · show |m.roundedAngle| ≤ _
      rwa [abs_of_nonneg low]
    · show m.roundedAngle < 0 ↔ m.angle < 0
      constructor <;> intro negative <;> linarith
  | true =>
    refine ⟨has.neg, ?_, ?_, ?_⟩
    · show |-m.roundedAngle - -m.angle| ≤ _
      rwa [← neg_sub', abs_neg]
    · show |-m.roundedAngle| ≤ _
      rwa [abs_neg, abs_of_nonneg low]
    · show -m.roundedAngle < 0 ↔ -m.angle < 0
      rw [neg_lt_zero, neg_lt_zero]
      exact same

/-- A checked coordinate, exact and rounded. -/
theorem Checked.rounds {axis : Axis} {mag dir : Bytes} {value : F64}
    (checked : Checked axis mag dir) (read : parseLatLon mag dir = .ok (some value)) :
    ∃ exact_ rounded, value = .finite exact_ ∧
      parseLatLonRounded mag dir = .ok (some (.finite rounded)) ∧ Rounds axis exact_ rounded := by
  obtain ⟨m, rfl⟩ := checked.exists_magnitude
  obtain ⟨⟨negative, isDir⟩, small, within⟩ := (checked_text axis m dir).mp checked
  rw [isDir, parseLatLon_text] at read
  refine ⟨m.signed negative, m.roundedSigned negative, ?_, ?_, Magnitude.rounds small within _⟩
  · exact (Option.some.inj (Except.ok.inj read)).symm
  · rw [isDir]
    exact parseLatLonRounded_text axis small negative

/-- The position that a checked sentence hands on in binary64 is within 2^-45 degrees of
the exact one, on Earth, and in the same quarter of it. -/
theorem position_rounded (input : Bytes) (sentence : Sentence) (x y : F64)
    (parsed : parse input = .ok sentence) (at_ : extractPoint sentence = some (x, y))
    (checked : CoordinatesChecked (coordinatesOf input)) :
    ∃ xExact xRounded yExact yRounded, x = .finite xExact ∧ y = .finite yExact ∧
      parseLatLonRounded (coordinatesOf input).longitudeMag (coordinatesOf input).longitudeDir =
        .ok (some (.finite xRounded)) ∧
      parseLatLonRounded (coordinatesOf input).latitudeMag (coordinatesOf input).latitudeDir =
        .ok (some (.finite yRounded)) ∧
      Rounds .longitude xExact xRounded ∧ Rounds .latitude yExact yRounded := by
  obtain ⟨latitude, longitude⟩ := parse_reads parsed at_
  obtain ⟨xExact, xRounded, isX, readX, roundsX⟩ := checked.2.rounds longitude
  obtain ⟨yExact, yRounded, isY, readY, roundsY⟩ := checked.1.rounds latitude
  exact ⟨xExact, xRounded, yExact, yRounded, isX, isY, readX, readY, roundsX, roundsY⟩

/-- 45 degrees and 30 minutes. -/
theorem position_rounded_inside :
    ∃ xExact xRounded yExact yRounded, F64.finite (-(245 / 2)) = .finite xExact ∧
      F64.finite (91 / 2) = .finite yExact ∧
      parseLatLonRounded (coordinatesOf (sentenceAt (Zig.ascii "4530.0000"))).longitudeMag
        (coordinatesOf (sentenceAt (Zig.ascii "4530.0000"))).longitudeDir =
          .ok (some (.finite xRounded)) ∧
      parseLatLonRounded (coordinatesOf (sentenceAt (Zig.ascii "4530.0000"))).latitudeMag
        (coordinatesOf (sentenceAt (Zig.ascii "4530.0000"))).latitudeDir =
          .ok (some (.finite yRounded)) ∧
      Rounds .longitude xExact xRounded ∧ Rounds .latitude yExact yRounded :=
  position_rounded _ (locatedAt (91 / 2)) _ _ (by decide +kernel) rfl (by decide +kernel)

/-- Rounding does not turn two checked coordinates of an axis around. -/
theorem coordinates_ordered {axis : Axis} {mag dir mag' dir' : Bytes} {exact_ exact' : ℚ}
    (checked : Checked axis mag dir) (checked' : Checked axis mag' dir')
    (read : parseLatLon mag dir = .ok (some (.finite exact_)))
    (read' : parseLatLon mag' dir' = .ok (some (.finite exact'))) (ordered : exact_ ≤ exact') :
    ∃ rounded rounded', parseLatLonRounded mag dir = .ok (some (.finite rounded)) ∧
      parseLatLonRounded mag' dir' = .ok (some (.finite rounded')) ∧ rounded ≤ rounded' := by
  obtain ⟨m, rfl⟩ := checked.exists_magnitude
  obtain ⟨m', rfl⟩ := checked'.exists_magnitude
  obtain ⟨⟨negative, isDir⟩, small, _⟩ := (checked_text axis m dir).mp checked
  obtain ⟨⟨negative', isDir'⟩, small', _⟩ := (checked_text axis m' dir').mp checked'
  rw [isDir, parseLatLon_text] at read
  rw [isDir', parseLatLon_text] at read'
  cases read
  cases read'
  rw [isDir, isDir', parseLatLonRounded_text axis small, parseLatLonRounded_text axis small']
  exact ⟨_, _, rfl, rfl, Magnitude.roundedSigned_mono small small' ordered⟩

/-- The least step of four digits to the west. -/
theorem coordinates_ordered_west :
    ∃ rounded rounded',
      parseLatLonRounded (Zig.ascii "12230.0001") (Zig.ascii "W") =
        .ok (some (.finite rounded)) ∧
      parseLatLonRounded (Zig.ascii "12230.0000") (Zig.ascii "W") =
        .ok (some (.finite rounded')) ∧ rounded ≤ rounded' :=
  @coordinates_ordered .longitude _ _ _ _ (-(73500001 / 600000)) (-(245 / 2))
    (by decide +kernel) (by decide +kernel) (by decide +kernel) (by decide +kernel) (by norm_num)

end Nmea

end WatershedOracle
