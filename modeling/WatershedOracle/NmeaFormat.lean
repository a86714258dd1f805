import Mathlib.Tactic.NormNum
import Mathlib.Tactic.Positivity
import WatershedOracle.Library.ZigDecimal
import WatershedOracle.NmeaChecksum

set_option autoImplicit false

/-! The fields of an NMEA 0183 sentence as they are written, and what the readers of
nmea.zig make of each of them. -/

namespace WatershedOracle.Nmea

open Zig

/-! ### Decimals -/

/-- The exact value of a decimal. -/
def valueOf (d : Decimal) : ℚ :=
  (if d.negative then -1 else 1) * d.mantissa / 10 ^ d.decimals.length

/-- The float that a decimal is read as; beyond its range that is an infinity. -/
def floatOf (width : F64.Width) (d : Decimal) : F64 := F64.ofLiteral width d.literal

/-- Within the range it is the value itself. -/
theorem floatOf_eq (width : F64.Width) (d : Decimal) (short : d.decimals.length ≤ 5000)
    (small : (d.mantissa : ℚ) / 10 ^ d.decimals.length < width.overflow) :
    floatOf width d = .finite (valueOf d) := by
  have noGrowth : ¬ (5000 : Int) < -(d.decimals.length : Int) := by omega
  have noLoss : ¬ -(d.decimals.length : Int) < -(5000 + 4 * (Nat.log2 d.mantissa : Int)) := by omega
  have magnitude : (0 : ℚ) ≤ (d.mantissa : ℚ) / 10 ^ d.decimals.length := by positivity
  have value : (if d.negative then (-1 : ℚ) else 1) * (d.mantissa : ℚ) *
      ((10 : Nat) : ℚ) ^ (-(d.decimals.length : Int)) = valueOf d := by
    rw [valueOf, zpow_neg, zpow_natCast, mul_div_assoc, div_eq_mul_inv]
    push_cast
    ring
  unfold floatOf Decimal.literal F64.ofLiteral
  dsimp only
  rw [if_neg noGrowth, if_neg noLoss, value]
  split
  · rename_i zero
    simp [valueOf, zero]
  · unfold F64.ofRat
    have above : ¬ width.overflow ≤ valueOf d := by
      unfold valueOf
      split
      · rw [neg_one_mul, neg_div]
        linarith
      · rw [one_mul]
        linarith
    have below : ¬ valueOf d ≤ -width.overflow := by
      unfold valueOf
      split
      · rw [neg_one_mul, neg_div]
        linarith
      · rw [one_mul]
        linarith
    rw [if_neg above, if_neg below]

theorem parseFloat_text (width : F64.Width) (d : Decimal) :
    parseFloat width d.text = .ok (floatOf width d) := by
  unfold parseFloat
  rw [parseFloat_decimal]
  rfl

/-- A field that may be empty. -/
def optionalText (d : Option Decimal) : Bytes := (d.map Decimal.text).getD []

theorem optionalFloat_text (d : Option Decimal) :
    optionalFloat (optionalText d) = d.map (floatOf .f32) := by
  unfold optionalFloat optionalText
  cases d with
  | none => rfl
  | some d =>
    rw [Option.map_some, Option.getD_some, parseFloat_text]
    rfl

/-! ### Times and dates -/

def twoDigits (n : Fin 100) : List Digit := [⟨n / 10, by omega⟩, ⟨n % 10, by omega⟩]

def threeDigits (n : Fin 1000) : List Digit :=
  [⟨n / 100, by omega⟩, ⟨n / 10 % 10, by omega⟩, ⟨n % 10, by omega⟩]

theorem digitsValue_twoDigits (n : Fin 100) : digitsValue (twoDigits n) = n := by
  simp only [digitsValue, twoDigits, digitsFrom_cons, digitsFrom_nil]
  omega

theorem digitsValue_threeDigits (n : Fin 1000) : digitsValue (threeDigits n) = n := by
  simp only [digitsValue, threeDigits, digitsFrom_cons, digitsFrom_nil]
  omega

theorem parseUnsigned_twoDigits (n : Fin 100) :
    ofParse (parseUnsigned u8 (digitsText (twoDigits n)) 10) = .ok (n : Int) := by
  have fits : (digitsValue (twoDigits n) : Int) ≤ u8.hi := by
    rw [digitsValue_twoDigits]
    show (n.val : Int) ≤ 2 ^ 8 - 1
    omega
  rw [parseUnsigned_digitsText (by decide) (by simp [twoDigits]) fits, digitsValue_twoDigits]
  rfl

theorem parseUnsigned_threeDigits (n : Fin 1000) :
    ofParse (parseUnsigned u16 (digitsText (threeDigits n)) 10) = .ok (n : Int) := by
  have fits : (digitsValue (threeDigits n) : Int) ≤ u16.hi := by
    rw [digitsValue_threeDigits]
    show (n.val : Int) ≤ 2 ^ 16 - 1
    omega
  rw [parseUnsigned_digitsText (by decide) (by simp [threeDigits]) fits, digitsValue_threeDigits]
  rfl

/-- A time of day, hhmmss.sss. -/
structure Clock where
  hours : Fin 100
  minutes : Fin 100
  seconds : Fin 100
  miliseconds : Fin 1000

def Clock.text (t : Clock) : Bytes :=
  digitsText (twoDigits t.hours) ++ digitsText (twoDigits t.minutes) ++
    digitsText (twoDigits t.seconds) ++ dot :: digitsText (threeDigits t.miliseconds)

def Clock.utc (t : Clock) : UTC := ⟨t.hours, t.minutes, t.seconds, t.miliseconds⟩

theorem parseUTC_text (t : Clock) : parseUTC t.text = .ok t.utc := by
  have hours : t.text.take 2 = digitsText (twoDigits t.hours) := rfl
  have minutes : (t.text.drop 2).take 2 = digitsText (twoDigits t.minutes) := rfl
  have seconds : (t.text.drop 4).take 2 = digitsText (twoDigits t.seconds) := rfl
  have miliseconds : t.text.drop 7 = digitsText (threeDigits t.miliseconds) := rfl
  have length : t.text.length = 10 := rfl
  unfold parseUTC
  rw [if_neg (by simp [length]), hours, minutes, seconds, miliseconds, parseUnsigned_twoDigits,
    parseUnsigned_twoDigits, parseUnsigned_twoDigits, parseUnsigned_threeDigits]
  rfl

/-- A date, ddmmyy. -/
structure Calendar where
  day : Fin 100
  month : Fin 100
  year : Fin 100

def Calendar.text (c : Calendar) : Bytes :=
  digitsText (twoDigits c.day) ++ digitsText (twoDigits c.month) ++ digitsText (twoDigits c.year)

def Calendar.date (c : Calendar) : Date := ⟨c.day, c.month, c.year⟩

theorem parseDate_text (c : Calendar) : parseDate c.text = .ok c.date := by
  have day : c.text.take 2 = digitsText (twoDigits c.day) := rfl
  have month : (c.text.drop 2).take 2 = digitsText (twoDigits c.month) := rfl
  have year : c.text.drop 4 = digitsText (twoDigits c.year) := rfl
  have length : c.text.length = 6 := rfl
  unfold parseDate
  rw [if_neg (by simp [length]), day, month, year, parseUnsigned_twoDigits,
    parseUnsigned_twoDigits, parseUnsigned_twoDigits]
  rfl

/-! ### Coordinates -/

/-- The magnitude of a coordinate: degrees, two digits of minutes, and their decimals. -/
structure Magnitude where
  degrees : List Digit
  tens : Digit
  ones : Digit
  fraction : List Digit
  wide : degrees.length = 2 ∨ degrees.length = 3
  fine : 4 ≤ fraction.length ∧ fraction.length ≤ 6

namespace Magnitude

variable (m : Magnitude)

def text : Bytes :=
  digitsText m.degrees ++ (digitsText [m.tens, m.ones] ++ dot :: digitsText m.fraction)

theorem text_eq :
    m.text = digitsText (m.degrees ++ [m.tens, m.ones]) ++ dot :: digitsText m.fraction := by
  rw [digitsText_append, List.append_assoc]
  rfl

def wholeMinutes : Nat := digitsValue [m.tens, m.ones]

/-- The minutes, in units of their last decimal. -/
def fineMinutes : Nat := digitsFrom m.wholeMinutes m.fraction

def minutes : ℚ := m.fineMinutes / 10 ^ m.fraction.length

def angle : ℚ := digitsValue m.degrees + m.minutes / 60

def signed (negative : Bool) : ℚ := if negative then -m.angle else m.angle

def degreesDecimal : Decimal where
  negative := false
  whole := m.degrees
  fraction := none
  some_ := by
    intro empty
    have wide := m.wide
    simp [empty] at wide

def minutesDecimal : Decimal where
  negative := false
  whole := [m.tens, m.ones]
  fraction := some m.fraction
  some_ := by simp

theorem degrees_lt : digitsValue m.degrees < 1000 := by
  have bound := digitsValue_lt m.degrees
  rcases m.wide with two | three
  · rw [two] at bound
    omega
  · rwa [three] at bound

theorem wholeMinutes_lt : m.wholeMinutes < 100 := digitsValue_lt [m.tens, m.ones]

/-- The decimals stay below one more minute. -/
theorem fineMinutes_lt : m.fineMinutes < (m.wholeMinutes + 1) * 10 ^ m.fraction.length := by
  have bound := digitsValue_lt m.fraction
  rw [fineMinutes, digitsFrom_eq, Nat.succ_mul]
  omega

theorem minutes_nonneg : 0 ≤ m.minutes := by
  unfold minutes
  positivity

theorem minutes_lt : m.minutes < m.wholeMinutes + 1 := by
  have bound : (m.fineMinutes : ℚ) < (m.wholeMinutes + 1) * 10 ^ m.fraction.length := by
    exact_mod_cast m.fineMinutes_lt
  rw [minutes, div_lt_iff₀ (by positivity)]
  exact bound

theorem minutes_eq_zero : m.minutes = 0 ↔ m.fineMinutes = 0 := by
  have nonzero : (10 : ℚ) ^ m.fraction.length ≠ 0 := by positivity
  simp [minutes, nonzero]

theorem angle_nonneg : 0 ≤ m.angle := by
  have minutes := m.minutes_nonneg
  unfold angle
  positivity

theorem angle_lt : m.angle < 2000 := by
  have degrees : (digitsValue m.degrees : ℚ) < 1000 := by exact_mod_cast m.degrees_lt
  have whole : (m.wholeMinutes : ℚ) < 100 := by exact_mod_cast m.wholeMinutes_lt
  have minutes := m.minutes_lt
  unfold angle
  linarith

end Magnitude

inductive Axis
  | latitude | longitude

/-- The letters of the two directions of an axis. -/
def Axis.letter : Axis → Bool → UInt8
  | .latitude, false => 78
  | .latitude, true => 83
  | .longitude, false => 69
  | .longitude, true => 87

theorem overflow_large : (2000 : ℚ) < F64.Width.f64.overflow := by
  have one : (1 : ℚ) ≤ 2 ^ 970 := one_le_pow₀ (by norm_num)
  have split : (2 : ℚ) ^ 1024 = 2 ^ 970 * 2 ^ 54 := by rw [← pow_add]
  show (2000 : ℚ) < 2 ^ 1024 - 2 ^ 970
  rw [split]
  generalize (2 : ℚ) ^ 970 = scale at one
  linarith

/-- A small number is no overflow. -/
theorem ofRat_small {value : ℚ} (low : -2000 < value) (high : value < 2000) :
    F64.ofRat .f64 value = .finite value := by
  have large := overflow_large
  unfold F64.ofRat
  rw [if_neg (by linarith), if_neg (by linarith)]

theorem parseFloat_degrees (m : Magnitude) :
    parseFloat .f64 (digitsText m.degrees) = .ok (.finite (digitsValue m.degrees)) := by
  have text : m.degreesDecimal.text = digitsText m.degrees := List.append_nil _
  have small : (digitsValue m.degrees : ℚ) < 1000 := by exact_mod_cast m.degrees_lt
  have large := overflow_large
  rw [← text, parseFloat_text, floatOf_eq]
  · simp [valueOf, Magnitude.degreesDecimal, Decimal.mantissa, Decimal.decimals]
  · simp [Magnitude.degreesDecimal, Decimal.decimals]
  · simp only [Magnitude.degreesDecimal, Decimal.mantissa, Decimal.decimals, Option.getD_none,
      digitsFrom_nil, List.length_nil, pow_zero, div_one]
    linarith

theorem parseFloat_minutes (m : Magnitude) :
    parseFloat .f64 (digitsText [m.tens, m.ones] ++ dot :: digitsText m.fraction) =
      .ok (.finite m.minutes) := by
  have text : m.minutesDecimal.text = digitsText [m.tens, m.ones] ++ dot :: digitsText m.fraction :=
    rfl
  have minutes := m.minutes_lt
  have whole : (m.wholeMinutes : ℚ) < 100 := by exact_mod_cast m.wholeMinutes_lt
  have large := overflow_large
  rw [← text, parseFloat_text, floatOf_eq]
  · simp [valueOf, Magnitude.minutesDecimal, Decimal.mantissa, Decimal.decimals, Magnitude.minutes,
      Magnitude.fineMinutes, Magnitude.wholeMinutes]
  · have fine := m.fine
    simp only [Magnitude.minutesDecimal, Decimal.decimals, Option.getD_some]
    omega
  · show m.minutes < _
    linarith

theorem findIdx_dot {front back : Bytes} (absent : dot ∉ front) :
    (front ++ dot :: back).findIdx? (· == dot) = some front.length := by
  have nowhere : front.findIdx? (· == dot) = none := by
    apply List.findIdx?_eq_none_iff.mpr
    intro c member
    apply beq_eq_false_iff_ne.mpr
    rintro rfl
    exact absent member
  rw [List.findIdx?_append, nowhere]
  simp [List.findIdx?_cons]

/-- A coordinate as it is written is read as its signed angle. -/
theorem parseLatLon_text (axis : Axis) (m : Magnitude) (negative : Bool) :
    parseLatLon m.text [axis.letter negative] = .ok (some (.finite (m.signed negative))) := by
  have fine := m.fine
  have wide := m.wide
  have long : ¬ m.text.length < 9 := by
    simp only [Magnitude.text, List.length_append, List.length_cons, length_digitsText,
      List.length_nil]
    omega
  have found : m.text.findIdx? (· == dot) = some (m.degrees.length + 2) := by
    rw [m.text_eq, findIdx_dot (not_mem_digitsText (by decide)), length_digitsText,
      List.length_append]
    rfl
  have front : m.text.take (m.degrees.length + 2 - 2) = digitsText m.degrees :=
    List.take_left' (length_digitsText _)
  have back : m.text.drop (m.degrees.length + 2 - 2) =
      digitsText [m.tens, m.ones] ++ dot :: digitsText m.fraction :=
    List.drop_left' (length_digitsText _)
  have low := m.angle_nonneg
  have sum : F64.add (.finite (digitsValue m.degrees)) (F64.divBy 60 (.finite m.minutes)) =
      .finite m.angle := by
    show F64.ofRat .f64 m.angle = .finite m.angle
    exact ofRat_small (by linarith) m.angle_lt
  unfold parseLatLon
  rw [if_neg (by simp), if_neg (by intro empty; omega), if_neg (by simp), if_neg long, found]
  dsimp only
  rw [if_neg (by omega), front, back, parseFloat_degrees, parseFloat_minutes]
  simp only [Bind.bind, Except.bind]
  rw [sum]
  cases axis <;> cases negative <;> rfl

end WatershedOracle.Nmea
