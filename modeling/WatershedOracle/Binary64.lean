import Mathlib.Algebra.Order.Ring.Rat
import Mathlib.Tactic.Linarith

set_option autoImplicit false

/-! The f64 and f32 values the program computes with. A finite value is kept as
the exact rational it stands for: comparisons, signs, infinities and NaN behave
as in IEEE 754, the rounding of sums, quotients and parsed decimals is left out. -/

namespace WatershedOracle

inductive F64
  | nan
  | negInf
  | finite (value : ℚ)
  | posInf
  deriving DecidableEq

namespace F64

def isFinite : F64 → Bool
  | finite _ => true
  | _ => false

/-- The comparison `a < b`; false as soon as one side is NaN. -/
def lt : F64 → F64 → Bool
  | finite a, finite b => a < b
  | negInf, finite _ => true
  | negInf, posInf => true
  | finite _, posInf => true
  | _, _ => false

/-- The comparison `a > b`. -/
def gt (a b : F64) : Bool := lt b a

/-- The comparison `a <= b`; false as soon as one side is NaN. -/
def le : F64 → F64 → Bool
  | finite a, finite b => a ≤ b
  | negInf, negInf => true
  | posInf, posInf => true
  | a, b => lt a b

theorem le_trans {a b c : F64} (first : le a b) (second : le b c) : le a c := by
  cases a <;> cases b <;> cases c <;> simp_all [le, lt]
  linarith

theorem not_lt_of_le {a b : F64} (ordered : le a b) : lt b a = false := by
  cases a <;> cases b <;> simp_all [le, lt]

theorem not_gt_of_le {a b : F64} (ordered : le a b) : gt a b = false :=
  not_lt_of_le ordered

/-- std.math.floatMax(f64). -/
def floatMax : F64 := finite ((2 - 1 / 2 ^ 52) * 2 ^ 1023)

/-- std.math.floatMin(f64), the smallest positive normal number. -/
def floatMin : F64 := finite (1 / 2 ^ 1022)

/-- The value of 64 bits read as a double. -/
def ofBits (bits : Nat) : F64 :=
  let negative := bits / 2 ^ 63 % 2 == 1
  let exponent : Nat := bits / 2 ^ 52 % 2 ^ 11
  let fraction : Nat := bits % 2 ^ 52
  let sign : ℚ := if negative then -1 else 1
  if exponent = 2047 then
    if fraction = 0 then (if negative then negInf else posInf) else nan
  else if exponent = 0 then
    finite (sign * (fraction : ℚ) / 2 ^ 1074)
  else
    finite (sign * ((2 ^ 52 + fraction : Nat) : ℚ) * 2 ^ exponent / 2 ^ 1075)

inductive Width
  | f32
  | f64

/-- The magnitude from which a decimal rounds to infinity. -/
def Width.overflow : Width → ℚ
  | .f32 => 2 ^ 128 - 2 ^ 103
  | .f64 => 2 ^ 1024 - 2 ^ 970

/-- A number as a float of the given width, rounding left out. -/
def ofRat (width : Width) (value : ℚ) : F64 :=
  if width.overflow ≤ value then posInf
  else if value ≤ -width.overflow then negInf
  else finite value

def add : F64 → F64 → F64
  | finite a, finite b => ofRat .f64 (a + b)
  | posInf, finite _ => posInf
  | finite _, posInf => posInf
  | posInf, posInf => posInf
  | negInf, finite _ => negInf
  | finite _, negInf => negInf
  | negInf, negInf => negInf
  | _, _ => nan

/-- Division by a positive constant. -/
def divBy (divisor : ℚ) : F64 → F64
  | finite a => finite (a / divisor)
  | other => other

/-- Multiplication by -1.0. -/
def negate : F64 → F64
  | finite a => finite (-a)
  | posInf => negInf
  | negInf => posInf
  | nan => nan

end F64

end WatershedOracle
