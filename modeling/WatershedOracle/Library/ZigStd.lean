import Mathlib.Data.List.DropRight
import Mathlib.Tactic.Ring

set_option autoImplicit false

/-! The text functions of Zig's standard library: trimming, and the readers for
integers and floating-point literals with their errors. -/

namespace Zig

abbrev Bytes := List UInt8

/-- The bytes of a literal without characters beyond ASCII. -/
def ascii (s : String) : Bytes := s.toList.map Char.toUInt8

/-- The error set of std.fmt.parseInt; parseFloat uses its first member only. -/
inductive ParseError
  | InvalidCharacter | Overflow
  deriving DecidableEq, Repr

/-- std.mem.trim. -/
def trim {α : Type} [DecidableEq α] (values slice : List α) : List α :=
  (slice.dropWhile fun x => decide (x ∈ values)).rdropWhile fun x => decide (x ∈ values)

/-- std.mem.splitBackwardsScalar: the pieces between the separators, last piece first. -/
def splitBackwards {α : Type} [DecidableEq α] (separator : α) (slice : List α) :
    List (List α) :=
  (slice.splitOn separator).reverse

section Lists

variable {α : Type}

theorem rdropWhile_append_of_all (p : α → Bool) (xs ys : List α) (all : ∀ y ∈ ys, p y = true) :
    (xs ++ ys).rdropWhile p = xs.rdropWhile p := by
  induction ys using List.reverseRecOn with
  | nil => rw [List.append_nil]
  | append_singleton ys y ih =>
    rw [← List.append_assoc, List.rdropWhile_concat_pos p _ y (all y (by simp))]
    exact ih fun other member => all other (by simp [member])

theorem rtakeWhile_append_cons (p : α → Bool) (xs : List α) {a : α} (stop : ¬ p a = true)
    (ys : List α) (all : ∀ y ∈ ys, p y = true) : (xs ++ a :: ys).rtakeWhile p = ys := by
  induction ys using List.reverseRecOn with
  | nil => exact List.rtakeWhile_concat_neg p xs a stop
  | append_singleton ys y ih =>
    have shape : xs ++ a :: (ys ++ [y]) = (xs ++ a :: ys) ++ [y] := by simp
    rw [shape, List.rtakeWhile_concat_pos p _ y (all y (by simp)),
      ih fun other member => all other (by simp [member])]

theorem rdropWhile_append_cons (p : α → Bool) (xs : List α) {a : α} (stop : ¬ p a = true)
    (ys : List α) (all : ∀ y ∈ ys, p y = true) : (xs ++ a :: ys).rdropWhile p = xs ++ [a] := by
  have shape : xs ++ a :: ys = (xs ++ [a]) ++ ys := by simp
  rw [shape, rdropWhile_append_of_all p _ ys all, List.rdropWhile_concat_neg p xs a stop]

/-- The last occurrence of a member. -/
theorem exists_last {a : α} {xs : List α} (member : a ∈ xs) :
    ∃ before tail, xs = before ++ a :: tail ∧ a ∉ tail := by
  obtain ⟨tail, before, shape, absent⟩ :=
    List.eq_append_cons_of_mem (List.mem_reverse.mpr member)
  refine ⟨before.reverse, tail.reverse, ?_, by simpa using absent⟩
  have turned := congrArg List.reverse shape
  simpa using turned

variable [DecidableEq α]

theorem splitBackwards_of_not_mem {a : α} {xs : List α} (absent : a ∉ xs) :
    splitBackwards a xs = [xs] := by
  rw [splitBackwards, List.splitOn_eq_singleton absent, List.reverse_singleton]

theorem splitBackwards_append {a : α} (before : List α) {tail : List α} (absent : a ∉ tail) :
    splitBackwards a (before ++ a :: tail) = tail :: splitBackwards a before := by
  rw [splitBackwards, List.splitOn_append_cons_self, List.splitOn_eq_singleton absent,
    List.reverse_append, List.reverse_singleton, List.singleton_append, splitBackwards]

/-- The first piece from the back is what follows the last separator. -/
theorem splitBackwards_head (a : α) (xs : List α) :
    (splitBackwards a xs).head? = some (xs.rtakeWhile fun x => decide (x ≠ a)) := by
  by_cases member : a ∈ xs
  · obtain ⟨before, tail, rfl, absent⟩ := exists_last member
    have other : ∀ y ∈ tail, decide (y ≠ a) = true := fun y inside =>
      decide_eq_true fun same => absent (same ▸ inside)
    rw [splitBackwards_append before absent, List.head?_cons,
      rtakeWhile_append_cons _ before (by simp) tail other]
  · have other : ∀ y ∈ xs, decide (y ≠ a) = true := fun y inside =>
      decide_eq_true fun same => member (same ▸ inside)
    rw [splitBackwards_of_not_mem member, List.head?_cons,
      List.rtakeWhile_eq_self_iff.mpr other]

end Lists

/-- The range of an integer type. -/
structure IntType where
  lo : Int
  hi : Int

def u8 : IntType := ⟨0, 2 ^ 8 - 1⟩

def u16 : IntType := ⟨0, 2 ^ 16 - 1⟩

def i64 : IntType := ⟨-2 ^ 63, 2 ^ 63 - 1⟩

def IntType.Has (type : IntType) (x : Int) : Prop := type.lo ≤ x ∧ x ≤ type.hi

instance (type : IntType) (x : Int) : Decidable (type.Has x) :=
  inferInstanceAs (Decidable (type.lo ≤ x ∧ x ≤ type.hi))

def underscore : UInt8 := 95

/-- std.fmt.charToDigit. -/
def charToDigit (c : UInt8) (base : Nat) : Option Nat :=
  let value :=
    if 48 ≤ c ∧ c ≤ 57 then some (c.toNat - 48)
    else if 65 ≤ c ∧ c ≤ 90 then some (c.toNat - 65 + 10)
    else if 97 ≤ c ∧ c ≤ 122 then some (c.toNat - 97 + 10)
    else none
  value.filter fun digit => decide (digit < base)

/-- The digit loop of parseInt; underscores are skipped. -/
def parseDigits (type : IntType) (base : Nat) (negative : Bool) :
    Bytes → Int → Except ParseError Int
  | [], x => .ok x
  | c :: rest, x =>
      if c = underscore then parseDigits type base negative rest x
      else match charToDigit c base with
        | none => .error .InvalidCharacter
        | some digit =>
            let scaled := x * base
            let next := if negative then scaled - digit else scaled + digit
            if type.Has scaled ∧ type.Has next then parseDigits type base negative rest next
            else .error .Overflow

theorem charToDigit_lt {c : UInt8} {base digit : Nat} (isDigit : charToDigit c base = some digit) :
    digit < base :=
  of_decide_eq_true (Option.filter_eq_some_iff.mp isDigit).2

def parseWithSign (type : IntType) (base : Nat) (negative : Bool) (buf : Bytes) :
    Except ParseError Int :=
  if buf = [] ∨ buf.head? = some underscore ∨ buf.getLast? = some underscore then
    .error .InvalidCharacter
  else parseDigits type base negative buf 0

/-- std.fmt.parseInt. -/
def parseInt (type : IntType) (buf : Bytes) (base : Nat) : Except ParseError Int :=
  match buf with
  | 43 :: rest => parseWithSign type base false rest
  | 45 :: rest => parseWithSign type base true rest
  | _ => parseWithSign type base false buf

/-- std.fmt.parseUnsigned. -/
def parseUnsigned (type : IntType) (buf : Bytes) (base : Nat) : Except ParseError Int :=
  parseWithSign type base false buf

/-- Two hexadecimal digits are read as the byte they spell. -/
theorem parseInt_two_digits {high low : UInt8} {h l : Nat} (isHigh : charToDigit high 16 = some h)
    (isLow : charToDigit low 16 = some l) :
    parseInt u8 [high, low] 16 = .ok (16 * h + l : Nat) := by
  have small := charToDigit_lt isHigh
  have small' := charToDigit_lt isLow
  have notSign : ∀ c : UInt8, c = 43 ∨ c = 45 ∨ c = underscore → charToDigit c 16 = none := by
    rintro c (rfl | rfl | rfl) <;> rfl
  have plain : ∀ {c : UInt8} {d : Nat}, charToDigit c 16 = some d → c ≠ 43 ∧ c ≠ 45 ∧ c ≠ underscore := by
    intro c d isDigit
    refine ⟨fun same => ?_, fun same => ?_, fun same => ?_⟩ <;>
      simp [notSign c (by simp [same])] at isDigit
  obtain ⟨notPlus, notMinus, notUnderscore⟩ := plain isHigh
  obtain ⟨_, _, notUnderscore'⟩ := plain isLow
  have whole : parseInt u8 [high, low] 16 = parseWithSign u8 16 false [high, low] := by
    unfold parseInt
    split
    · rename_i same
      exact absurd (List.cons.inj same).1 notPlus
    · rename_i same
      exact absurd (List.cons.inj same).1 notMinus
    · rfl
  have digit : ∀ (c : UInt8) (d x : Nat) (rest : Bytes), c ≠ underscore → charToDigit c 16 = some d →
      16 * x + d ≤ 255 →
      parseDigits u8 16 false (c :: rest) x = parseDigits u8 16 false rest (16 * x + d : Nat) := by
    intro c d x rest notUnderscore isDigit fits
    rw [parseDigits, if_neg notUnderscore, isDigit]
    have scaled : u8.Has ((x : Int) * (16 : Nat)) := by
      simp only [IntType.Has, u8]
      omega
    have next : (x : Int) * (16 : Nat) + d = (16 * x + d : Nat) := by push_cast; ring
    have inside : u8.Has (16 * x + d : Nat) := by
      simp only [IntType.Has, u8]
      omega
    simp only [Bool.false_eq_true, ↓reduceIte, scaled, next, inside, and_self]
  rw [whole, parseWithSign, if_neg (by simp [notUnderscore, notUnderscore'])]
  have first := digit high h 0 [low] notUnderscore isHigh (by omega)
  have second := digit low l h [] notUnderscore' isLow (by omega)
  rw [show (0 : Int) = ((0 : Nat) : Int) from rfl, first, Nat.mul_zero, Nat.zero_add, second]
  rfl

/-! ### std.fmt.parseFloat -/

/-- A floating-point literal before rounding: `± mantissa * radix ^ exponent`. -/
inductive FloatLiteral
  | number (negative : Bool) (mantissa : Nat) (radix : Nat) (exponent : Int)
  | inf (negative : Bool)
  | nan
  deriving DecidableEq

/-- The digits at the front: their value, their number, what follows. -/
def scanDigits (base : Nat) : Bytes → Nat → Nat → Nat × Nat × Bytes
  | [], value, count => (value, count, [])
  | c :: rest, value, count =>
      if c = underscore then scanDigits base rest value count
      else match charToDigit c base with
        | some digit => scanDigits base rest (value * base + digit) (count + 1)
        | none => (value, count, c :: rest)

/-- The digits of an exponent, which stops growing well before it could overflow. -/
def scanExponent : Bytes → Nat → Nat × Bytes
  | [], exponent => (exponent, [])
  | c :: rest, exponent =>
      if c = underscore then scanExponent rest exponent
      else match charToDigit c 10 with
        | some digit =>
            scanExponent rest (if exponent < 0x10000000 then 10 * exponent + digit else exponent)
        | none => (exponent, c :: rest)

/-- What follows the exponent letter: a sign and at least one digit. -/
def parseScientific (s : Bytes) : Option (Int × Bytes) :=
  let negative := s.head? == some 45
  let digits := if s.head? = some 45 ∨ s.head? = some 43 then s.tail else s
  match digits with
  | [] => none
  | c :: rest =>
      if (charToDigit c 10).isSome then
        let (exponent, left) := scanExponent (c :: rest) 0
        some (if negative then -(exponent : Int) else exponent, left)
      else none

/-- Every underscore stands between two digits. -/
def validUnderscores (base : Nat) : Option UInt8 → Bytes → Bool
  | _, [] => true
  | previous, c :: rest =>
      (c != underscore ||
        previous.any (fun d => (charToDigit d base).isSome) &&
          rest.head?.any fun d => (charToDigit d base).isSome) &&
      validUnderscores base (some c) rest

/-- The number that is the whole of `s`, in base 10 or, after its prefix, 16. -/
def parseNumberBase (base : Nat) (expChar : UInt8) (negative : Bool) (s : Bytes) :
    Option FloatLiteral :=
  let (whole, wholeCount, afterWhole) := scanDigits base s 0 0
  let (mantissa, fractionCount, afterFraction) :=
    match afterWhole with
    | 46 :: rest => scanDigits base rest whole 0
    | _ => (whole, 0, afterWhole)
  let shift : Int := if base = 16 then 4 else 1
  let radix := if base = 16 then 2 else 10
  if wholeCount + fractionCount = 0 then none
  else
    match afterFraction with
    | [] =>
        if validUnderscores base none s then
          some (.number negative mantissa radix (-(fractionCount : Int) * shift))
        else none
    | c :: rest =>
        if c = expChar ∨ c + 32 = expChar then
          match parseScientific rest with
          | some (exponent, []) =>
              if validUnderscores base none s then
                some (.number negative mantissa radix (exponent - (fractionCount : Int) * shift))
              else none
          | _ => none
        else none

def parseNumber (negative : Bool) (s : Bytes) : Option FloatLiteral :=
  match s with
  | 48 :: 120 :: rest => parseNumberBase 16 112 negative rest
  | 48 :: 88 :: rest => parseNumberBase 16 112 negative rest
  | _ => parseNumberBase 10 101 negative s

def toLower (c : UInt8) : UInt8 := if 65 ≤ c ∧ c ≤ 90 then c + 32 else c

/-- `inf`, `infinity` and `nan` in any mixture of cases. -/
def parseInfOrNan (negative : Bool) (s : Bytes) : Option FloatLiteral :=
  let lower := s.map toLower
  if lower = [105, 110, 102] ∨ lower = [105, 110, 102, 105, 110, 105, 116, 121] then
    some (.inf negative)
  else if lower = [110, 97, 110] then some .nan
  else none

/-- std.fmt.parseFloat, up to the rounding of the literal. -/
def parseFloat (s : Bytes) : Except ParseError FloatLiteral :=
  let negative := s.head? == some 45
  let unsigned := if s.head? = some 45 ∨ s.head? = some 43 then s.tail else s
  if unsigned = [] then .error .InvalidCharacter
  else match parseNumber negative unsigned with
    | some literal => .ok literal
    | none =>
        match parseInfOrNan negative unsigned with
        | some literal => .ok literal
        | none => .error .InvalidCharacter

end Zig
