import WatershedOracle.Library.ZigJsonReadback

set_option autoImplicit false

/-! Decimal numbers, digit by digit, and what the readers of Zig's standard library
make of them. Leading zeros and the length of a fraction are part of the number. -/

namespace Zig

open Zig.Json (digitByte)

abbrev Digit := Fin 10

def digitsText (digits : List Digit) : Bytes := digits.map fun d : Digit => digitByte d.val

/-- The value of digits that are written after a number. -/
def digitsFrom (x : Nat) (digits : List Digit) : Nat :=
  digits.foldl (fun (x : Nat) (d : Digit) => x * 10 + d.val) x

def digitsValue (digits : List Digit) : Nat := digitsFrom 0 digits

section Digits

variable (d : Digit) (digits more : List Digit) (x : Nat)

@[simp] theorem digitsText_cons :
    digitsText (d :: digits) = digitByte d.val :: digitsText digits := rfl

theorem digitsText_append : digitsText (digits ++ more) = digitsText digits ++ digitsText more :=
  List.map_append

@[simp] theorem length_digitsText : (digitsText digits).length = digits.length :=
  List.length_map _

@[simp] theorem digitsText_eq_nil : digitsText digits = [] ↔ digits = [] := List.map_eq_nil_iff

@[simp] theorem digitsFrom_nil : digitsFrom x [] = x := rfl

@[simp] theorem digitsFrom_cons :
    digitsFrom x (d :: digits) = digitsFrom (x * 10 + d.val) digits := rfl

/-- The digits count from the place that the number before them is moved to. -/
theorem digitsFrom_eq : digitsFrom x digits = x * 10 ^ digits.length + digitsValue digits := by
  unfold digitsValue
  induction digits generalizing x with
  | nil => simp
  | cons d digits ih =>
    rw [digitsFrom_cons, digitsFrom_cons, ih, ih (0 * 10 + d), List.length_cons, pow_succ]
    ring

theorem digitsValue_lt : digitsValue digits < 10 ^ digits.length := by
  induction digits with
  | nil => decide
  | cons d digits ih =>
    have small := d.isLt
    have bound : d.val * 10 ^ digits.length ≤ 9 * 10 ^ digits.length :=
      Nat.mul_le_mul_right _ (by omega)
    rw [digitsValue, digitsFrom_cons, digitsFrom_eq, List.length_cons, pow_succ, Nat.zero_mul,
      Nat.zero_add]
    omega

theorem le_digitsFrom : x ≤ digitsFrom x digits := by
  rw [digitsFrom_eq]
  have one : 1 ≤ 10 ^ digits.length := Nat.one_le_pow _ _ (by decide)
  exact Nat.le_add_right_of_le (Nat.le_mul_of_pos_right x one)

variable {digits}

/-- A digit is none of the characters that separate numbers. -/
theorem mem_digitsText {c : UInt8} (member : c ∈ digitsText digits) : 48 ≤ c ∧ c ≤ 57 := by
  have range : ∀ d : Digit, 48 ≤ digitByte d.val ∧ digitByte d.val ≤ 57 := by decide
  obtain ⟨d, _, rfl⟩ := List.mem_map.mp member
  exact range d

theorem not_mem_digitsText {c : UInt8} (other : c < 48 ∨ 57 < c) : c ∉ digitsText digits := by
  intro member
  obtain ⟨low, high⟩ := mem_digitsText member
  rcases other with below | above
  · exact absurd low (UInt8.not_le.mpr below)
  · exact absurd high (UInt8.not_le.mpr above)

end Digits

/-- The digits that a text of digits spells. -/
def readDigits (text : Bytes) : List Digit :=
  text.map fun c => ⟨(c.toNat - 48) % 10, Nat.mod_lt _ (by decide)⟩

@[simp] theorem readDigits_digitsText (digits : List Digit) :
    readDigits (digitsText digits) = digits := by
  have read : ∀ d : Digit, ((digitByte d.val).toNat - 48) % 10 = d.val := by decide
  unfold readDigits digitsText
  rw [List.map_map]
  apply List.map_id''
  intro d
  exact Fin.ext (read d)

theorem digitsText_readDigits {text : Bytes} (digits : ∀ c ∈ text, Json.isDigit c = true) :
    digitsText (readDigits text) = text := by
  unfold readDigits digitsText
  rw [List.map_map]
  conv => rhs; rw [← List.map_id text]
  apply List.map_congr_left
  intro c member
  have isDigit := digits c member
  simp only [Json.isDigit, Bool.and_eq_true, decide_eq_true_eq, UInt8.le_iff_toNat_le] at isDigit
  obtain ⟨low, high⟩ := isDigit
  have small : (c.toNat - 48) % 10 = c.toNat - 48 := by
    apply Nat.mod_eq_of_lt
    simp at low high
    omega
  show digitByte ((c.toNat - 48) % 10) = c
  rw [small, digitByte, Nat.add_sub_cancel' (by simpa using low), UInt8.ofNat_toNat]

/-! ### Integers -/

theorem parseDigits_digitsText {type : IntType} (zero : type.lo ≤ 0) {digits : List Digit} {x : Nat}
    (fits : (digitsFrom x digits : Int) ≤ type.hi) :
    parseDigits type 10 false (digitsText digits) x = .ok (digitsFrom x digits) := by
  induction digits generalizing x with
  | nil => rfl
  | cons d digits ih =>
    have small : (x * 10 + d : Nat) ≤ digitsFrom (x * 10 + d) digits := le_digitsFrom _ _
    rw [digitsFrom_cons] at fits
    have scaled : type.Has ((x : Int) * (10 : Nat)) := by
      unfold IntType.Has
      omega
    have next : type.Has ((x : Int) * (10 : Nat) + (d : Nat)) := by
      unfold IntType.Has
      omega
    have step := ih fits
    rw [digitsText_cons, parseDigits, if_neg (Json.digitByte_ne_underscore d d.isLt),
      Json.charToDigit_digitByte d d.isLt]
    simp only [Bool.false_eq_true, ↓reduceIte, scaled, next, and_self]
    simpa using step

/-- A digit string is read as its value, whatever zeros it begins with. -/
theorem parseUnsigned_digitsText {type : IntType} (zero : type.lo ≤ 0) {digits : List Digit}
    (some_ : digits ≠ []) (fits : (digitsValue digits : Int) ≤ type.hi) :
    parseUnsigned type (digitsText digits) 10 = .ok (digitsValue digits) := by
  have plain : underscore ∉ digitsText digits := not_mem_digitsText (by decide)
  have head : (digitsText digits).head? ≠ some underscore := fun same =>
    plain (List.mem_of_head? same)
  have last : (digitsText digits).getLast? ≠ some underscore := fun same =>
    plain (List.mem_of_getLast? same)
  unfold parseUnsigned parseWithSign
  rw [if_neg (by simp [some_, head, last])]
  exact parseDigits_digitsText zero fits

/-! ### Floating-point literals -/

/-- A decimal as it is written: a sign, digits, and perhaps a dot and more digits. -/
structure Decimal where
  negative : Bool
  whole : List Digit
  fraction : Option (List Digit)
  some_ : whole ≠ []

namespace Decimal

variable (d : Decimal)

def decimals : List Digit := d.fraction.getD []

/-- The decimal without its sign. -/
def unsigned : Bytes :=
  digitsText d.whole ++ (d.fraction.elim [] fun digits => 46 :: digitsText digits)

def text : Bytes := (if d.negative then [45] else []) ++ d.unsigned

def mantissa : Nat := digitsFrom (digitsValue d.whole) d.decimals

/-- The number that the decimal writes. -/
def literal : FloatLiteral := .number d.negative d.mantissa 10 (-(d.decimals.length : Int))

end Decimal

/-- Nothing that goes on with digits. -/
def Stops (rest : Bytes) : Prop := ∀ c ∈ rest.head?, c ≠ underscore ∧ charToDigit c 10 = none

theorem stops_nil : Stops [] := nofun

theorem scanDigits_digitsText (digits : List Digit) {rest : Bytes} (stops : Stops rest)
    (x count : Nat) : scanDigits 10 (digitsText digits ++ rest) x count =
      (digitsFrom x digits, count + digits.length, rest) := by
  induction digits generalizing x count with
  | nil =>
    cases rest with
    | nil => rfl
    | cons c rest =>
      obtain ⟨plain, notDigit⟩ := stops c rfl
      show scanDigits 10 (c :: rest) x count = (x, count, c :: rest)
      rw [scanDigits, if_neg plain, notDigit]
  | cons d digits ih =>
    rw [digitsText_cons, List.cons_append, scanDigits,
      if_neg (Json.digitByte_ne_underscore d d.isLt), Json.charToDigit_digitByte d d.isLt]
    dsimp only
    rw [ih, digitsFrom_cons, List.length_cons]
    congr 2
    omega

theorem validUnderscores_of_not_mem (base : Nat) {s : Bytes} (absent : underscore ∉ s)
    (previous : Option UInt8) : validUnderscores base previous s = true := by
  induction s generalizing previous with
  | nil => rfl
  | cons c rest ih =>
    rw [List.mem_cons, not_or] at absent
    rw [validUnderscores, ih absent.2]
    simp [Ne.symm absent.1]

theorem Decimal.mem_unsigned (d : Decimal) {c : UInt8} (member : c ∈ d.unsigned) :
    (48 ≤ c ∧ c ≤ 57) ∨ c = 46 := by
  unfold unsigned at member
  rcases List.mem_append.mp member with whole | behind
  · exact .inl (mem_digitsText whole)
  · cases isFraction : d.fraction with
    | none => simp [isFraction] at behind
    | some digits =>
      rw [isFraction, Option.elim_some, List.mem_cons] at behind
      rcases behind with dot | digit
      · exact .inr dot
      · exact .inl (mem_digitsText digit)

theorem Decimal.not_mem_unsigned (d : Decimal) {c : UInt8} (other : c < 46 ∨ 57 < c) :
    c ∉ d.unsigned := by
  intro member
  rcases d.mem_unsigned member with ⟨low, high⟩ | rfl
  · rcases other with below | above
    · exact absurd (UInt8.lt_of_lt_of_le (UInt8.lt_of_lt_of_le below (by decide)) low)
        (UInt8.lt_irrefl c)
    · exact absurd high (UInt8.not_le.mpr above)
  · revert other
    decide

theorem parseNumberBase_decimal (d : Decimal) :
    parseNumberBase 10 101 d.negative d.unsigned = some d.literal := by
  have absent : underscore ∉ d.unsigned := d.not_mem_unsigned (by decide)
  have valid := validUnderscores_of_not_mem 10 absent none
  have counted : 0 < d.whole.length := List.length_pos_iff.mpr d.some_
  unfold parseNumberBase
  cases isFraction : d.fraction with
  | none =>
    have shape : d.unsigned = digitsText d.whole ++ [] := by simp [Decimal.unsigned, isFraction]
    have scanned := scanDigits_digitsText d.whole stops_nil 0 0
    rw [← shape] at scanned
    rw [scanned]
    have more : ¬ 0 + d.whole.length + 0 = 0 := by omega
    simp only [more, ↓reduceIte, valid]
    simp [Decimal.literal, Decimal.mantissa, Decimal.decimals, isFraction, digitsValue]
  | some digits =>
    have shape : d.unsigned = digitsText d.whole ++ 46 :: digitsText digits := by
      simp [Decimal.unsigned, isFraction]
    have stops : Stops (46 :: digitsText digits) := by
      intro c isHead
      obtain rfl : 46 = c := Option.some.inj isHead
      decide
    have scanned := scanDigits_digitsText d.whole stops 0 0
    rw [← shape] at scanned
    have behind := scanDigits_digitsText digits stops_nil (digitsValue d.whole) 0
    rw [List.append_nil] at behind
    rw [scanned]
    simp only [← digitsValue.eq_def, behind]
    have more : ¬ 0 + d.whole.length + (0 + digits.length) = 0 := by omega
    simp only [more, ↓reduceIte, valid]
    simp [Decimal.literal, Decimal.mantissa, Decimal.decimals, isFraction]

theorem Decimal.unsigned_cons (d : Decimal) :
    ∃ first rest, d.unsigned = first :: rest ∧ 48 ≤ first ∧ first ≤ 57 := by
  cases isWhole : d.whole with
  | nil => exact absurd isWhole d.some_
  | cons first digits =>
    have inside : digitByte first.val ∈ digitsText d.whole := by simp [isWhole]
    obtain ⟨low, high⟩ := mem_digitsText inside
    rw [unsigned, isWhole, digitsText_cons, List.cons_append]
    exact ⟨_, _, rfl, low, high⟩

/-- A decimal never looks like a hexadecimal literal. -/
theorem parseNumber_decimal (d : Decimal) :
    parseNumber d.negative d.unsigned = some d.literal := by
  have lower : 120 ∉ d.unsigned := d.not_mem_unsigned (by decide)
  have upper : 88 ∉ d.unsigned := d.not_mem_unsigned (by decide)
  unfold parseNumber
  split
  · rename_i same
    simp [same] at lower
  · rename_i same
    simp [same] at upper
  · exact parseNumberBase_decimal d

/-- A decimal is read as the number that it writes. -/
theorem parseFloat_decimal (d : Decimal) : parseFloat d.text = .ok d.literal := by
  obtain ⟨first, rest, shape, low, high⟩ := d.unsigned_cons
  have read := parseNumber_decimal d
  rw [shape] at read
  unfold parseFloat Decimal.text
  cases isNegative : d.negative with
  | true =>
    rw [isNegative] at read
    simp [read, shape]
  | false =>
    have minus : first ≠ 45 := by
      rintro rfl
      exact absurd low (by decide)
    have plus : first ≠ 43 := by
      rintro rfl
      exact absurd low (by decide)
    have notMinus : (first == 45) = false := beq_eq_false_iff_ne.mpr minus
    rw [isNegative] at read
    simp [read, shape, plus, notMinus, minus]

end Zig
