import WatershedOracle.NmeaFormat

set_option autoImplicit false

/-! Whole sentences as they are sent: the talker, the formatter and the fields, framed
with their checksum, come to the reader of their formatter field by field. -/

namespace WatershedOracle.Nmea

open Zig

/-- Text that ends neither a field nor a message. -/
def Plain (text : Bytes) : Prop := comma ∉ text ∧ star ∉ text

section Plain

@[simp] theorem plain_nil : Plain [] := by simp [Plain]

@[simp] theorem plain_cons {c : UInt8} {text : Bytes} :
    Plain (c :: text) ↔ (c ≠ comma ∧ c ≠ star) ∧ Plain text := by
  simp only [Plain, List.mem_cons, not_or]
  constructor
  · intro plain
    exact ⟨⟨Ne.symm plain.1.1, Ne.symm plain.2.1⟩, plain.1.2, plain.2.2⟩
  · intro plain
    exact ⟨⟨Ne.symm plain.1.1, plain.2.1⟩, Ne.symm plain.1.2, plain.2.2⟩

@[simp] theorem plain_append {first second : Bytes} :
    Plain (first ++ second) ↔ Plain first ∧ Plain second := by
  simp only [Plain, List.mem_append, not_or]
  constructor
  · intro plain
    exact ⟨⟨plain.1.1, plain.2.1⟩, plain.1.2, plain.2.2⟩
  · intro plain
    exact ⟨⟨plain.1.1, plain.2.1⟩, plain.1.2, plain.2.2⟩

@[simp] theorem plain_digitsText (digits : List Digit) : Plain (digitsText digits) :=
  ⟨not_mem_digitsText (by decide), not_mem_digitsText (by decide)⟩

@[simp] theorem plain_decimal (d : Decimal) : Plain d.text := by
  have unsigned : Plain d.unsigned :=
    ⟨d.not_mem_unsigned (by decide), d.not_mem_unsigned (by decide)⟩
  unfold Decimal.text
  cases d.negative with
  | true => simpa using ⟨by decide, unsigned⟩
  | false => simpa using unsigned

@[simp] theorem plain_optionalText (d : Option Decimal) : Plain (optionalText d) := by
  cases d with
  | none => exact plain_nil
  | some d => exact plain_decimal d

@[simp] theorem plain_magnitude (m : Magnitude) : Plain m.text := by
  have other : dot ≠ comma ∧ dot ≠ star := by decide
  simp only [Magnitude.text, plain_append, plain_cons, plain_digitsText]
  exact ⟨trivial, trivial, other, trivial⟩

@[simp] theorem plain_clock (t : Clock) : Plain t.text := by
  have other : dot ≠ comma ∧ dot ≠ star := by decide
  simp only [Clock.text, plain_append, plain_cons, plain_digitsText]
  exact ⟨⟨⟨trivial, trivial⟩, trivial⟩, other, trivial⟩

@[simp] theorem plain_calendar (c : Calendar) : Plain c.text := by
  simp [Calendar.text]

theorem plain_letter (axis : Axis) (negative : Bool) : Plain [axis.letter negative] := by
  cases axis <;> cases negative <;> simp <;> decide

end Plain

/-- Fields behind one another. -/
def message (fields : List Bytes) : Bytes := List.intercalate [comma] fields

theorem splitOn_message {fields : List Bytes} (plain : ∀ f ∈ fields, Plain f)
    (some_ : fields ≠ []) : (message fields).splitOn comma = fields :=
  List.splitOn_intercalate comma (fun f member => (plain f member).1) some_

theorem star_not_mem_message {fields : List Bytes} (plain : ∀ f ∈ fields, Plain f) :
    star ∉ message fields := by
  induction fields with
  | nil => simp [message]
  | cons first rest ih =>
    obtain ⟨here, others⟩ := List.forall_mem_cons.mp plain
    cases rest with
    | nil => simpa [message] using here.2
    | cons next rest =>
      have below := ih others
      have apart : star ≠ comma := by decide
      unfold message at below ⊢
      rw [List.intercalate_cons_cons]
      simp [here.2, below, apart]

/-- The two letters of a talker; PQ stands before a proprietary sentence instead. -/
structure Talker where
  first : UInt8
  second : UInt8
  letters : ∀ c ∈ [first, second], (65 ≤ c ∧ c ≤ 90) ∨ (97 ≤ c ∧ c ≤ 122)
  notPQ : [first, second] ≠ pqPrefix

/-- What stands between the dollar sign and the star. -/
def bodyOf (talker : Talker) (formatter : SentenceFormatter) (fields : List Bytes) : Bytes :=
  talker.first :: talker.second :: (formatter.letters ++ comma :: message fields)

section Body

variable (talker : Talker) (formatter : SentenceFormatter) {fields : List Bytes}

/-- No letter separates, frames or is trimmed. -/
theorem Talker.letter_ne {c : UInt8} (member : c ∈ [talker.first, talker.second]) :
    c ≠ comma ∧ c ≠ star ∧ c ∉ [dollar, carriageReturn, lineFeed] := by
  have letter := talker.letters c member
  have other : ∀ c ∈ [comma, star, dollar, carriageReturn, lineFeed],
      ¬ ((65 ≤ c ∧ c ≤ 90) ∨ (97 ≤ c ∧ c ≤ 122)) := by decide +kernel
  refine ⟨?_, ?_, ?_⟩
  · rintro rfl
    exact other _ (by simp) letter
  · rintro rfl
    exact other _ (by simp) letter
  · intro trims
    exact other c (List.mem_cons_of_mem _ (List.mem_cons_of_mem _ trims)) letter

theorem plain_letters : Plain formatter.letters := by
  unfold Plain
  cases formatter <;> decide

theorem star_not_mem_body (plain : ∀ f ∈ fields, Plain f) :
    star ∉ bodyOf talker formatter fields := by
  have first := (talker.letter_ne (c := talker.first) (by simp)).2.1
  have second := (talker.letter_ne (c := talker.second) (by simp)).2.1
  have letters := (plain_letters formatter).2
  have behind := star_not_mem_message plain
  have apart : star ≠ comma := by decide
  simp [bodyOf, first.symm, second.symm, letters, behind, apart]

theorem code_body : (bodyOf talker formatter fields).takeWhile (· ≠ comma) =
    talker.first :: talker.second :: formatter.letters := by
  have first := (talker.letter_ne (c := talker.first) (by simp)).1
  have second := (talker.letter_ne (c := talker.second) (by simp)).1
  have letters : ∀ c ∈ formatter.letters, decide (c ≠ comma) = true := by
    intro c member
    apply decide_eq_true
    rintro rfl
    exact (plain_letters formatter).1 member
  have shape : bodyOf talker formatter fields =
      (talker.first :: talker.second :: formatter.letters) ++ comma :: message fields := rfl
  rw [shape, List.takeWhile_append_of_pos]
  · simp
  · intro c member
    rcases List.mem_cons.mp member with rfl | member
    · exact decide_eq_true first
    · rcases List.mem_cons.mp member with rfl | member
      · exact decide_eq_true second
      · exact letters c member

/-- A sentence with three letters that do not begin with T is none of the proprietary ones. -/
theorem parseTrimmed_body (notT : formatter.letters.head? ≠ some 84) :
    parseTrimmed (bodyOf talker formatter fields) = parseNMEA (bodyOf talker formatter fields) := by
  have notPMTK : ¬ pmtkPrefix <+: bodyOf talker formatter fields := by
    intro isPMTK
    have third := (List.cons_prefix_cons.mp (List.cons_prefix_cons.mp isPMTK).2).2
    apply notT
    cases letters : formatter.letters with
    | nil => cases formatter <;> cases letters
    | cons c rest =>
      rw [letters] at third
      have same := (List.cons_prefix_cons.mp third).1
      rw [List.head?_cons, ← same]
      rfl
  have notPQ : ¬ pqPrefix <+: bodyOf talker formatter fields := by
    intro isPQ
    obtain ⟨first, rest⟩ := List.cons_prefix_cons.mp isPQ
    obtain ⟨second, _⟩ := List.cons_prefix_cons.mp rest
    apply talker.notPQ
    rw [← first, ← second]
    rfl
  unfold parseTrimmed
  rw [if_neg notPMTK, if_neg notPQ]

theorem parseNMEA_GGA :
    parseNMEA (bodyOf talker .GGA fields) = parseGGA (message fields) := by
  unfold parseNMEA
  rw [code_body]
  rfl

theorem parseNMEA_RMC :
    parseNMEA (bodyOf talker .RMC fields) = parseRMC (message fields) := by
  unfold parseNMEA
  rw [code_body]
  rfl

end Body

/-! ### The frame -/

/-- The two hexadecimal digits after the star, and the line end. -/
structure Frame (body : Bytes) where
  high : UInt8
  low : UInt8
  lineEnd : Bytes
  correct : ∃ h l, hexDigit high = some h ∧ hexDigit low = some l ∧
    (xorOf body).toNat = 16 * h + l
  ends : ∀ byte ∈ lineEnd, byte ∈ [carriageReturn, lineFeed]

def Frame.text {body : Bytes} (frame : Frame body) : Bytes :=
  sent body frame.high frame.low frame.lineEnd

/-- The digits in capital letters. -/
def hexByte (n : Nat) : UInt8 := (Zig.ascii "0123456789ABCDEF").getD n 0

theorem hexDigit_hexByte : ∀ n < 16, hexDigit (hexByte n) = some n := by decide

/-- The frame that a device sends, before the line feed that ends the line. -/
def Frame.standard (body : Bytes) (carriageReturned : Bool) : Frame body where
  high := hexByte ((xorOf body).toNat / 16)
  low := hexByte ((xorOf body).toNat % 16)
  lineEnd := if carriageReturned then [carriageReturn] else []
  correct := by
    have byte := (xorOf body).toNat_lt
    refine ⟨_, _, hexDigit_hexByte _ (by omega), hexDigit_hexByte _ (by omega), ?_⟩
    omega
  ends := by cases carriageReturned <;> simp

theorem validateChecksum_text {body : Bytes} (frame : Frame body) (absent : star ∉ body) :
    validateChecksum frame.text = .ok () := by
  obtain ⟨h, l, isHigh, isLow, checksum⟩ := frame.correct
  have outside := star_not_mem_tail isHigh isLow frame.ends
  have start : star ∉ dollar :: body := by
    simp only [List.mem_cons, not_or]
    exact ⟨by decide, absent⟩
  have split : Zig.splitBackwards star frame.text =
      [frame.high :: frame.low :: frame.lineEnd, dollar :: body] := by
    unfold Frame.text sent
    rw [splitBackwards_append _ outside, splitBackwards_of_not_mem start]
  unfold validateChecksum
  rw [split]
  dsimp only
  rw [trim_digits isHigh isLow frame.ends, parseInt_two_digits isHigh isLow]
  simp only [ofParse, Bind.bind, Except.bind]
  rw [if_neg (by simp), if_neg (by simp [checksum])]

/-- What is framed correctly is interpreted as it was meant. -/
theorem parse_text {body : Bytes} (frame : Frame body) (absent : star ∉ body)
    (starts : ∀ byte ∈ body.head?, byte ∉ [dollar, carriageReturn, lineFeed]) :
    parse frame.text = parseTrimmed body := by
  obtain ⟨h, l, isHigh, isLow, checksum⟩ := frame.correct
  have whole : interpreted frame.text = body := (interpreted_sent_iff isLow frame.ends).mpr starts
  have long : ¬ (trimmed frame.text).length < 3 := by
    rw [Frame.text, trimmed_sent isLow frame.ends]
    simp
  unfold parse
  rw [validateChecksum_text frame absent]
  show (if (trimmed frame.text).length < 3 then panic .integerOverflow
    else parseTrimmed (interpreted frame.text)) = parseTrimmed body
  rw [if_neg long, whole]

theorem parse_body (talker : Talker) (formatter : SentenceFormatter) {fields : List Bytes}
    (plain : ∀ f ∈ fields, Plain f) (frame : Frame (bodyOf talker formatter fields)) :
    parse frame.text = parseTrimmed (bodyOf talker formatter fields) := by
  apply parse_text frame (star_not_mem_body talker formatter plain)
  intro byte isHead
  obtain rfl : talker.first = byte := Option.some.inj isHead
  exact (talker.letter_ne (by simp)).2.2

end WatershedOracle.Nmea
