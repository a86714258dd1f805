import WatershedOracle.Nmea

set_option autoImplicit false

/-! The two framings of `parse`: the bytes whose checksum is compared, found from the
last star backwards, and the bytes that are interpreted, found by trimming and
cutting three off the end. -/

namespace WatershedOracle.Nmea

/-- Without the carriage returns and line feeds at the end. -/
def stripLineEnd (input : Bytes) : Bytes :=
  input.rdropWhile fun byte => decide (byte ∈ [carriageReturn, lineFeed])

def hexDigit (byte : UInt8) : Option Nat := Zig.charToDigit byte 16

/-- The bytes that `parse` hands to the sentence parsers. -/
def interpreted (input : Bytes) : Bytes :=
  (trimmed input).take ((trimmed input).length - 3)

/-- `input` is `$ body * HH` with a correct checksum, and `sentence` is what `body` says. -/
structure Framed (input : Bytes) (sentence : Sentence) (body : Bytes) (high low : UInt8)
    (h l : Nat) : Prop where
  shape : stripLineEnd input = dollar :: body ++ [star, high, low]
  digits : hexDigit high = some h ∧ hexDigit low = some l
  checksum : (xorOf body).toNat = 16 * h + l
  exact_ : interpreted input = body
  interprets : parseTrimmed body = .ok sentence

/-- Checksum integrity of one accepted input. -/
def Integrity (input : Bytes) (sentence : Sentence) : Prop :=
  ∃ body high low h l, Framed input sentence body high low h l

/-- What follows the last star. -/
def afterStar (input : Bytes) : Bytes := input.rtakeWhile fun byte => decide (byte ≠ star)

/-- What precedes the last star. -/
def beforeStar (input : Bytes) : Bytes :=
  (input.rdropWhile fun byte => decide (byte ≠ star)).dropLast

/-- The piece whose checksum is compared: what lies between the last two stars. -/
def checkedMessage (input : Bytes) : Bytes := afterStar (beforeStar input)

/-- The spelling under which both framings pick the same bytes. -/
structure Regular (input : Bytes) : Prop where
  start : input.head? = some dollar
  second : ∀ byte ∈ input.tail.head?, byte ∉ [dollar, carriageReturn, lineFeed]
  digits : ∃ high low, (hexDigit high).isSome ∧ (hexDigit low).isSome ∧
    stripLineEnd (afterStar input) = [high, low]
  checked : xorOf (beforeStar input).tail = xorOf (checkedMessage input).tail

section Pieces

variable {before tail : Bytes}

theorem afterStar_append (absent : star ∉ tail) : afterStar (before ++ star :: tail) = tail :=
  Zig.rtakeWhile_append_cons _ before (by simp) tail fun _ inside =>
    decide_eq_true fun same => absent (same ▸ inside)

theorem beforeStar_append (absent : star ∉ tail) : beforeStar (before ++ star :: tail) = before := by
  have other : ∀ byte ∈ tail, decide (byte ≠ star) = true := fun _ inside =>
    decide_eq_true fun same => absent (same ▸ inside)
  rw [beforeStar, Zig.rdropWhile_append_cons _ before (by simp) tail other,
    List.dropLast_concat]

theorem hexDigit_ne {byte : UInt8} {d : Nat} (isDigit : hexDigit byte = some d) :
    byte ∉ [dollar, carriageReturn, lineFeed] ∧ byte ≠ star := by
  have none_of : ∀ other ∈ [dollar, carriageReturn, lineFeed, star], hexDigit other = none := by
    decide +kernel
  refine ⟨fun member => ?_, fun same => ?_⟩
  · have listed : byte ∈ [dollar, carriageReturn, lineFeed, star] :=
      List.mem_append_left [star] member
    rw [none_of byte listed] at isDigit
    cases isDigit
  · rw [none_of byte (by simp [same])] at isDigit
    cases isDigit

/-- A line end is removed, and no digit with it. -/
theorem stripLineEnd_append (front : Bytes) {low : UInt8} {l : Nat} (isLow : hexDigit low = some l)
    {lineEnd : Bytes} (ends : ∀ byte ∈ lineEnd, byte ∈ [carriageReturn, lineFeed]) :
    stripLineEnd (front ++ low :: lineEnd) = front ++ [low] := by
  have digit := (hexDigit_ne isLow).1
  exact Zig.rdropWhile_append_cons _ front (by simp at digit ⊢; tauto) lineEnd
    fun byte inside => decide_eq_true (ends byte inside)

theorem stripLineEnd_split (input : Bytes) :
    ∃ lineEnd, input = stripLineEnd input ++ lineEnd ∧
      ∀ byte ∈ lineEnd, byte ∈ [carriageReturn, lineFeed] := by
  refine ⟨input.rtakeWhile fun byte => decide (byte ∈ [carriageReturn, lineFeed]), ?_, ?_⟩
  · exact (List.rdropWhile_append_rtakeWhile ..).symm
  · intro byte inside
    have isEnd := List.mem_rtakeWhile_imp inside
    exact of_decide_eq_true isEnd

end Pieces

/-- A sentence as it should be sent: `$ body * HH`, then line ends. -/
def sent (body : Bytes) (high low : UInt8) (lineEnd : Bytes) : Bytes :=
  dollar :: body ++ star :: high :: low :: lineEnd

section Sent

variable {body lineEnd : Bytes} {high low : UInt8} {h l : Nat}

theorem star_not_mem_tail (isHigh : hexDigit high = some h) (isLow : hexDigit low = some l)
    (ends : ∀ byte ∈ lineEnd, byte ∈ [carriageReturn, lineFeed]) :
    star ∉ high :: low :: lineEnd := by
  simp only [List.mem_cons, not_or]
  refine ⟨(hexDigit_ne isHigh).2.symm, (hexDigit_ne isLow).2.symm, fun inside => ?_⟩
  have isEnd := ends star inside
  revert isEnd
  decide

theorem strip_sent (isLow : hexDigit low = some l)
    (ends : ∀ byte ∈ lineEnd, byte ∈ [carriageReturn, lineFeed]) :
    stripLineEnd (sent body high low lineEnd) = dollar :: body ++ [star, high, low] := by
  have shape : sent body high low lineEnd = (dollar :: body ++ [star, high]) ++ low :: lineEnd := by
    simp [sent]
  rw [shape, stripLineEnd_append _ isLow ends]
  simp

/-- Trimming takes the dollar sign and the line end, and more only where the body
itself begins with a character to trim. -/
theorem trimmed_sent (isLow : hexDigit low = some l)
    (ends : ∀ byte ∈ lineEnd, byte ∈ [carriageReturn, lineFeed]) :
    trimmed (sent body high low lineEnd) =
      (body.dropWhile fun byte => decide (byte ∈ [dollar, carriageReturn, lineFeed])) ++
        [star, high, low] := by
  let trims : UInt8 → Bool := fun byte => decide (byte ∈ [dollar, carriageReturn, lineFeed])
  have front : (sent body high low lineEnd).dropWhile trims =
      body.dropWhile trims ++ star :: high :: low :: lineEnd := by
    have first : trims dollar = true := by decide
    have stop : trims star = false := by decide
    rw [sent, List.cons_append, List.dropWhile_cons_of_pos first, List.dropWhile_append]
    split
    · rename_i gone
      rw [List.isEmpty_iff.mp gone, List.dropWhile_cons_of_neg (by simp [stop])]
      rfl
    · rfl
  have back : ∀ xs : Bytes, (xs ++ star :: high :: low :: lineEnd).rdropWhile trims =
      xs ++ [star, high, low] := by
    intro xs
    have shape : xs ++ star :: high :: low :: lineEnd = (xs ++ [star, high]) ++ low :: lineEnd := by
      simp
    have digit := (hexDigit_ne isLow).1
    rw [shape, Zig.rdropWhile_append_cons trims _ (by simpa [trims] using digit) lineEnd]
    · simp
    · intro byte inside
      have isEnd := ends byte inside
      exact decide_eq_true (by simp at isEnd ⊢; tauto)
  unfold trimmed Zig.trim
  rw [front, back]

theorem interpreted_sent (isLow : hexDigit low = some l)
    (ends : ∀ byte ∈ lineEnd, byte ∈ [carriageReturn, lineFeed]) :
    interpreted (sent body high low lineEnd) =
      body.dropWhile fun byte => decide (byte ∈ [dollar, carriageReturn, lineFeed]) := by
  rw [interpreted, trimmed_sent isLow ends, List.length_append]
  exact List.take_left' (by simp)

/-- Nothing of the body is dropped exactly when it does not begin with a character to trim. -/
theorem interpreted_sent_iff (isLow : hexDigit low = some l)
    (ends : ∀ byte ∈ lineEnd, byte ∈ [carriageReturn, lineFeed]) :
    interpreted (sent body high low lineEnd) = body ↔
      ∀ byte ∈ body.head?, byte ∉ [dollar, carriageReturn, lineFeed] := by
  rw [interpreted_sent isLow ends]
  cases body with
  | nil => simp
  | cons first rest =>
    by_cases trims : first ∈ [dollar, carriageReturn, lineFeed]
    · have drops : (first :: rest).dropWhile
          (fun byte => decide (byte ∈ [dollar, carriageReturn, lineFeed])) =
            rest.dropWhile fun byte => decide (byte ∈ [dollar, carriageReturn, lineFeed]) :=
        List.dropWhile_cons_of_pos (by simpa using trims)
      rw [drops]
      constructor
      · intro same
        have shorter := (List.dropWhile_suffix
          (fun byte => decide (byte ∈ [dollar, carriageReturn, lineFeed])) (l := rest)).length_le
        rw [same, List.length_cons] at shorter
        omega
      · intro plain
        exact absurd trims (plain first rfl)
    · rw [List.dropWhile_cons_of_neg (by simpa using trims)]
      simpa using trims

end Sent

/-- What an accepted checksum says about the pieces around the last star. -/
theorem validateChecksum_pieces {input : Bytes} (valid : validateChecksum input = .ok ()) :
    ∃ before tail, input = before ++ star :: tail ∧ star ∉ tail ∧
      (afterStar before).head? = some dollar ∧
      Zig.parseInt Zig.u8 (Zig.trim [carriageReturn, lineFeed] tail) 16 =
        .ok ((xorOf (afterStar before).tail).toNat : Int) := by
  by_cases member : star ∈ input
  · obtain ⟨before, tail, rfl, absent⟩ := Zig.exists_last member
    refine ⟨before, tail, rfl, absent, ?_⟩
    unfold validateChecksum at valid
    rw [Zig.splitBackwards_append before absent] at valid
    dsimp only at valid
    cases parsed : Zig.parseInt Zig.u8 (Zig.trim [carriageReturn, lineFeed] tail) 16 with
    | error e =>
      rw [parsed] at valid
      cases e <;> cases valid
    | ok checksum =>
      rw [parsed] at valid
      have isHead := Zig.splitBackwards_head star before
      cases pieces : Zig.splitBackwards star before with
      | nil =>
        rw [pieces] at isHead
        cases isHead
      | cons message rest =>
        rw [pieces] at isHead valid
        obtain rfl : message = afterStar before := Option.some.inj isHead
        simp only [ofParse, Bind.bind, Except.bind] at valid
        split at valid
        · cases valid
        · rename_i starts
          split at valid
          · cases valid
          · rename_i same
            refine ⟨by simpa using starts, ?_⟩
            rw [not_not.mp same]
  · unfold validateChecksum at valid
    rw [Zig.splitBackwards_of_not_mem member] at valid
    dsimp only at valid
    cases parsed : Zig.parseInt Zig.u8 (Zig.trim [carriageReturn, lineFeed] input) 16 with
    | error e =>
      rw [parsed] at valid
      cases e <;> cases valid
    | ok checksum =>
      rw [parsed] at valid
      cases valid

theorem parse_pieces {input : Bytes} {sentence : Sentence} (accepted : parse input = .ok sentence) :
    validateChecksum input = .ok () ∧ parseTrimmed (interpreted input) = .ok sentence := by
  unfold parse at accepted
  cases valid : validateChecksum input with
  | error fault =>
    rw [valid] at accepted
    cases accepted
  | ok _ =>
    rw [valid] at accepted
    simp only [Bind.bind, Except.bind] at accepted
    split at accepted
    · cases accepted
    · exact ⟨rfl, accepted⟩

/-- Two digits and a line end, without the line end. -/
theorem trim_digits {high low : UInt8} {h l : Nat} (isHigh : hexDigit high = some h)
    (isLow : hexDigit low = some l) {lineEnd : Bytes}
    (ends : ∀ byte ∈ lineEnd, byte ∈ [carriageReturn, lineFeed]) :
    Zig.trim [carriageReturn, lineFeed] (high :: low :: lineEnd) = [high, low] := by
  have notEnd : high ∉ [carriageReturn, lineFeed] := fun member =>
    (hexDigit_ne isHigh).1 (List.mem_cons_of_mem _ member)
  rw [Zig.trim, List.dropWhile_cons_of_neg (by simpa using notEnd)]
  exact stripLineEnd_append [high] isLow ends

theorem xor_eq_of_digits {tail body : Bytes} {high low : UInt8} {h l : Nat} {lineEnd : Bytes}
    (isHigh : hexDigit high = some h) (isLow : hexDigit low = some l)
    (ends : ∀ byte ∈ lineEnd, byte ∈ [carriageReturn, lineFeed])
    (isTail : tail = high :: low :: lineEnd)
    (parsed : Zig.parseInt Zig.u8 (Zig.trim [carriageReturn, lineFeed] tail) 16 =
      .ok ((xorOf body).toNat : Int)) : (xorOf body).toNat = 16 * h + l := by
  rw [isTail, trim_digits isHigh isLow ends, Zig.parseInt_two_digits isHigh isLow] at parsed
  exact_mod_cast (Except.ok.inj parsed).symm

section Accepted

variable {before tail : Bytes} {sentence : Sentence} (absent : star ∉ tail)
variable (parsed : Zig.parseInt Zig.u8 (Zig.trim [carriageReturn, lineFeed] tail) 16 =
  .ok ((xorOf (afterStar before).tail).toNat : Int))

include absent parsed

theorem regular_of_framed {body : Bytes} {high low : UInt8} {h l : Nat}
    (framed : Framed (before ++ star :: tail) sentence body high low h l) :
    Regular (before ++ star :: tail) := by
  obtain ⟨lineEnd, whole, ends⟩ := stripLineEnd_split (before ++ star :: tail)
  obtain ⟨isHigh, isLow⟩ := framed.digits
  have isSent : before ++ star :: tail = sent body high low lineEnd := by
    rw [whole, framed.shape]
    simp [sent]
  have outside := star_not_mem_tail isHigh isLow ends
  have isTail : tail = high :: low :: lineEnd := by
    rw [← @afterStar_append before tail absent, isSent]
    exact afterStar_append outside
  have isBefore : before = dollar :: body := by
    rw [← @beforeStar_append before tail absent, isSent]
    exact beforeStar_append outside
  refine ⟨by rw [isSent]; rfl, ?_, ⟨high, low, by simp [isHigh], by simp [isLow], ?_⟩, ?_⟩
  · have plain := (interpreted_sent_iff isLow ends).mp (isSent ▸ framed.exact_)
    rw [isSent]
    cases body with
    | nil => simp [sent, star, dollar, carriageReturn, lineFeed]
    | cons first rest => exact plain
  · rw [isSent]
    have same : afterStar (sent body high low lineEnd) = high :: low :: lineEnd :=
      afterStar_append outside
    rw [same]
    exact stripLineEnd_append [high] isLow ends
  · have compared := xor_eq_of_digits isHigh isLow ends isTail parsed
    rw [beforeStar_append absent, checkedMessage, beforeStar_append absent]
    apply UInt8.toNat_inj.mp
    rw [compared, isBefore, List.tail_cons, framed.checksum]

theorem integrity_of_regular
    (interprets : parseTrimmed (interpreted (before ++ star :: tail)) = .ok sentence)
    (regular : Regular (before ++ star :: tail)) :
    Integrity (before ++ star :: tail) sentence := by
  obtain ⟨start, second, ⟨high, low, someHigh, someLow, spelled⟩, checked⟩ := regular
  obtain ⟨h, isHigh⟩ := Option.isSome_iff_exists.mp someHigh
  obtain ⟨l, isLow⟩ := Option.isSome_iff_exists.mp someLow
  rw [afterStar_append absent] at spelled
  obtain ⟨lineEnd, whole, ends⟩ := stripLineEnd_split tail
  have isTail : tail = high :: low :: lineEnd := by rw [whole, spelled]; rfl
  rw [beforeStar_append absent, checkedMessage, beforeStar_append absent] at checked
  obtain ⟨body, isBefore⟩ : ∃ body, before = dollar :: body := by
    cases before with
    | nil => simp [star, dollar] at start
    | cons first body => exact ⟨body, by rw [Option.some.inj start]⟩
  have isSent : before ++ star :: tail = sent body high low lineEnd := by
    rw [isBefore, isTail]
    rfl
  have exact_ : interpreted (sent body high low lineEnd) = body := by
    apply (interpreted_sent_iff isLow ends).mpr
    intro byte isHead
    apply second byte
    rw [isSent, sent]
    cases body with
    | nil => cases isHead
    | cons first rest => exact isHead
  have compared := xor_eq_of_digits isHigh isLow ends isTail parsed
  refine ⟨body, high, low, h, l, ?_, ⟨isHigh, isLow⟩, ?_, by rw [isSent, exact_], ?_⟩
  · rw [isSent, strip_sent isLow ends]
  · rw [← compared, ← checked, isBefore, List.tail_cons]
  · rwa [isSent, exact_] at interprets

end Accepted

/-- An accepted input has checksum integrity exactly when it is spelled regularly. -/
theorem parse_integrity_iff (input : Bytes) (sentence : Sentence)
    (accepted : parse input = .ok sentence) : Integrity input sentence ↔ Regular input := by
  obtain ⟨valid, interprets⟩ := parse_pieces accepted
  obtain ⟨before, tail, rfl, absent, _, parsed⟩ := validateChecksum_pieces valid
  constructor
  · intro integrity
    obtain ⟨_, _, _, _, _, framed⟩ := integrity
    exact regular_of_framed absent parsed framed
  · intro regular
    exact integrity_of_regular absent parsed interprets regular

/-- `$GPTXT*4F` and a line end. -/
theorem parse_integrity_iff_text :
    Integrity (sent [71, 80, 84, 88, 84] 52 70 [13, 10]) .TXT ∧
      Regular (sent [71, 80, 84, 88, 84] 52 70 [13, 10]) := by
  have regular : Regular (sent [71, 80, 84, 88, 84] 52 70 [13, 10]) :=
    ⟨by decide +kernel, by decide +kernel,
      ⟨52, 70, by decide +kernel, by decide +kernel, by decide +kernel⟩, by decide +kernel⟩
  exact ⟨(parse_integrity_iff _ .TXT (by decide +kernel)).mpr regular, regular⟩

/-- `GPTXT,*$*00` is accepted; nothing of `GPTXT,*$`, which is interpreted, was checksummed. -/
theorem parse_integrity_fails :
    parse [71, 80, 84, 88, 84, 44, 42, 36, 42, 48, 48] = .ok .TXT ∧
      ¬ Integrity [71, 80, 84, 88, 84, 44, 42, 36, 42, 48, 48] .TXT := by
  refine ⟨by decide +kernel, ?_⟩
  rintro ⟨body, high, low, h, l, framed⟩
  have first := congrArg List.head? framed.shape
  have text : (stripLineEnd [71, 80, 84, 88, 84, 44, 42, 36, 42, 48, 48]).head? = some 71 := by
    decide
  rw [text] at first
  simp [dollar] at first

end WatershedOracle.Nmea
