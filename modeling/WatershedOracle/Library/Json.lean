import WatershedOracle.Library.ZigJsonReadback

set_option autoImplicit false

/-! A reader of JSON texts, for whatever values they hold: the text that std.json writes
for a document is read as the values of the document. -/

namespace Json

open Zig (Bytes)
open Zig.Json

/-- A value; its numbers stay the texts they are written in. -/
inductive Value
  | null
  | bool (value : Bool)
  | number (text : Bytes)
  | string (text : Bytes)
  | array (items : List Value)
  | object (members : List (Bytes × Value))

/-! ### The reader -/

section Reader

variable {α : Type}

/-- One element after the other, up to the closing bracket. -/
def elements (close : UInt8) (element : Bytes → Option (α × Bytes)) :
    Nat → Bytes → Option (List α × Bytes)
  | 0, _ => none
  | fuel + 1, s =>
      match element s with
      | none => none
      | some (first, rest) =>
          match skipWhitespace rest with
          | [] => none
          | c :: rest =>
              if c = 44 then
                (elements close element fuel rest).map fun (others, rest) =>
                  (first :: others, rest)
              else if c = close then some ([first], rest)
              else none

/-- What stands between two brackets; every element takes a byte, so that the bytes are
fuel enough. -/
def sequence (close : UInt8) (element : Bytes → Option (α × Bytes)) (s : Bytes) :
    Option (List α × Bytes) :=
  match skipWhitespace s with
  | [] => none
  | c :: rest =>
      if c = close then some ([], rest) else elements close element (s.length + 1) s

/-- A name, a colon and a value. -/
def member (value : Bytes → Option (α × Bytes)) (s : Bytes) : Option ((Bytes × α) × Bytes) :=
  match skipWhitespace s with
  | [] => none
  | c :: rest =>
      if c = 34 then
        match stringToken rest with
        | .error _ => none
        | .ok (name, rest) =>
            match expect 58 rest with
            | .error _ => none
            | .ok rest => (value rest).map fun (a, rest) => ((name, a), rest)
      else none

def word (s : Bytes) : Option (Value × Bytes) :=
  if Zig.ascii "null" <+: s then some (.null, s.drop 4)
  else if Zig.ascii "true" <+: s then some (.bool true, s.drop 4)
  else if Zig.ascii "false" <+: s then some (.bool false, s.drop 5)
  else none

/-- A value that is nested at most `depth` deep. -/
def value : Nat → Bytes → Option (Value × Bytes)
  | 0, _ => none
  | depth + 1, s =>
      match skipWhitespace s with
      | [] => none
      | c :: rest =>
          if c = 34 then
            (stringToken rest).toOption.map fun (text, rest) => (.string text, rest)
          else if c = 91 then
            (sequence 93 (value depth) rest).map fun (items, rest) => (.array items, rest)
          else if c = 123 then
            (sequence 125 (member (value depth)) rest).map fun (members, rest) =>
              (.object members, rest)
          else if c = 45 ∨ isDigit c = true then
            (numberToken (c :: rest)).toOption.map fun (text, rest) => (.number text, rest)
          else word (c :: rest)

/-- A whole text, whose nesting takes a byte a level. -/
def read (s : Bytes) : Option Value :=
  match value (s.length + 1) s with
  | some (v, rest) => if skipWhitespace rest = [] then some v else none
  | none => none

end Reader

/-- The member of a name; the last one counts. -/
def Value.member? (name : Bytes) : Value → Option Value
  | .object members => (members.reverse.find? fun member => member.1 = name).map Prod.snd
  | _ => none

example : read (Zig.ascii " \x7b\"a\" : [1, -2.5e3 ,\"\\u00e9\"],\"b\":\x7b\x7d\x7d\n") =
    some (.object [([97], .array [.number [49], .number (Zig.ascii "-2.5e3"),
      .string [195, 169]]), ([98], .object [])]) := by
  rfl

/-! ### What the reader has read -/

section Reads

variable {α : Type} {close : UInt8} {element : Bytes → Option (α × Bytes)}

/-- One element, and what the byte after it says. -/
theorem elements_succ_iff (notComma : close ≠ 44) (fuel : Nat) (s rest : Bytes) (items : List α) :
    elements close element (fuel + 1) s = some (items, rest) ↔
      ∃ first after, element s = some (first, after) ∧
        ((skipWhitespace after = close :: rest ∧ items = [first]) ∨
          ∃ more others, skipWhitespace after = 44 :: more ∧ items = first :: others ∧
            elements close element fuel more = some (others, rest)) := by
  rw [elements]
  cases read : element s with
  | none => simp
  | some found =>
    obtain ⟨first, after⟩ := found
    dsimp only
    cases front : skipWhitespace after with
    | nil => simp [front]
    | cons c more =>
      dsimp only
      by_cases comma : c = 44
      · subst comma
        rw [if_pos rfl]
        constructor
        · intro reads
          obtain ⟨⟨others, rest'⟩, later, same⟩ := Option.map_eq_some_iff.mp reads
          cases same
          exact ⟨first, after, rfl, .inr ⟨more, others, front, rfl, later⟩⟩
        · rintro ⟨_, _, same, reads⟩
          cases same
          rcases reads with ⟨ends, _⟩ | ⟨more', others, goesOn, rfl, later⟩
          · exact absurd (List.cons.inj (front.symm.trans ends)).1.symm notComma
          · cases front.symm.trans goesOn
            rw [later]
            rfl
      · rw [if_neg comma]
        constructor
        · intro reads
          by_cases ends : c = close
          · rw [if_pos ends] at reads
            cases reads
            exact ⟨first, _, rfl, .inl ⟨ends ▸ front, rfl⟩⟩
          · rw [if_neg ends] at reads
            cases reads
        · rintro ⟨_, _, same, reads⟩
          cases same
          rcases reads with ⟨ends, rfl⟩ | ⟨more', others, goesOn, _, _⟩
          · cases front.symm.trans ends
            exact if_pos rfl
          · exact absurd (List.cons.inj (front.symm.trans goesOn)).1 comma

/-- An object starts with its brace. -/
theorem value_object_iff (depth : Nat) (s rest : Bytes) (members : List (Bytes × Value)) :
    value (depth + 1) s = some (.object members, rest) ↔
      ∃ inner, skipWhitespace s = 123 :: inner ∧
        sequence 125 (member (value depth)) inner = some (members, rest) := by
  rw [value]
  cases skipWhitespace s with
  | nil => simp
  | cons c inner =>
    dsimp only
    by_cases brace : c = 123
    · subst brace
      rw [if_neg (by decide), if_neg (by decide), if_pos rfl]
      constructor
      · intro reads
        obtain ⟨⟨members', rest'⟩, inside, same⟩ := Option.map_eq_some_iff.mp reads
        cases same
        exact ⟨inner, rfl, inside⟩
      · rintro ⟨_, same, inside⟩
        cases same
        rw [inside]
        rfl
    · constructor
      · intro reads
        exfalso
        split at reads
        · obtain ⟨_, _, same⟩ := Option.map_eq_some_iff.mp reads
          cases same
        · split at reads
          · obtain ⟨_, _, same⟩ := Option.map_eq_some_iff.mp reads
            cases same
          · split at reads
            · obtain ⟨_, _, same⟩ := Option.map_eq_some_iff.mp reads
              cases same
            · unfold word at reads
              split_ifs at reads
              all_goals cases reads
      · rintro ⟨_, same, _⟩
        exact absurd (List.cons.inj same).1 brace

theorem read_object_iff (s : Bytes) (members : List (Bytes × Value)) :
    read s = some (.object members) ↔ ∃ inner rest, skipWhitespace s = 123 :: inner ∧
      sequence 125 (member (value s.length)) inner = some (members, rest) ∧
        skipWhitespace rest = [] := by
  unfold read
  constructor
  · intro reads
    cases found : value (s.length + 1) s with
    | none =>
      rw [found] at reads
      cases reads
    | some token =>
      obtain ⟨v, rest⟩ := token
      rw [found] at reads
      dsimp only at reads
      by_cases ends : skipWhitespace rest = []
      · rw [if_pos ends] at reads
        cases reads
        obtain ⟨inner, front, inside⟩ := (value_object_iff s.length s rest members).mp found
        exact ⟨inner, rest, front, inside, ends⟩
      · rw [if_neg ends] at reads
        cases reads
  · rintro ⟨inner, rest, front, inside, ends⟩
    rw [(value_object_iff s.length s rest members).mpr ⟨inner, front, inside⟩]
    exact if_pos ends

end Reads

/-! ### Strings -/

theorem hexValue_hexDigit : ∀ n < 16, hexValue (hexDigit n) = some n := by decide

/-- The six bytes of a control character. -/
theorem scanEscape_control {n : Nat} (small : n < 32) (rest : Bytes) :
    scanEscape (117 :: 48 :: 48 :: hexDigit (n / 16) :: hexDigit (n % 16) :: rest) =
      .ok ([UInt8.ofNat n], rest) := by
  have zero : hexValue 48 = some 0 := by decide
  have high := hexValue_hexDigit (n / 16) (by omega)
  have low := hexValue_hexDigit (n % 16) (by omega)
  have code : (0 * 16 + 0) * 16 + n / 16 = n / 16 := by omega
  have whole : n / 16 * 16 + n % 16 = n := by omega
  have digits : scanHex4 (48 :: 48 :: hexDigit (n / 16) :: hexDigit (n % 16) :: rest) =
      .ok (n, rest) := by
    simp only [scanHex4, zero, high, low, code, whole]
  have noSurrogate : ¬ (0xD800 ≤ n ∧ n < 0xDC00) ∧ ¬ (0xDC00 ≤ n ∧ n < 0xE000) := by omega
  have ascii : n < 0x80 := by omega
  unfold scanEscape
  simp only [scanUnicodeEscape, digits, utf8Encode, noSurrogate.1, noSurrogate.2, ascii,
    Bind.bind, Except.bind, pure, Except.pure, ↓reduceIte]
  rfl

/-- One byte of a string is one piece of its text. -/
theorem scanString_escapeByte (c : UInt8) (s : Bytes) (fuel : Nat) :
    scanString (fuel + 1) (escapeByte c ++ s) = (do
      let (others, rest) ← scanString fuel s
      pure (c :: others, rest)) := by
  unfold escapeByte
  split_ifs with quote backslash backspace formFeed lineFeed return_ tab control
  · subst quote
    rfl
  · subst backslash
    rfl
  · subst backspace
    rfl
  · subst formFeed
    rfl
  · subst lineFeed
    rfl
  · subst return_
    rfl
  · subst tab
    rfl
  · have piece := scanEscape_control (n := c.toNat) (UInt8.lt_iff_toNat_lt.mp control) s
    rw [UInt8.ofNat_toNat] at piece
    simp only [List.cons_append, List.nil_append]
    rw [scanString, if_neg (by decide), if_pos rfl, piece]
    rfl
  · rw [List.cons_append, List.nil_append, scanString, if_neg quote, if_neg backslash,
      if_neg control]

theorem scanString_encoded (chars rest : Bytes) {fuel : Nat} (enough : chars.length < fuel) :
    scanString fuel (chars.flatMap escapeByte ++ 34 :: rest) = .ok (chars, rest) := by
  induction chars generalizing fuel with
  | nil =>
    obtain ⟨fuel, rfl⟩ := Nat.exists_eq_succ_of_ne_zero (Nat.ne_of_gt enough)
    rfl
  | cons c chars ih =>
    obtain ⟨fuel, rfl⟩ := Nat.exists_eq_succ_of_ne_zero (Nat.ne_of_gt (Nat.zero_lt_of_lt enough))
    have later := ih (Nat.lt_of_succ_lt_succ enough)
    rw [List.flatMap_cons, List.append_assoc, scanString_escapeByte, later]
    rfl

theorem length_le_escaped (chars : Bytes) :
    chars.length ≤ (chars.flatMap escapeByte).length := by
  have some_ : ∀ c, 1 ≤ (escapeByte c).length :=
    forall_byte (P := fun c => 1 ≤ (escapeByte c).length) (by decide +kernel)
  induction chars with
  | nil => exact Nat.le_refl _
  | cons c chars ih =>
    have first := some_ c
    rw [List.flatMap_cons, List.length_append, List.length_cons]
    omega

def IsUtf8 (bytes : Bytes) : Prop := (ByteArray.mk bytes.toArray).validateUTF8 = true

instance (bytes : Bytes) : Decidable (IsUtf8 bytes) := inferInstanceAs (Decidable (_ = true))

/-- The scanner takes an encoded string, up to its closing quote. -/
theorem stringToken_encoded {chars : Bytes} (utf8 : IsUtf8 chars) (rest : Bytes) :
    stringToken (chars.flatMap escapeByte ++ 34 :: rest) = .ok (chars, rest) := by
  have enough : chars.length < (chars.flatMap escapeByte ++ 34 :: rest).length + 1 := by
    have short := length_le_escaped chars
    rw [List.length_append]
    omega
  rw [stringToken, scanString_encoded chars rest enough]
  exact if_pos utf8

/-! ### Texts and their values -/

def blanks : Bytes := [32, 9, 10, 13]

/-- The first byte is no white space and closes nothing. -/
def Starts (text : Bytes) : Prop :=
  ∃ c rest, text = c :: rest ∧ c ∉ blanks ∧ c ≠ 93 ∧ c ≠ 125

theorem skipWhitespace_cons {c : UInt8} (solid : c ∉ blanks) (rest : Bytes) :
    skipWhitespace (c :: rest) = c :: rest := by
  unfold skipWhitespace
  exact List.dropWhile_cons_of_neg (by simpa [blanks] using solid)

/-- The text is read as the value, up to a byte that no number goes on with. -/
structure Written (text : Bytes) (v : Value) : Prop where
  starts : Starts text
  reads : ∀ depth c rest, text.length ≤ depth → EndsNumber c →
    value depth (text ++ c :: rest) = some (v, c :: rest)

theorem endsNumber_comma : EndsNumber 44 := by simp [EndsNumber, isDigit]

theorem endsNumber_bracket : EndsNumber 93 := by simp [EndsNumber, isDigit]

theorem endsNumber_brace : EndsNumber 125 := by simp [EndsNumber, isDigit]

theorem length_le_intercalate (first : Bytes) (others : List Bytes) :
    others.length ≤ (List.intercalate [44] (first :: others)).length := by
  induction others generalizing first with
  | nil => exact Nat.zero_le _
  | cons second others ih =>
    have later := ih second
    simp only [List.intercalate_cons_cons, List.length_append, List.length_cons]
    omega

theorem piece_length_le {piece : Bytes} {pieces : List Bytes} (listed : piece ∈ pieces) :
    piece.length ≤ (List.intercalate [44] pieces).length := by
  induction pieces with
  | nil => cases listed
  | cons first others ih =>
    cases others with
    | nil =>
      obtain rfl := List.mem_singleton.mp listed
      simp
    | cons second others =>
      simp only [List.intercalate_cons_cons, List.length_append]
      rcases List.mem_cons.mp listed with rfl | later
      · omega
      · have shorter := ih later
        omega

section Sequence

variable {α : Type} {close : UInt8} {element : Bytes → Option (α × Bytes)}

/-- The pieces are read one by one. -/
theorem elements_pieces (ends : EndsNumber close) (solid : close ∉ blanks) (notComma : close ≠ 44)
    (first : Bytes × α) (others : List (Bytes × α))
    (each : ∀ piece ∈ first :: others, ∀ c rest, EndsNumber c →
      element (piece.1 ++ c :: rest) = some (piece.2, c :: rest))
    {fuel : Nat} (enough : others.length < fuel) (rest : Bytes) :
    elements close element fuel
        (List.intercalate [44] ((first :: others).map Prod.fst) ++ close :: rest) =
      some ((first :: others).map Prod.snd, rest) := by
  induction others generalizing first fuel with
  | nil =>
    obtain ⟨fuel, rfl⟩ := Nat.exists_eq_succ_of_ne_zero (Nat.ne_of_gt enough)
    have reads := each first List.mem_cons_self close rest ends
    simp only [List.map_cons, List.map_nil, List.intercalate_singleton]
    rw [elements, reads]
    dsimp only
    rw [skipWhitespace_cons solid]
    dsimp only
    rw [if_neg notComma, if_pos rfl]
  | cons second others ih =>
    obtain ⟨fuel, rfl⟩ := Nat.exists_eq_succ_of_ne_zero (Nat.ne_of_gt (Nat.zero_lt_of_lt enough))
    have later := ih second (fun piece listed => each piece (List.mem_cons_of_mem _ listed))
      (Nat.lt_of_succ_lt_succ enough)
    have reads := each first List.mem_cons_self 44
      (List.intercalate [44] ((second :: others).map Prod.fst) ++ close :: rest) endsNumber_comma
    have shape : List.intercalate [44] ((first :: second :: others).map Prod.fst) ++
        close :: rest = first.1 ++
          44 :: (List.intercalate [44] ((second :: others).map Prod.fst) ++ close :: rest) := by
      simp only [List.map_cons, List.intercalate_cons_cons, List.append_assoc, List.cons_append,
        List.nil_append]
    rw [shape, elements, reads]
    dsimp only
    rw [skipWhitespace_cons (by decide)]
    dsimp only
    rw [if_pos rfl, later]
    rfl

variable (element) in
theorem sequence_pieces (ends : EndsNumber close) (solid : close ∉ blanks) (notComma : close ≠ 44)
    (pieces : List (Bytes × α))
    (starts : ∀ piece ∈ pieces, ∃ c rest, piece.1 = c :: rest ∧ c ∉ blanks ∧ c ≠ close)
    (each : ∀ piece ∈ pieces, ∀ c rest, EndsNumber c →
      element (piece.1 ++ c :: rest) = some (piece.2, c :: rest)) (rest : Bytes) :
    sequence close element (List.intercalate [44] (pieces.map Prod.fst) ++ close :: rest) =
      some (pieces.map Prod.snd, rest) := by
  cases pieces with
  | nil =>
    simp only [List.map_nil, List.intercalate_nil, List.nil_append]
    unfold sequence
    rw [skipWhitespace_cons solid]
    exact if_pos rfl
  | cons first others =>
    obtain ⟨c, text, shape, solid', notClose⟩ := starts first List.mem_cons_self
    have enough : others.length <
        (List.intercalate [44] ((first :: others).map Prod.fst) ++ close :: rest).length + 1 := by
      have short := length_le_intercalate first.1 (others.map Prod.fst)
      rw [List.length_map] at short
      rw [List.length_append, List.map_cons]
      omega
    have reads := elements_pieces ends solid notComma first others each enough rest
    obtain ⟨tail, front⟩ : ∃ tail, List.intercalate [44] ((first :: others).map Prod.fst) ++
        close :: rest = c :: tail := by
      cases others <;> simp [shape]
    unfold sequence
    rw [reads, front, skipWhitespace_cons solid']
    exact if_neg notClose

end Sequence

/-- A text that is one number token. -/
structure IsNumber (text : Bytes) : Prop where
  starts : ∃ c rest, text = c :: rest ∧ (c = 45 ∨ isDigit c = true)
  token : ∀ c rest, EndsNumber c → numberToken (text ++ c :: rest) = .ok (text, c :: rest)

theorem isNumber_intText (n : Int) : IsNumber (intText n) :=
  ⟨intText_starts n, fun _ rest ends => numberToken_intText n ends rest⟩

theorem scanDigits1_natText (n : Nat) {c : UInt8} (stop : isDigit c = false) (rest : Bytes) :
    scanDigits1 (natText n ++ c :: rest) = .ok (natText n, c :: rest) := by
  obtain ⟨first, others, shape, digit, _⟩ := natText_cons n
  have digits := natText_digits n
  have taken : (natText n ++ c :: rest).takeWhile isDigit = natText n := by
    rw [List.takeWhile_append_of_pos digits, List.takeWhile_cons_of_neg (by simp [stop]),
      List.append_nil]
  have dropped : (natText n ++ c :: rest).dropWhile isDigit = c :: rest := by
    rw [List.dropWhile_append_of_pos digits, List.dropWhile_cons_of_neg (by simp [stop])]
  rw [shape, List.cons_append] at taken dropped ⊢
  simp only [scanDigits1, digit, ↓reduceIte, taken, dropped]

theorem scanWhole_exponent (n : Nat) (rest : Bytes) :
    scanWhole (natText n ++ 101 :: rest) = .ok (natText n, 101 :: rest) := by
  have digits := scanDigits1_natText n (by decide : isDigit 101 = false) rest
  obtain ⟨first, others, shape, digit, zero⟩ := natText_cons n
  by_cases isZero : first = 48
  · obtain ⟨rfl, _⟩ := zero isZero
    rw [shape, isZero]
    rfl
  · rw [shape, List.cons_append] at digits ⊢
    unfold scanWhole
    split
    · rename_i same
      exact absurd (List.cons.inj same).1 isZero
    · exact digits

theorem scanExponentPart_natText (k : Nat) {c : UInt8} (stop : isDigit c = false) (rest : Bytes) :
    scanExponentPart (101 :: natText k ++ c :: rest) = .ok (101 :: natText k, c :: rest) := by
  have digits := scanDigits1_natText k stop rest
  obtain ⟨first, others, shape, digit, _⟩ := natText_cons k
  obtain ⟨notPlus, notMinus, _⟩ := digit_plain digit
  rw [shape] at digits ⊢
  simp only [List.cons_append] at digits ⊢
  unfold scanExponentPart
  dsimp only
  rw [if_pos (.inl rfl)]
  split
  · rename_i same
    exact absurd (List.cons.inj same).1 notPlus
  · rename_i same
    exact absurd (List.cons.inj same).1 notMinus
  · rw [digits]
    rfl

/-- A number with an exponent. -/
theorem isNumber_exponent (n : Int) (k : Nat) : IsNumber (intText n ++ 101 :: natText k) := by
  obtain ⟨first, others, start, front⟩ := intText_starts n
  refine ⟨⟨first, others ++ 101 :: natText k, by rw [start, List.cons_append], front⟩, ?_⟩
  intro c rest ends
  have exponent := scanExponentPart_natText k ends.1 rest
  have whole := scanWhole_exponent n.natAbs (natText k ++ c :: rest)
  have fraction : scanFraction (101 :: (natText k ++ c :: rest)) =
      .ok ([], 101 :: (natText k ++ c :: rest)) := rfl
  rw [List.cons_append] at exponent
  rw [List.append_assoc, List.cons_append]
  unfold intText
  split
  · simp [numberToken, whole, fraction, exponent, Bind.bind, Except.bind, pure, Except.pure]
  · obtain ⟨digit, digits, shape, isDigit_, _⟩ := natText_cons n.natAbs
    have notMinus := (digit_plain isDigit_).2.1
    rw [shape] at whole ⊢
    rw [List.cons_append] at whole ⊢
    unfold numberToken
    split
    rename_i parts
    split at parts
    · rename_i same
      exact absurd (List.cons.inj same).1 notMinus
    · cases parts
      simp [whole, fraction, exponent, Bind.bind, Except.bind, pure, Except.pure]

/-- What no number starts with. -/
theorem number_front {c : UInt8} (front : c = 45 ∨ isDigit c = true) :
    c ∉ blanks ∧ c ≠ 93 ∧ c ≠ 125 ∧ c ≠ 34 ∧ c ≠ 91 ∧ c ≠ 123 := by
  have each : ∀ b ∈ blanks ++ [93, 125, 34, 91, 123], ¬ (b = 45 ∨ isDigit b = true) := by
    decide +kernel
  have other : ∀ b ∈ blanks ++ [93, 125, 34, 91, 123], c ≠ b := fun b listed same =>
    each b listed (same ▸ front)
  refine ⟨fun blank => other c (List.mem_append_left _ blank) rfl, ?_, ?_, ?_, ?_, ?_⟩
  all_goals exact other _ (by decide)

theorem IsNumber.written {text : Bytes} (isNumber : IsNumber text) :
    Written text (.number text) := by
  obtain ⟨c, others, shape, front⟩ := isNumber.starts
  obtain ⟨solid, notBracket, notBrace, notQuote, notOpen, notOpen'⟩ := number_front front
  refine ⟨⟨c, others, shape, solid, notBracket, notBrace⟩, fun depth next rest deep ends => ?_⟩
  have token := isNumber.token next rest ends
  rw [shape, List.length_cons] at deep
  obtain ⟨depth, rfl⟩ := Nat.exists_eq_succ_of_ne_zero (Nat.ne_of_gt (Nat.zero_lt_of_lt deep))
  rw [shape, List.cons_append] at token ⊢
  rw [value, skipWhitespace_cons solid]
  dsimp only
  rw [if_neg notQuote, if_neg notOpen, if_neg notOpen', if_pos front, token]
  rfl

theorem written_bool (b : Bool) :
    Written (if b then Zig.ascii "true" else Zig.ascii "false") (.bool b) := by
  cases b with
  | true =>
    refine ⟨⟨116, Zig.ascii "rue", by decide, by decide⟩, fun depth c rest deep _ => ?_⟩
    obtain ⟨depth, rfl⟩ := Nat.exists_eq_succ_of_ne_zero
      (Nat.ne_of_gt (Nat.lt_of_lt_of_le (by decide) deep))
    rfl
  | false =>
    refine ⟨⟨102, Zig.ascii "alse", by decide, by decide⟩, fun depth c rest deep _ => ?_⟩
    obtain ⟨depth, rfl⟩ := Nat.exists_eq_succ_of_ne_zero
      (Nat.ne_of_gt (Nat.lt_of_lt_of_le (by decide) deep))
    rfl

theorem written_string {chars : Bytes} (utf8 : IsUtf8 chars) :
    Written (encodeString chars) (.string chars) := by
  refine ⟨⟨34, _, rfl, by decide⟩, fun depth c rest deep _ => ?_⟩
  obtain ⟨depth, rfl⟩ := Nat.exists_eq_succ_of_ne_zero
    (Nat.ne_of_gt (Nat.lt_of_lt_of_le (Nat.zero_lt_succ _) deep))
  have token := stringToken_encoded utf8 (c :: rest)
  simp only [encodeString, List.cons_append, List.append_assoc, List.nil_append]
  rw [value, skipWhitespace_cons (by decide)]
  dsimp only
  rw [if_pos rfl, token]
  rfl

/-- Values between square brackets. -/
theorem written_array (pieces : List (Bytes × Value))
    (each : ∀ piece ∈ pieces, Written piece.1 piece.2) :
    Written (91 :: List.intercalate [44] (pieces.map Prod.fst) ++ [93])
      (.array (pieces.map Prod.snd)) := by
  refine ⟨⟨91, _, rfl, by decide⟩, fun depth c rest deep _ => ?_⟩
  rw [List.length_append, List.length_cons] at deep
  obtain ⟨depth, rfl⟩ := Nat.exists_eq_succ_of_ne_zero
    (Nat.ne_of_gt (Nat.lt_of_lt_of_le (Nat.zero_lt_succ _) (Nat.le_of_add_right_le deep)))
  have items := sequence_pieces (value depth) endsNumber_bracket (by decide) (by decide)
    pieces (fun piece listed => by
      obtain ⟨first, others, shape, solid, notBracket, _⟩ := (each piece listed).starts
      exact ⟨first, others, shape, solid, notBracket⟩)
    (fun piece listed next later ends => by
      have short := piece_length_le (List.mem_map_of_mem (f := Prod.fst) listed)
      exact (each piece listed).reads depth next later (by omega) ends)
    (c :: rest)
  simp only [List.cons_append, List.append_assoc, List.nil_append]
  rw [value, skipWhitespace_cons (by decide)]
  dsimp only
  rw [if_neg (by decide), if_pos rfl, items]
  rfl

/-- A name and a value with a colon between them. -/
def memberText (name text : Bytes) : Bytes := encodeString name ++ 58 :: text

theorem member_written {name text : Bytes} {v : Value} (utf8 : IsUtf8 name)
    (written : Written text v) {depth : Nat} (deep : text.length ≤ depth) {c : UInt8}
    (ends : EndsNumber c) (rest : Bytes) :
    member (value depth) (memberText name text ++ c :: rest) = some ((name, v), c :: rest) := by
  have token := stringToken_encoded utf8 (58 :: (text ++ c :: rest))
  have colon : expect 58 (58 :: (text ++ c :: rest)) = .ok (text ++ c :: rest) := rfl
  simp only [memberText, encodeString, List.cons_append, List.append_assoc, List.nil_append]
  rw [member, skipWhitespace_cons (by decide)]
  dsimp only
  rw [if_pos rfl, token]
  dsimp only
  rw [colon]
  dsimp only
  rw [written.reads depth c rest deep ends]
  rfl

/-- What stands between the braces of an object. -/
def objectText (members : List (Bytes × Bytes)) : Bytes :=
  123 :: List.intercalate [44] (members.map fun (name, text) => memberText name text) ++ [125]

/-- Members between braces, whatever follows. -/
theorem value_object (members : List (Bytes × Bytes × Value))
    (each : ∀ member ∈ members, IsUtf8 member.1 ∧ Written member.2.1 member.2.2)
    {depth : Nat} (rest : Bytes)
    (deep : (objectText (members.map fun (name, text, _) => (name, text))).length ≤ depth) :
    value depth (objectText (members.map fun (name, text, _) => (name, text)) ++ rest) =
      some (.object (members.map fun (name, _, v) => (name, v)), rest) := by
  let pieces : List (Bytes × (Bytes × Value)) :=
    members.map fun (name, text, v) => (memberText name text, (name, v))
  have texts : (members.map fun (name, text, _) => (name, text)).map
      (fun (name, text) => memberText name text) = pieces.map Prod.fst := by
    simp only [pieces, List.map_map]
    rfl
  have values : members.map (fun (name, _, v) => (name, v)) = pieces.map Prod.snd := by
    simp only [pieces, List.map_map]
    rfl
  unfold objectText at deep ⊢
  rw [texts] at deep ⊢
  rw [List.length_append, List.length_cons] at deep
  obtain ⟨depth, rfl⟩ := Nat.exists_eq_succ_of_ne_zero
    (Nat.ne_of_gt (Nat.lt_of_lt_of_le (Nat.zero_lt_succ _) (Nat.le_of_add_right_le deep)))
  have items := sequence_pieces (member (value depth)) endsNumber_brace (by decide) (by decide)
    pieces (fun piece listed => by
      obtain ⟨⟨name, text, v⟩, _, rfl⟩ := List.mem_map.mp listed
      exact ⟨34, _, rfl, by decide⟩)
    (fun piece listed next later ends => by
      have short := piece_length_le (List.mem_map_of_mem (f := Prod.fst) listed)
      obtain ⟨⟨name, text, v⟩, isMember, rfl⟩ := List.mem_map.mp listed
      obtain ⟨utf8, written⟩ := each _ isMember
      refine member_written utf8 written ?_ ends later
      dsimp only [memberText] at short
      rw [List.length_append, List.length_cons] at short
      change text.length ≤ depth
      omega)
    rest
  simp only [List.cons_append, List.append_assoc, List.nil_append]
  rw [value, skipWhitespace_cons (by decide)]
  dsimp only
  rw [if_neg (by decide), if_neg (by decide), if_pos rfl, items, values]
  rfl

theorem written_object (members : List (Bytes × Bytes × Value))
    (each : ∀ member ∈ members, IsUtf8 member.1 ∧ Written member.2.1 member.2.2) :
    Written (objectText (members.map fun (name, text, _) => (name, text)))
      (.object (members.map fun (name, _, v) => (name, v))) :=
  ⟨⟨123, _, rfl, by decide⟩, fun _ _ _ deep _ => value_object members each _ deep⟩

/-! ### Documents -/

section Documents

variable {φ : Type} (floatText : φ → Bytes)

def ofScalar : Scalar φ → Value
  | .integer n => .number (intText n)
  | .float x => .number (floatText x)
  | .bool b => .bool b
  | .slice bytes =>
      if IsUtf8 bytes then .string bytes
      else .array (bytes.map fun byte => .number (natText byte.toNat))

def ofNode : Node φ → Value
  | .scalar v => ofScalar floatText v
  | .object members => .object (members.map fun (name, v) => (Zig.ascii name, ofScalar floatText v))

def ofDocument (document : Document φ) : Value :=
  .object (document.map fun (name, node) => (Zig.ascii name, ofNode floatText node))

/-- The floats of a document are numbers, and its names are UTF-8. -/
def SoundScalar : Scalar φ → Prop
  | .float x => IsNumber (floatText x)
  | _ => True

def SoundNode : Node φ → Prop
  | .scalar v => SoundScalar floatText v
  | .object members => ∀ member ∈ members,
      IsUtf8 (Zig.ascii member.1) ∧ SoundScalar floatText member.2

def Sound (document : Document φ) : Prop :=
  ∀ member ∈ document, IsUtf8 (Zig.ascii member.1) ∧ SoundNode floatText member.2

variable {floatText}

theorem isNumber_natText (n : Nat) : IsNumber (natText n) := by
  have isNumber := isNumber_intText n
  rwa [intText, if_neg (by omega), Int.natAbs_natCast] at isNumber

theorem written_slice (bytes : Bytes) :
    Written (writeSlice bytes) (ofScalar floatText (.slice bytes)) := by
  by_cases utf8 : IsUtf8 bytes
  · have text : writeSlice bytes = encodeString bytes := if_pos utf8
    have v : ofScalar floatText (.slice bytes) = .string bytes := if_pos utf8
    rw [text, v]
    exact written_string utf8
  · have text : writeSlice bytes = 91 ::
        List.intercalate [44] (bytes.map fun byte => natText byte.toNat) ++ [93] := if_neg utf8
    have v : ofScalar floatText (.slice bytes) =
        .array (bytes.map fun byte => .number (natText byte.toNat)) := if_neg utf8
    have written := written_array
      (bytes.map fun byte => (natText byte.toNat, Value.number (natText byte.toNat)))
      (fun piece listed => by
        obtain ⟨byte, _, rfl⟩ := List.mem_map.mp listed
        exact (isNumber_natText _).written)
    rw [text, v]
    simpa only [List.map_map, Function.comp_def] using written

theorem written_scalar {v : Scalar φ} (sound : SoundScalar floatText v) :
    Written (renderScalar floatText v) (ofScalar floatText v) := by
  cases v with
  | integer n => exact (isNumber_intText n).written
  | float x => exact IsNumber.written sound
  | bool b =>
    have written := written_bool b
    cases b <;> exact written
  | slice bytes => exact written_slice bytes

/-- The writer's object is one of names and texts. -/
theorem renderMembers_eq {β : Type} (render : β → Bytes) (members : List (String × β)) :
    renderMembers render members =
      objectText (members.map fun (name, v) => (Zig.ascii name, render v)) := by
  unfold renderMembers objectText
  rw [List.map_map]
  rfl

theorem written_node {node : Node φ} (sound : SoundNode floatText node) :
    Written (renderNode floatText node) (ofNode floatText node) := by
  cases node with
  | scalar v => exact written_scalar sound
  | object members =>
    have written := written_object
      (members.map fun (name, v) =>
        (Zig.ascii name, renderScalar floatText v, ofScalar floatText v))
      (fun member listed => by
        obtain ⟨⟨name, v⟩, isMember, rfl⟩ := List.mem_map.mp listed
        obtain ⟨utf8, inner⟩ := sound _ isMember
        exact ⟨utf8, written_scalar inner⟩)
    change Written (renderMembers (renderScalar floatText) members) (.object _)
    rw [renderMembers_eq]
    simpa only [List.map_map, Function.comp_def] using written

/-- What the writer writes for a document is one value, and nothing is left. -/
theorem value_render {document : Document φ} (sound : Sound floatText document) :
    value ((render floatText document).length + 1) (render floatText document) =
      some (ofDocument floatText document, []) := by
  let members : List (Bytes × Bytes × Value) := document.map fun (name, node) =>
    (Zig.ascii name, renderNode floatText node, ofNode floatText node)
  have shape : render floatText document =
      objectText (members.map fun (name, text, _) => (name, text)) := by
    simp only [render, renderMembers_eq, members, List.map_map, Function.comp_def]
  have values : ofDocument floatText document =
      .object (members.map fun (name, _, v) => (name, v)) := by
    simp only [ofDocument, members, List.map_map, Function.comp_def]
  have whole := value_object members (fun member listed => by
      obtain ⟨⟨name, node⟩, isMember, rfl⟩ := List.mem_map.mp listed
      obtain ⟨utf8, inner⟩ := sound _ isMember
      exact ⟨utf8, written_node inner⟩) [] (Nat.le_succ _)
  rw [List.append_nil] at whole
  rw [shape, values]
  exact whole

theorem read_render {document : Document φ} (sound : Sound floatText document) :
    read (render floatText document) = some (ofDocument floatText document) := by
  unfold read
  rw [value_render sound]
  rfl

end Documents

end Json
