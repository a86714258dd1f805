import WatershedOracle.Library.ZigStd

set_option autoImplicit false

/-! std.json: the minified writer for objects of scalars and objects of such objects,
and the scanner for objects whose members are numbers or strings. -/

namespace Zig.Json

/-! ### Writing -/

def hexDigit (n : Nat) : UInt8 := UInt8.ofNat (if n < 10 then 48 + n else 87 + n)

/-- Bytes below 32, the quote and the backslash are always escaped. -/
def escapeByte (c : UInt8) : Bytes :=
  if c = 34 then [92, 34]
  else if c = 92 then [92, 92]
  else if c = 8 then [92, 98]
  else if c = 12 then [92, 102]
  else if c = 10 then [92, 110]
  else if c = 13 then [92, 114]
  else if c = 9 then [92, 116]
  else if c < 32 then [92, 117, 48, 48, hexDigit (c.toNat / 16), hexDigit (c.toNat % 16)]
  else [c]

def encodeString (chars : Bytes) : Bytes := 34 :: chars.flatMap escapeByte ++ [34]

def natText (n : Nat) : Bytes := (Nat.toDigits 10 n).map Char.toUInt8

def intText (n : Int) : Bytes := if n < 0 then 45 :: natText n.natAbs else natText n.natAbs

/-- A slice of bytes is written as a string when it is UTF-8, as an array otherwise. -/
def writeSlice (slice : Bytes) : Bytes :=
  if (ByteArray.mk slice.toArray).validateUTF8 then encodeString slice
  else 91 :: List.intercalate [44] (slice.map fun byte => natText byte.toNat) ++ [93]

inductive Scalar (φ : Type)
  | integer (n : Int)
  | float (x : φ)
  | bool (b : Bool)
  | slice (bytes : Bytes)

inductive Node (φ : Type)
  | scalar (value : Scalar φ)
  | object (members : List (String × Scalar φ))

/-- The members of an object in the order in which they are written. -/
abbrev Document (φ : Type) := List (String × Node φ)

section Render

variable {φ : Type} (floatText : φ → Bytes)

def renderScalar : Scalar φ → Bytes
  | .integer n => intText n
  | .float x => floatText x
  | .bool true => ascii "true"
  | .bool false => ascii "false"
  | .slice bytes => writeSlice bytes

def renderMembers {β : Type} (render : β → Bytes) (members : List (String × β)) : Bytes :=
  123 :: List.intercalate [44]
    (members.map fun (name, value) => encodeString (ascii name) ++ 58 :: render value) ++ [125]

def renderNode : Node φ → Bytes
  | .scalar value => renderScalar floatText value
  | .object members => renderMembers (renderScalar floatText) members

def render (document : Document φ) : Bytes := renderMembers (renderNode floatText) document

/-- No byte below 32: no line end and no other control character. -/
def Printable (text : Bytes) : Prop := ∀ byte ∈ text, 32 ≤ byte

section Printable

variable {floatText}

theorem printable_append {a b : Bytes} :
    Printable (a ++ b) ↔ Printable a ∧ Printable b := by
  simp only [Printable, List.mem_append, or_imp, forall_and]

theorem printable_cons {c : UInt8} {rest : Bytes} :
    Printable (c :: rest) ↔ 32 ≤ c ∧ Printable rest := by
  simp only [Printable, List.forall_mem_cons]

theorem printable_intercalate {separator : Bytes} {pieces : List Bytes}
    (between : Printable separator) (each : ∀ piece ∈ pieces, Printable piece) :
    Printable (List.intercalate separator pieces) := by
  induction pieces with
  | nil => simp [Printable]
  | cons piece rest ih =>
    obtain ⟨first, others⟩ := List.forall_mem_cons.mp each
    cases rest with
    | nil => simpa using first
    | cons next rest =>
      rw [List.intercalate_cons_cons]
      exact printable_append.mpr ⟨printable_append.mpr ⟨first, between⟩, ih others⟩

instance (text : Bytes) : Decidable (Printable text) := List.decidableBAll (32 ≤ ·) text

theorem forall_byte {P : UInt8 → Prop} (each : ∀ n : Fin 256, P (UInt8.ofNat n.val))
    (c : UInt8) : P c := by
  have isByte : UInt8.ofNat c.toNat = c := UInt8.ofNat_toNat
  exact isByte ▸ each ⟨c.toNat, c.toNat_lt⟩

theorem escapeByte_printable (c : UInt8) : Printable (escapeByte c) :=
  forall_byte (P := fun c => Printable (escapeByte c)) (by decide +kernel) c

theorem encodeString_printable (chars : Bytes) : Printable (encodeString chars) := by
  refine printable_cons.mpr ⟨by decide, printable_append.mpr ⟨?_, by decide⟩⟩
  intro byte member
  obtain ⟨c, _, inside⟩ := List.mem_flatMap.mp member
  exact escapeByte_printable c byte inside

theorem natText_printable (n : Nat) : Printable (natText n) := by
  intro byte member
  obtain ⟨c, isChar, rfl⟩ := List.mem_map.mp member
  have digit := Nat.isDigit_of_mem_toDigits (by decide) (by decide) isChar
  simp only [Char.isDigit, Bool.and_eq_true, decide_eq_true_eq, ge_iff_le] at digit
  have lower : 48 ≤ c.val.toNat := digit.1
  have upper : c.val.toNat ≤ 57 := digit.2
  change 32 ≤ (c.val.toUInt8).toNat
  rw [UInt32.toNat_toUInt8]
  omega

theorem intText_printable (n : Int) : Printable (intText n) := by
  unfold intText
  split
  · exact printable_cons.mpr ⟨by decide, natText_printable _⟩
  · exact natText_printable _

theorem writeSlice_printable (slice : Bytes) : Printable (writeSlice slice) := by
  unfold writeSlice
  split
  · exact encodeString_printable slice
  · refine printable_cons.mpr ⟨by decide, printable_append.mpr ⟨?_, by decide⟩⟩
    apply printable_intercalate (by decide)
    intro piece member
    obtain ⟨byte, _, rfl⟩ := List.mem_map.mp member
    exact natText_printable _

theorem renderMembers_printable {β : Type} {render : β → Bytes} {members : List (String × β)}
    (each : ∀ member ∈ members, Printable (render member.2)) :
    Printable (renderMembers render members) := by
  refine printable_cons.mpr ⟨by decide, printable_append.mpr ⟨?_, by decide⟩⟩
  apply printable_intercalate (by decide)
  intro piece inside
  obtain ⟨member, listed, rfl⟩ := List.mem_map.mp inside
  exact printable_append.mpr ⟨encodeString_printable _,
    printable_cons.mpr ⟨by decide, each member listed⟩⟩

theorem renderScalar_printable (floats : ∀ x, Printable (floatText x)) (value : Scalar φ) :
    Printable (renderScalar floatText value) := by
  cases value with
  | integer n => exact intText_printable n
  | float x => exact floats x
  | bool b =>
    have both : Printable (ascii "true") ∧ Printable (ascii "false") := by decide
    cases b
    · exact both.2
    · exact both.1
  | slice bytes => exact writeSlice_printable bytes

/-- A rendered document is one line, whatever bytes its strings hold. -/
theorem render_printable (floats : ∀ x, Printable (floatText x)) (document : Document φ) :
    Printable (render floatText document) := by
  apply renderMembers_printable
  intro member _
  cases member.2 with
  | scalar value => exact renderScalar_printable floats value
  | object members => exact renderMembers_printable fun _ _ => renderScalar_printable floats _

end Printable

end Render

/-! ### Scanning -/

inductive ScanError
  | SyntaxError | UnexpectedEndOfInput | UnexpectedToken
  deriving DecidableEq, Repr

def skipWhitespace (s : Bytes) : Bytes :=
  s.dropWhile fun c => decide (c ∈ ([32, 9, 10, 13] : Bytes))

def hexValue (c : UInt8) : Option Nat := charToDigit c 16

/-- Four hexadecimal digits. -/
def scanHex4 : Bytes → Except ScanError (Nat × Bytes)
  | a :: b :: c :: d :: rest =>
      match hexValue a, hexValue b, hexValue c, hexValue d with
      | some a, some b, some c, some d => .ok (((a * 16 + b) * 16 + c) * 16 + d, rest)
      | _, _, _, _ => .error .SyntaxError
  | _ => .error .UnexpectedEndOfInput

/-- The UTF-8 bytes of a code point. -/
def utf8Encode (code : Nat) : Bytes :=
  if code < 0x80 then [UInt8.ofNat code]
  else if code < 0x800 then [UInt8.ofNat (0xC0 + code / 64), UInt8.ofNat (0x80 + code % 64)]
  else if code < 0x10000 then
    [UInt8.ofNat (0xE0 + code / 4096), UInt8.ofNat (0x80 + code / 64 % 64),
      UInt8.ofNat (0x80 + code % 64)]
  else
    [UInt8.ofNat (0xF0 + code / 262144), UInt8.ofNat (0x80 + code / 4096 % 64),
      UInt8.ofNat (0x80 + code / 64 % 64), UInt8.ofNat (0x80 + code % 64)]

/-- What follows `\u`: a code unit, or a high and a low surrogate. -/
def scanUnicodeEscape (s : Bytes) : Except ScanError (Bytes × Bytes) := do
  let (first, rest) ← scanHex4 s
  if 0xD800 ≤ first ∧ first < 0xDC00 then
    match rest with
    | 92 :: 117 :: rest =>
        let (second, rest) ← scanHex4 rest
        if 0xDC00 ≤ second ∧ second < 0xE000 then
          pure (utf8Encode (0x10000 + (first - 0xD800) * 1024 + (second - 0xDC00)), rest)
        else throw .SyntaxError
    | [] | [92] => throw .UnexpectedEndOfInput
    | _ => throw .SyntaxError
  else if 0xDC00 ≤ first ∧ first < 0xE000 then throw .SyntaxError
  else pure (utf8Encode first, rest)

/-- What follows a backslash. -/
def scanEscape : Bytes → Except ScanError (Bytes × Bytes)
  | [] => .error .UnexpectedEndOfInput
  | c :: rest =>
      if c = 34 ∨ c = 92 ∨ c = 47 then .ok ([c], rest)
      else if c = 98 then .ok ([8], rest)
      else if c = 102 then .ok ([12], rest)
      else if c = 110 then .ok ([10], rest)
      else if c = 114 then .ok ([13], rest)
      else if c = 116 then .ok ([9], rest)
      else if c = 117 then scanUnicodeEscape rest
      else .error .SyntaxError

/-- The rest of a string after its opening quote, at most `fuel` pieces long: every
piece takes at least one byte, so the number of bytes is fuel enough. -/
def scanString : Nat → Bytes → Except ScanError (Bytes × Bytes)
  | 0, _ => .error .UnexpectedEndOfInput
  | _ + 1, [] => .error .UnexpectedEndOfInput
  | fuel + 1, c :: rest =>
      if c = 34 then .ok ([], rest)
      else if c = 92 then do
        let (piece, rest) ← scanEscape rest
        let (others, rest) ← scanString fuel rest
        pure (piece ++ others, rest)
      else if c < 32 then .error .SyntaxError
      else do
        let (others, rest) ← scanString fuel rest
        pure (c :: others, rest)

/-- A string token: its bytes must be UTF-8. -/
def stringToken (s : Bytes) : Except ScanError (Bytes × Bytes) := do
  let (text, rest) ← scanString (s.length + 1) s
  if (ByteArray.mk text.toArray).validateUTF8 then pure (text, rest) else throw .SyntaxError

def isDigit (c : UInt8) : Bool := decide (48 ≤ c) && decide (c ≤ 57)

/-- One digit or more. -/
def scanDigits1 (s : Bytes) : Except ScanError (Bytes × Bytes) :=
  match s with
  | [] => .error .UnexpectedEndOfInput
  | c :: _ => if isDigit c then .ok (s.takeWhile isDigit, s.dropWhile isDigit)
      else .error .SyntaxError

/-- The digits before the point: zero alone, or digits that do not start with it. -/
def scanWhole : Bytes → Except ScanError (Bytes × Bytes)
  | 48 :: rest => .ok ([48], rest)
  | s => scanDigits1 s

def scanFraction : Bytes → Except ScanError (Bytes × Bytes)
  | 46 :: rest => do
      let (digits, rest) ← scanDigits1 rest
      pure (46 :: digits, rest)
  | s => .ok ([], s)

def scanExponentPart : Bytes → Except ScanError (Bytes × Bytes)
  | c :: rest =>
      if c = 101 ∨ c = 69 then
        match rest with
        | 43 :: rest => do
            let (digits, rest) ← scanDigits1 rest
            pure (c :: 43 :: digits, rest)
        | 45 :: rest => do
            let (digits, rest) ← scanDigits1 rest
            pure (c :: 45 :: digits, rest)
        | _ => do
            let (digits, rest) ← scanDigits1 rest
            pure (c :: digits, rest)
      else .ok ([], c :: rest)
  | [] => .ok ([], [])

/-- A number token, as the text it was written in. -/
def numberToken (s : Bytes) : Except ScanError (Bytes × Bytes) := do
  let (sign, unsigned) := match s with
    | 45 :: rest => (([45] : Bytes), rest)
    | _ => ([], s)
  let (whole, rest) ← scanWhole unsigned
  let (fraction, rest) ← scanFraction rest
  let (exponent, rest) ← scanExponentPart rest
  pure (sign ++ whole ++ fraction ++ exponent, rest)

/-- The token at the front where a number or a string is wanted: its text. Any other
token is unexpected. -/
def scalarToken (s : Bytes) : Except ScanError (Bytes × Bytes) :=
  match s with
  | [] => .error .UnexpectedEndOfInput
  | 34 :: rest => stringToken rest
  | c :: rest =>
      if c = 45 ∨ isDigit c = true then numberToken s
      else if c = 123 ∨ c = 91 then .error .UnexpectedToken
      else if ascii "rue" <+: rest ∧ c = 116 ∨ ascii "alse" <+: rest ∧ c = 102 ∨
          ascii "ull" <+: rest ∧ c = 110 then .error .UnexpectedToken
      else .error .SyntaxError

/-- One given character after white space. -/
def expect (c : UInt8) (s : Bytes) : Except ScanError Bytes :=
  match skipWhitespace s with
  | [] => .error .UnexpectedEndOfInput
  | first :: rest => if first = c then .ok rest else .error .SyntaxError

end Zig.Json
