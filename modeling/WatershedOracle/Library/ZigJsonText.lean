import WatershedOracle.Library.Utf8Stream
import WatershedOracle.Library.ZigJsonReadback

set_option autoImplicit false

/-! What the writer of std.json writes is UTF-8: a string is only escaped at bytes that
are characters of their own, and other slices are written as arrays of numbers. -/

namespace Zig.Json

def IsText (bytes : Bytes) : Prop := ∃ text, Utf8.encode text = bytes

theorem isText_nil : IsText [] := ⟨[], rfl⟩

theorem IsText.append {first second : Bytes} (isFirst : IsText first) (isSecond : IsText second) :
    IsText (first ++ second) := by
  obtain ⟨text, rfl⟩ := isFirst
  obtain ⟨text', rfl⟩ := isSecond
  exact ⟨text ++ text', Utf8.encode_append text text'⟩

def Ascii (bytes : Bytes) : Prop := ∀ byte ∈ bytes, byte < 128

instance (bytes : Bytes) : Decidable (Ascii bytes) := List.decidableBAll (· < 128) bytes

theorem ascii_isChar (byte : UInt8) :
    byte < 128 → String.utf8EncodeChar (Char.ofNat byte.toNat) = [byte] :=
  forall_byte (P := fun byte => byte < 128 →
    String.utf8EncodeChar (Char.ofNat byte.toNat) = [byte]) (by decide +kernel) byte

theorem Ascii.isText {bytes : Bytes} (ascii : Ascii bytes) : IsText bytes := by
  induction bytes with
  | nil => exact isText_nil
  | cons byte rest ih =>
    obtain ⟨low, others⟩ := List.forall_mem_cons.mp ascii
    have first : IsText [byte] := ⟨[Char.ofNat byte.toNat], by
      rw [Utf8.encode_cons, Utf8.encode_nil, List.append_nil, ascii_isChar byte low]⟩
    exact first.append (ih others)

theorem isText_intercalate {separator : Bytes} {pieces : List Bytes} (between : IsText separator)
    (each : ∀ piece ∈ pieces, IsText piece) : IsText (List.intercalate separator pieces) := by
  induction pieces with
  | nil => exact isText_nil
  | cons piece rest ih =>
    obtain ⟨first, others⟩ := List.forall_mem_cons.mp each
    cases rest with
    | nil => simpa using first
    | cons next rest =>
      rw [List.intercalate_cons_cons]
      exact (first.append between).append (ih others)

/-! ### Strings -/

/-- A character is one byte below 128 or bytes that are not. -/
theorem utf8EncodeChar_cases (c : Char) :
    (∃ byte, String.utf8EncodeChar c = [byte] ∧ byte < 128) ∨
      ∀ byte ∈ String.utf8EncodeChar c, 128 ≤ byte := by
  have filled : ∀ bits ∈ ([0xc0, 0x80, 0xe0, 0xf0] : Bytes), ∀ byte : UInt8, 128 ≤ byte ||| bits := by
    intro bits member
    refine forall_byte (P := fun byte => 128 ≤ byte ||| bits) ?_
    revert bits
    decide +kernel
  rcases c.utf8Size_eq with one | two | three | four
  · refine .inl ⟨_, String.utf8EncodeChar_eq_singleton one, ?_⟩
    have low : c.val.toNat ≤ 127 := Char.utf8Size_eq_one_iff.mp one
    change c.val.toUInt8.toNat < 128
    rw [UInt32.toNat_toUInt8]
    omega
  · rw [String.utf8EncodeChar_eq_cons_cons two]
    simp [filled]
  · rw [String.utf8EncodeChar_eq_cons_cons_cons three]
    simp [filled]
  · rw [String.utf8EncodeChar_eq_cons_cons_cons_cons four]
    simp [filled]

theorem escapeByte_ascii (byte : UInt8) : byte < 128 → Ascii (escapeByte byte) :=
  forall_byte (P := fun byte => byte < 128 → Ascii (escapeByte byte)) (by decide +kernel) byte

theorem escapeByte_high (byte : UInt8) : 128 ≤ byte → escapeByte byte = [byte] :=
  forall_byte (P := fun byte => 128 ≤ byte → escapeByte byte = [byte]) (by decide +kernel) byte

theorem escapeByte_isText (text : List Char) : IsText ((Utf8.encode text).flatMap escapeByte) := by
  induction text with
  | nil => exact isText_nil
  | cons c text ih =>
    rw [Utf8.encode_cons, List.flatMap_append]
    refine IsText.append ?_ ih
    rcases utf8EncodeChar_cases c with ⟨byte, single, low⟩ | high
    · rw [single, List.flatMap_singleton]
      exact (escapeByte_ascii byte low).isText
    · have same : (String.utf8EncodeChar c).flatMap escapeByte = String.utf8EncodeChar c := by
        rw [List.flatMap_congr fun byte member => escapeByte_high byte (high byte member)]
        exact List.flatMap_singleton' _
      exact ⟨[c], by rw [same, Utf8.encode_cons, Utf8.encode_nil, List.append_nil]⟩

theorem encodeString_isText (text : List Char) : IsText (encodeString (Utf8.encode text)) := by
  have quote : IsText [34] := Ascii.isText (by decide)
  exact (quote.append (escapeByte_isText text)).append quote

theorem validateUTF8_isText {bytes : Bytes}
    (valid : (ByteArray.mk bytes.toArray).validateUTF8 = true) : IsText bytes := by
  obtain ⟨text, whole⟩ := ByteArray.validateUTF8_eq_true_iff.mp valid
  have same := congrArg (fun bytes => bytes.data.toList) whole
  exact ⟨text, by simpa [List.utf8Encode, Utf8.encode] using same.symm⟩

/-! ### Documents -/

theorem natText_ascii (n : Nat) : Ascii (natText n) := by
  intro byte member
  have digit := natText_digits n byte member
  simp only [isDigit, Bool.and_eq_true, decide_eq_true_eq] at digit
  have upper : byte.toNat ≤ 57 := digit.2
  change byte.toNat < 128
  omega

theorem intText_ascii (n : Int) : Ascii (intText n) := by
  unfold intText
  split
  · exact List.forall_mem_cons.mpr ⟨by decide, natText_ascii _⟩
  · exact natText_ascii _

theorem writeSlice_isText (slice : Bytes) : IsText (writeSlice slice) := by
  unfold writeSlice
  split
  · rename_i valid
    obtain ⟨text, rfl⟩ := validateUTF8_isText valid
    exact encodeString_isText text
  · have opening : IsText [91] := Ascii.isText (by decide)
    have closing : IsText [93] := Ascii.isText (by decide)
    refine (opening.append ?_).append closing
    apply isText_intercalate (Ascii.isText (by decide))
    intro piece member
    obtain ⟨byte, _, rfl⟩ := List.mem_map.mp member
    exact (natText_ascii _).isText

theorem renderMembers_isText {β : Type} {render : β → Bytes} {members : List (String × β)}
    (names : ∀ member ∈ members, Ascii (ascii member.1))
    (each : ∀ member ∈ members, IsText (render member.2)) :
    IsText (renderMembers render members) := by
  have opening : IsText [123] := Ascii.isText (by decide)
  have closing : IsText [125] := Ascii.isText (by decide)
  have colon : IsText [58] := Ascii.isText (by decide)
  refine (opening.append ?_).append closing
  apply isText_intercalate (Ascii.isText (by decide))
  intro piece inside
  obtain ⟨member, listed, rfl⟩ := List.mem_map.mp inside
  obtain ⟨name, isName⟩ := (names member listed).isText
  dsimp only
  rw [← isName]
  exact (encodeString_isText name).append (colon.append (each member listed))

section Render

variable {φ : Type} {floatText : φ → Bytes}

/-- The names of the members are ASCII. -/
def Node.Named : Node φ → Prop
  | .scalar _ => True
  | .object members => ∀ member ∈ members, Ascii (ascii member.1)

theorem renderScalar_isText (floats : ∀ x, IsText (floatText x)) (value : Scalar φ) :
    IsText (renderScalar floatText value) := by
  have words : Ascii (ascii "true") ∧ Ascii (ascii "false") := by decide
  cases value with
  | integer n => exact (intText_ascii n).isText
  | float x => exact floats x
  | bool b =>
    cases b
    · exact words.2.isText
    · exact words.1.isText
  | slice bytes => exact writeSlice_isText bytes

/-- A rendered document is a text, whatever bytes its strings hold. -/
theorem render_isText (floats : ∀ x, IsText (floatText x)) {document : Document φ}
    (names : ∀ member ∈ document, Ascii (ascii member.1) ∧ member.2.Named) :
    IsText (render floatText document) := by
  refine renderMembers_isText (fun member listed => (names member listed).1) ?_
  intro member listed
  obtain ⟨_, named⟩ := names member listed
  obtain ⟨name, node⟩ := member
  cases node with
  | scalar value => exact renderScalar_isText floats value
  | object members => exact renderMembers_isText named fun _ _ => renderScalar_isText floats _

end Render

end Zig.Json
