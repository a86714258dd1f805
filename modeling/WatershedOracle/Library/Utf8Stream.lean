import Mathlib.Data.List.Induction

set_option autoImplicit false

/-! Decoders that are fed a UTF-8 stream in chunks and keep what they cannot decode
yet. A chunk may end anywhere, also inside a character. -/

namespace Utf8

abbrev Bytes := List UInt8

def encode (text : List Char) : Bytes := text.flatMap String.utf8EncodeChar

@[simp] theorem encode_nil : encode [] = [] := rfl

theorem encode_cons (c : Char) (text : List Char) :
    encode (c :: text) = String.utf8EncodeChar c ++ encode text := rfl

theorem encode_append (first second : List Char) :
    encode (first ++ second) = encode first ++ encode second :=
  List.flatMap_append

/-- The text does not begin with a byte order mark, which a decoder may drop. -/
def Unmarked (text : List Char) : Prop := text.head? ≠ some '\uFEFF'

/-- A decoder with state: what it returns for a chunk depends on the chunks before. -/
structure StreamDecoder (σ : Type) where
  start : σ
  decode : σ → Bytes → σ × List Char

namespace StreamDecoder

variable {σ : Type} (D : StreamDecoder σ)

/-- The state after some chunks. -/
def state (chunks : List Bytes) : σ := chunks.foldl (fun s chunk => (D.decode s chunk).1) D.start

/-- All that was decoded from some chunks. -/
def text (chunks : List Bytes) : List Char :=
  (chunks.foldl (fun (s, text) chunk => ((D.decode s chunk).1, text ++ (D.decode s chunk).2))
    (D.start, [])).2

theorem foldl_state (chunks : List Bytes) (s : σ) (before : List Char) :
    (chunks.foldl (fun (s, text) chunk => ((D.decode s chunk).1, text ++ (D.decode s chunk).2))
      (s, before)).1 = chunks.foldl (fun s chunk => (D.decode s chunk).1) s := by
  induction chunks generalizing s before with
  | nil => rfl
  | cons chunk rest ih => exact ih _ _

@[simp] theorem state_concat (chunks : List Bytes) (chunk : Bytes) :
    D.state (chunks ++ [chunk]) = (D.decode (D.state chunks) chunk).1 := by
  simp [state]

@[simp] theorem text_concat (chunks : List Bytes) (chunk : Bytes) :
    D.text (chunks ++ [chunk]) = D.text chunks ++ (D.decode (D.state chunks) chunk).2 := by
  simp only [text, List.foldl_append, List.foldl_cons, List.foldl_nil, state,
    ← foldl_state D chunks D.start []]

/-- Whatever the chunks, a whole stream is decoded to the text it encodes. -/
def Correct : Prop :=
  ∀ (chunks : List Bytes) (text : List Char), Unmarked text →
    chunks.flatten = encode text → D.text chunks = text

/-- No character is held back once its last byte has come. -/
def Prompt : Prop :=
  ∀ (chunks : List Bytes) (text : List Char) (rest : Bytes), Unmarked text →
    chunks.flatten = encode text ++ rest → text <+: D.text chunks

variable {D}

/-- Up to any point of a stream, what was decoded is a beginning of its text. -/
theorem Correct.text_prefix (correct : D.Correct) {chunks : List Bytes} {later : Bytes}
    {whole : List Char} (unmarked : Unmarked whole)
    (stream : chunks.flatten ++ later = encode whole) : D.text chunks <+: whole := by
  have all : D.text (chunks ++ [later]) = whole := correct _ _ unmarked (by simpa using stream)
  rw [text_concat] at all
  exact ⟨_, all⟩

end StreamDecoder

/-! ### A decoder -/

/-- Keep the bytes of a character until the last one comes. -/
def feedByte (pending : Bytes) (byte : UInt8) : Bytes × List Char :=
  match (pending ++ [byte]).toByteArray.utf8DecodeChar? 0 with
  | some c => ([], [c])
  | none => (pending ++ [byte], [])

def feed : Bytes → Bytes → Bytes × List Char
  | pending, [] => (pending, [])
  | pending, byte :: rest =>
      let (pending, first) := feedByte pending byte
      let (pending, others) := feed pending rest
      (pending, first ++ others)

/-- On a well-formed stream it decodes each character with its last byte. -/
def wellFormed : StreamDecoder Bytes := ⟨[], feed⟩

theorem feed_append (pending first second : Bytes) :
    feed pending (first ++ second) =
      ((feed (feed pending first).1 second).1,
        (feed pending first).2 ++ (feed (feed pending first).1 second).2) := by
  induction first generalizing pending with
  | nil => rfl
  | cons byte rest ih => simp only [List.cons_append, feed, ih, List.append_assoc]

/-- The bytes of a character, whose beginning `pending` has been fed already. -/
theorem feed_rest {c : Char} (rest pending : Bytes)
    (split : pending ++ rest = String.utf8EncodeChar c) (more : rest ≠ []) :
    feed pending rest = ([], [c]) := by
  induction rest generalizing pending with
  | nil => exact absurd rfl more
  | cons byte rest ih =>
    have whole : (pending ++ [byte]) ++ rest = String.utf8EncodeChar c := by
      rw [List.append_assoc]
      exact split
    have decoded : (((pending ++ [byte]) ++ rest).toByteArray).utf8DecodeChar? 0 = some c := by
      rw [whole]
      simpa using @ByteArray.utf8DecodeChar?_utf8EncodeChar_append ByteArray.empty c
    cases found : (pending ++ [byte]).toByteArray.utf8DecodeChar? 0 with
    | some d =>
      have early := ByteArray.utf8DecodeChar?_append_eq_some found rest.toByteArray
      rw [← List.toByteArray_append, decoded] at early
      obtain rfl := Option.some.inj early
      have size := ByteArray.le_size_of_utf8DecodeChar?_eq_some found
      have length := congrArg List.length whole
      simp only [List.size_toByteArray, List.length_append, String.length_utf8EncodeChar]
        at size length
      obtain rfl : rest = [] := List.eq_nil_of_length_eq_zero (by omega)
      simp only [feed, feedByte, found, List.append_nil]
    | none =>
      have unfinished : rest ≠ [] := by
        rintro rfl
        rw [List.append_nil, found] at decoded
        cases decoded
      simp only [feed, feedByte, found, List.nil_append]
      rw [ih _ whole unfinished]

theorem feed_encode (text : List Char) : feed [] (encode text) = ([], text) := by
  induction text with
  | nil => rfl
  | cons c text ih =>
    rw [encode_cons, feed_append, feed_rest _ [] (List.nil_append _) String.utf8EncodeChar_ne_nil, ih]
    rfl

theorem wellFormed_text (chunks : List Bytes) :
    (wellFormed.state chunks, wellFormed.text chunks) = feed [] chunks.flatten := by
  induction chunks using List.reverseRecOn with
  | nil => rfl
  | append_singleton chunks chunk ih =>
    have same := Prod.ext_iff.mp ih
    simp only at same
    rw [StreamDecoder.state_concat, StreamDecoder.text_concat, List.flatten_append, feed_append,
      ← same.1, ← same.2]
    simp [wellFormed]

theorem wellFormed_whole {chunks : List Bytes} {text : List Char}
    (stream : chunks.flatten = encode text) : wellFormed.text chunks = text := by
  have run := wellFormed_text chunks
  rw [stream, feed_encode] at run
  exact (Prod.ext_iff.mp run).2

theorem wellFormed_correct : wellFormed.Correct :=
  fun _ _ _ stream => wellFormed_whole stream

theorem wellFormed_prompt : wellFormed.Prompt := by
  intro chunks text rest _ stream
  have run := (Prod.ext_iff.mp (wellFormed_text chunks)).2
  rw [stream, feed_append, feed_encode] at run
  exact ⟨(feed [] rest).2, run.symm⟩

end Utf8
