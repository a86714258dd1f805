import WatershedOracle.Library.Lines
import WatershedOracle.Library.Utf8Stream

set_option autoImplicit false

/-! The line iterator of lineIterator.js: a generator over the chunks of a stream. Texts
are lists of characters, so that an index counts characters and not UTF-16 units; the
iterator only hands on indices that it got itself. -/

namespace WatershedOracle.TelegramBot

abbrev Text := List Char

/-- The leftmost match of `\r\n|\n|\r`: where it starts and how long it is. -/
def search : Text → Option (Nat × Nat)
  | [] => none
  | '\r' :: '\n' :: _ => some (0, 2)
  | '\n' :: _ => some (0, 1)
  | '\r' :: _ => some (0, 1)
  | _ :: rest => (search rest).map fun (index, length) => (index + 1, length)

/-- What reader.read() resolves to. -/
inductive Read
  | value (bytes : Utf8.Bytes)
  | done

/-- The variables of the generator between two steps; `lastIndex` belongs to `re`. -/
structure LineIterator (σ : Type) where
  utf8Decoder : σ
  chunk : Text := []
  readerDone : Bool := false
  startIndex : Nat := 0
  lastIndex : Nat := 0
  linesRead : Nat := 0

/-- What the generator does once it has looked for the next line end. -/
inductive Action
  | read
  | again
  | yield (line : Text)
  | finish (last : Option Text)
  deriving DecidableEq

namespace LineIterator

variable {σ : Type}

/-- re.exec(chunk). -/
def exec (it : LineIterator σ) : LineIterator σ × Option Nat :=
  match search (it.chunk.drop it.lastIndex) with
  | some (index, length) =>
      ({ it with lastIndex := it.lastIndex + index + length }, some (it.lastIndex + index))
  | none => ({ it with lastIndex := 0 }, none)

/-- chunk.substr(startIndex). -/
def remainder (it : LineIterator σ) : Text := it.chunk.drop it.startIndex

/-- What follows `await reader.read()`. The first read has no remainder to keep. -/
def receive (D : Utf8.StreamDecoder σ) (it : LineIterator σ) : Read → LineIterator σ
  | .value bytes =>
      { it with
        utf8Decoder := (D.decode it.utf8Decoder bytes).1
        chunk := it.remainder ++ (D.decode it.utf8Decoder bytes).2
        readerDone := false, startIndex := 0, lastIndex := 0 }
  | .done =>
      { it with chunk := it.remainder, readerDone := true, startIndex := 0, lastIndex := 0 }

/-- One round of `for (;;)`, up to its `await`, its `yield` or its end. -/
def round (lineGroupSize : Nat) (it : LineIterator σ) : LineIterator σ × Action :=
  match it.exec with
  | (it, none) =>
      if it.readerDone then
        (it, .finish (if it.startIndex < it.chunk.length then some it.remainder else none))
      else (it, .read)
  | (it, some index) =>
      let it := { it with linesRead := it.linesRead + 1 }
      if lineGroupSize ≤ it.linesRead then
        ({ it with startIndex := it.lastIndex, linesRead := 0 },
          .yield ((it.chunk.take index).drop it.startIndex))
      else (it, .again)

/-- The generator before its first read. -/
def init (D : Utf8.StreamDecoder σ) : LineIterator σ := { utf8Decoder := D.start }

end LineIterator

/-! ### Lines without a carriage return -/

/-- No character of a line is a line end. -/
def IsLine (line : Text) : Prop := '\n' ∉ line ∧ '\r' ∉ line

/-- The stream that consists of the given lines. -/
def joined (lines : List Text) : Text := Lines.unlines '\n' lines

theorem search_eq_none {text : Text} (noLineFeed : '\n' ∉ text) (noReturn : '\r' ∉ text) :
    search text = none := by
  induction text with
  | nil => rfl
  | cons c rest ih =>
    simp only [List.mem_cons, not_or] at noLineFeed noReturn
    unfold search
    split <;> simp_all

theorem search_line {line : Text} (isLine : IsLine line) (rest : Text) :
    search (line ++ '\n' :: rest) = some (line.length, 1) := by
  induction line with
  | nil => rfl
  | cons c line ih =>
    obtain ⟨noLineFeed, noReturn⟩ := isLine
    simp only [List.mem_cons, not_or] at noLineFeed noReturn
    rw [List.cons_append]
    unfold search
    split <;> simp_all [IsLine]

/-- Where a text holds a line feed, its first line ends. -/
theorem exists_first_line {text : Text} (noReturn : '\r' ∉ text) (lineFeed : '\n' ∈ text) :
    ∃ line rest, text = line ++ '\n' :: rest ∧ IsLine line := by
  obtain ⟨line, rest, rfl, absent⟩ := List.eq_append_cons_of_mem lineFeed
  exact ⟨line, rest, rfl, absent, fun member => noReturn (List.mem_append_left _ member)⟩

namespace LineIterator

variable {σ : Type} {it : LineIterator σ}

/-- The state in which `re` goes on where the last line ended. -/
structure Ready (it : LineIterator σ) : Prop where
  aligned : it.lastIndex = it.startIndex
  open_ : it.readerDone = false
  fresh : it.linesRead = 0

theorem exec_some {index length : Nat}
    (found : search (it.chunk.drop it.lastIndex) = some (index, length)) :
    it.exec = ({ it with lastIndex := it.lastIndex + index + length },
      some (it.lastIndex + index)) := by
  simp only [exec, found]

theorem exec_none (found : search (it.chunk.drop it.lastIndex) = none) :
    it.exec = ({ it with lastIndex := 0 }, none) := by
  simp only [exec, found]

theorem init_remainder (D : Utf8.StreamDecoder σ) : (init D).remainder = [] := rfl

theorem receive_value (D : Utf8.StreamDecoder σ) (fresh : it.linesRead = 0) (bytes : Utf8.Bytes) :
    (it.receive D (.value bytes)).Ready ∧
      (it.receive D (.value bytes)).remainder =
        it.remainder ++ (D.decode it.utf8Decoder bytes).2 :=
  ⟨⟨rfl, rfl, fresh⟩, rfl⟩

/-- A line that has arrived whole is handed on, and nothing else is. -/
theorem round_line (ready : it.Ready) {line rest : Text} (isLine : IsLine line)
    (whole : it.remainder = line ++ '\n' :: rest) :
    ∃ it', it.round 1 = (it', .yield line) ∧ it'.Ready ∧ it'.remainder = rest ∧
      it'.utf8Decoder = it.utf8Decoder := by
  have found : search (it.chunk.drop it.lastIndex) = some (line.length, 1) := by
    rw [ready.aligned]
    exact (congrArg search whole).trans (search_line isLine rest)
  have executed : it.exec = ({ it with lastIndex := it.startIndex + line.length + 1 },
      some (it.startIndex + line.length)) := by
    rw [exec_some found, ready.aligned]
  have taken : (it.chunk.take (it.startIndex + line.length)).drop it.startIndex = line := by
    rw [List.drop_take, Nat.add_sub_cancel_left]
    change it.remainder.take line.length = line
    rw [whole, List.take_left]
  have left : it.chunk.drop (it.startIndex + line.length + 1) = rest := by
    rw [Nat.add_assoc, ← List.drop_drop]
    change it.remainder.drop (line.length + 1) = rest
    rw [whole, ← List.drop_drop, List.drop_left, List.drop_one, List.tail_cons]
  have round : it.round 1 = ({ it with
      lastIndex := it.startIndex + line.length + 1, startIndex := it.startIndex + line.length + 1,
      linesRead := 0 }, .yield line) := by
    simp only [LineIterator.round, executed, Nat.le_add_left, ↓reduceIte, taken]
  exact ⟨_, round, ⟨rfl, ready.open_, rfl⟩, left, rfl⟩

/-- Without a line end the generator waits for more and keeps what it has. -/
theorem round_read (ready : it.Ready) (isLine : IsLine it.remainder) :
    ∃ it', it.round 1 = (it', .read) ∧ it'.remainder = it.remainder ∧ it'.linesRead = 0 ∧
      it'.utf8Decoder = it.utf8Decoder := by
  have found : search (it.chunk.drop it.lastIndex) = none := by
    rw [ready.aligned]
    exact search_eq_none isLine.1 isLine.2
  have round : it.round 1 = ({ it with lastIndex := 0 }, .read) := by
    simp [LineIterator.round, exec_none found, ready.open_]
  exact ⟨_, round, rfl, ready.fresh, rfl⟩

end LineIterator

end WatershedOracle.TelegramBot
