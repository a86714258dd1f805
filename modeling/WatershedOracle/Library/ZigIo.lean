import WatershedOracle.Library.ZigStd

set_option autoImplicit false

/-! The readers and writers of Zig's standard library: a stream that is read up to a
delimiter, and a writer that holds bytes back until its buffer is full. -/

namespace Zig

/-! ### Reader.streamUntilDelimiter -/

/-- The bytes written before the delimiter, and the stream after it. Without a delimiter
all bytes are written before the end of the stream is reported. -/
def streamUntilDelimiter (delimiter : UInt8) : Bytes → Bytes × Option Bytes
  | [] => ([], none)
  | byte :: rest =>
      if byte = delimiter then ([], some rest)
      else
        let (written, left) := streamUntilDelimiter delimiter rest
        (byte :: written, left)

section Stream

variable {delimiter : UInt8} {line : Bytes}

theorem streamUntilDelimiter_line (free : delimiter ∉ line) (rest : Bytes) :
    streamUntilDelimiter delimiter (line ++ delimiter :: rest) = (line, some rest) := by
  induction line with
  | nil => exact if_pos rfl
  | cons byte line ih =>
    rw [List.mem_cons, not_or] at free
    rw [List.cons_append, streamUntilDelimiter, if_neg (Ne.symm free.1), ih free.2]

theorem streamUntilDelimiter_end (free : delimiter ∉ line) :
    streamUntilDelimiter delimiter line = (line, none) := by
  induction line with
  | nil => rfl
  | cons byte line ih =>
    rw [List.mem_cons, not_or] at free
    rw [streamUntilDelimiter, if_neg (Ne.symm free.1), ih free.2]

/-- The delimiter at least is taken from the stream. -/
theorem streamUntilDelimiter_shorter {stream written rest : Bytes}
    (streamed : streamUntilDelimiter delimiter stream = (written, some rest)) :
    rest.length < stream.length := by
  induction stream generalizing written with
  | nil => cases streamed
  | cons byte stream ih =>
    rw [streamUntilDelimiter] at streamed
    split at streamed
    · cases streamed
      exact Nat.lt_succ_self _
    · obtain ⟨rfl, isLeft⟩ := Prod.mk.inj streamed
      exact Nat.lt_succ_of_lt (ih (Prod.ext rfl isLeft))

end Stream

/-! ### BufferedWriter -/

/-- A writer in front of a stream that takes whatever it is given: the bytes that have
reached the stream, and those in the buffer. -/
structure BufferedWriter (size : Nat) where
  written : Bytes := []
  buf : Bytes := []
  fits : buf.length ≤ size := by simp

namespace BufferedWriter

variable {size : Nat} (w : BufferedWriter size)

def flush : BufferedWriter size where
  written := w.written ++ w.buf

/-- A write that does not fit empties the buffer, and goes past it if it is longer. -/
def write (bytes : Bytes) : BufferedWriter size :=
  if room : w.buf.length + bytes.length ≤ size then
    { w with buf := w.buf ++ bytes, fits := by rw [List.length_append]; exact room }
  else if short : bytes.length ≤ size then
    { w.flush with buf := bytes, fits := short }
  else
    { w.flush with written := w.flush.written ++ bytes }

/-- No write is made for no bytes. -/
def writeAll (bytes : Bytes) : BufferedWriter size := if bytes = [] then w else w.write bytes

/-- The pieces of a format string, one write for each. -/
def print (pieces : List Bytes) : BufferedWriter size := pieces.foldl writeAll w

/-- All that was given to the writer. -/
def contents : Bytes := w.written ++ w.buf

@[simp] theorem flush_written : w.flush.written = w.contents := rfl

theorem write_contents (bytes : Bytes) : (w.write bytes).contents = w.contents ++ bytes := by
  unfold write
  split
  · simp [contents]
  · split <;> simp [contents, flush]

theorem writeAll_contents (bytes : Bytes) : (w.writeAll bytes).contents = w.contents ++ bytes := by
  unfold writeAll
  split
  · rename_i empty
    rw [empty, List.append_nil]
  · exact w.write_contents bytes

theorem print_contents (pieces : List Bytes) :
    (w.print pieces).contents = w.contents ++ pieces.flatten := by
  unfold print
  induction pieces generalizing w with
  | nil => simp
  | cons piece rest ih => rw [List.foldl_cons, ih, writeAll_contents, List.flatten_cons,
      List.append_assoc]

/-- A short write leaves something in the buffer. -/
theorem write_held {bytes : Bytes} (some_ : bytes ≠ []) (short : bytes.length ≤ size) :
    (w.write bytes).buf ≠ [] := by
  unfold write
  split
  · simp [some_]
  · exact some_

theorem print_held (pieces : List Bytes) {last : Bytes} (some_ : last ≠ [])
    (short : last.length ≤ size) : (w.print (pieces ++ [last])).buf ≠ [] := by
  rw [print, List.foldl_append, List.foldl_cons, List.foldl_nil, writeAll, if_neg some_]
  exact write_held _ some_ short

/-- What is in the buffer has not been written. -/
theorem written_eq_contents : w.written = w.contents ↔ w.buf = [] := by
  rw [contents, List.self_eq_append_right]

end BufferedWriter

end Zig
