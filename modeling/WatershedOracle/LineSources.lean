import WatershedOracle.Library.ZigIo
import WatershedOracle.LineFaults

set_option autoImplicit false

/-! The line-reading point sources byte by byte: the standard input, the buffer that each
call reuses, and the loop of gpsMock.zig over lines without a position. The input can
always be read, and the memory never runs out. -/

namespace WatershedOracle

open Effect

/-- What both sources hold. The display keeps the number of satellites it was told. -/
structure LineSource where
  stdin : Bytes
  stdinBuffer : Bytes := []
  display : Option Int := none

/-- The beginning of both: the buffer is cleared, and filled up to the next line feed.
What is written before the end of the stream stays in the buffer. -/
def nextLine : EStateM Fault LineSource Bytes := do
  modify fun src => { src with stdinBuffer := [] }
  let src ← get
  match Zig.streamUntilDelimiter Nmea.lineFeed src.stdin with
  | (written, some rest) =>
      set { src with stdin := rest, stdinBuffer := src.stdinBuffer ++ written }
      pure (src.stdinBuffer ++ written)
  | (written, none) =>
      set { src with stdin := [], stdinBuffer := src.stdinBuffer ++ written }
      throw (.error .NoMorePoints)

/-- stdin.zig. The zero that ends the C string is kept in the buffer. -/
def PointStdin.nextPoint (json : Bool) : EStateM Fault LineSource Point := do
  let line ← nextLine
  if json then
    match parsePointJson line with
    | .ok point => pure ⟨point.requestId, .xy point.longitude point.latitude⟩
    | .error e => throw (.error e)
  else
    modify fun src => { src with stdinBuffer := src.stdinBuffer ++ [0] }
    pure ⟨0, .wkt (line.takeWhile (· ≠ 0))⟩

namespace PointGps

def readandParseLine : EStateM Fault LineSource Nmea.Sentence := do
  let line ← nextLine
  match Nmea.parse line with
  | .ok sentence => pure sentence
  | .error fault => throw fault

/-- A display is told the satellites in view. How it draws them is left out. -/
def show_ (sentence : Nmea.Sentence) (src : LineSource) : LineSource :=
  match sentence with
  | .GSV gsv => { src with display := src.display.map fun _ => gsv.totalNumSat }
  | _ => src

@[simp] theorem show_stdin (sentence : Nmea.Sentence) (src : LineSource) :
    (show_ sentence src).stdin = src.stdin := by
  cases sentence <;> rfl

end PointGps

section NextLine

variable {src : LineSource} {line rest : Bytes}

theorem nextLine_streamed
    (streamed : Zig.streamUntilDelimiter Nmea.lineFeed src.stdin = (line, some rest)) :
    nextLine.run src = .ok line { src with stdin := rest, stdinBuffer := line } := by
  unfold nextLine
  rw [EStateM.run_bind, EStateM.run_modify]
  dsimp only
  rw [EStateM.run_bind, EStateM.run_get]
  dsimp only
  rw [streamed]
  rfl

theorem nextLine_stopped
    (streamed : Zig.streamUntilDelimiter Nmea.lineFeed src.stdin = (line, none)) :
    nextLine.run src =
      .error (.error .NoMorePoints) { src with stdin := [], stdinBuffer := line } := by
  unfold nextLine
  rw [EStateM.run_bind, EStateM.run_modify]
  dsimp only
  rw [EStateM.run_bind, EStateM.run_get]
  dsimp only
  rw [streamed]
  rfl

theorem nextLine_line (free : Nmea.lineFeed ∉ line)
    (unread : src.stdin = line ++ Nmea.lineFeed :: rest) :
    nextLine.run src = .ok line { src with stdin := rest, stdinBuffer := line } := by
  apply nextLine_streamed
  rw [unread, Zig.streamUntilDelimiter_line free]

theorem nextLine_end (free : Nmea.lineFeed ∉ src.stdin) :
    nextLine.run src =
      .error (.error .NoMorePoints) { src with stdin := [], stdinBuffer := src.stdin } :=
  nextLine_stopped (Zig.streamUntilDelimiter_end free)

/-- Every line that is read makes the input shorter. -/
theorem nextLine_shorter {src' : LineSource} (run : nextLine.run src = .ok line src') :
    src'.stdin.length < src.stdin.length := by
  cases streamed : Zig.streamUntilDelimiter Nmea.lineFeed src.stdin with
  | mk written left =>
    cases left with
    | none =>
      rw [nextLine_stopped streamed] at run
      cases run
    | some rest =>
      rw [nextLine_streamed streamed] at run
      cases run
      exact Zig.streamUntilDelimiter_shorter streamed

theorem readandParseLine_shorter {src' : LineSource} {sentence : Nmea.Sentence}
    (run : PointGps.readandParseLine.run src = .ok sentence src') :
    src'.stdin.length < src.stdin.length := by
  unfold PointGps.readandParseLine at run
  rw [EStateM.run_bind] at run
  cases read : nextLine.run src with
  | error fault _ =>
    rw [read] at run
    cases run
  | ok line next =>
    rw [read] at run
    have shorter := nextLine_shorter read
    dsimp only at run
    split at run
    · cases run
      exact shorter
    · cases run

end NextLine

namespace PointGps

/-- gpsMock.zig: the `while (true)` over the lines until one has a position. -/
def scan (src : LineSource) : EStateM.Result Fault LineSource Point :=
  match _read : readandParseLine.run src with
  | .error fault src => .error fault src
  | .ok sentence src =>
      match Nmea.extractPoint sentence with
      | some (x, y) => .ok ⟨0, .xy x y⟩ (show_ sentence src)
      | none => scan (show_ sentence src)
termination_by src.stdin.length
decreasing_by
  rw [show_stdin]
  exact readandParseLine_shorter _read

def nextPoint : EStateM Fault LineSource Point := scan

/-- The point of two coordinates, if there are both. -/
def at_ (longitude latitude : Option F64) : Option (Except Fault Point) := do
  let x ← longitude
  let y ← latitude
  pure (.ok ⟨0, .xy x y⟩)

/-- What a line is worth: its error, its point, or nothing. -/
def lineOutcome (line : Bytes) : Option (Except Fault Point) :=
  match Nmea.parse line with
  | .error fault => some (.error fault)
  | .ok (.GGA gga) => at_ gga.longitude gga.latitude
  | .ok (.RMC rmc) => at_ rmc.longitude rmc.latitude
  | .ok _ => none

theorem lineOutcome_error {line : Bytes} {fault : Fault}
    (rejected : Nmea.parse line = .error fault) : lineOutcome line = some (.error fault) := by
  rw [lineOutcome, rejected]

theorem lineOutcome_ok {line : Bytes} {sentence : Nmea.Sentence}
    (parsed : Nmea.parse line = .ok sentence) :
    lineOutcome line = (Nmea.extractPoint sentence).map fun (x, y) => .ok ⟨0, .xy x y⟩ := by
  rw [lineOutcome, parsed]
  cases sentence with
  | GGA gga =>
    unfold Nmea.extractPoint
    dsimp only
    cases gga.longitude <;> cases gga.latitude <;> rfl
  | RMC rmc =>
    unfold Nmea.extractPoint
    dsimp only
    cases rmc.longitude <;> cases rmc.latitude <;> rfl
  | _ => rfl

section Scan

variable {src src' : LineSource} {sentence : Nmea.Sentence}

theorem scan_error {fault : Fault} (read : readandParseLine.run src = .error fault src') :
    scan src = .error fault src' := by
  rw [scan]
  split
  · rename_i read'
    cases read.symm.trans read'
    rfl
  · rename_i read'
    cases read.symm.trans read'

theorem scan_point {x y : F64} (read : readandParseLine.run src = .ok sentence src')
    (at_ : Nmea.extractPoint sentence = some (x, y)) :
    scan src = .ok ⟨0, .xy x y⟩ (show_ sentence src') := by
  rw [scan]
  split
  · rename_i read'
    cases read.symm.trans read'
  · rename_i read'
    cases read.symm.trans read'
    rw [at_]

theorem scan_pass (read : readandParseLine.run src = .ok sentence src')
    (nowhere : Nmea.extractPoint sentence = none) : scan src = scan (show_ sentence src') := by
  rw [scan]
  split
  · rename_i read'
    cases read.symm.trans read'
  · rename_i read'
    cases read.symm.trans read'
    rw [nowhere]

end Scan

section Line

variable {src : LineSource} {line rest : Bytes} (free : Nmea.lineFeed ∉ line)
variable (unread : src.stdin = line ++ Nmea.lineFeed :: rest)

include free unread

theorem readandParseLine_error {fault : Fault} (rejected : Nmea.parse line = .error fault) :
    readandParseLine.run src = .error fault { src with stdin := rest, stdinBuffer := line } := by
  unfold readandParseLine
  rw [EStateM.run_bind, nextLine_line free unread]
  dsimp only
  rw [rejected]
  rfl

theorem readandParseLine_ok {sentence : Nmea.Sentence} (parsed : Nmea.parse line = .ok sentence) :
    readandParseLine.run src = .ok sentence { src with stdin := rest, stdinBuffer := line } := by
  unfold readandParseLine
  rw [EStateM.run_bind, nextLine_line free unread]
  dsimp only
  rw [parsed]
  rfl

/-- A call that begins at a line without a position goes on with the next one. -/
theorem nextPoint_skip (none_ : lineOutcome line = none) :
    ∃ src' : LineSource, src'.stdin = rest ∧ nextPoint.run src = nextPoint.run src' := by
  cases parsed : Nmea.parse line with
  | error fault =>
    rw [lineOutcome_error parsed] at none_
    cases none_
  | ok sentence =>
    rw [lineOutcome_ok parsed] at none_
    have read := readandParseLine_ok free unread parsed
    exact ⟨_, show_stdin _ _, scan_pass read (Option.map_eq_none_iff.mp none_)⟩

/-- A call that begins at any other line ends with it. -/
theorem nextPoint_answer {result : Except Fault Point} (some_ : lineOutcome line = some result) :
    outcome (nextPoint.run src) = result ∧ (endState (nextPoint.run src)).stdin = rest := by
  cases parsed : Nmea.parse line with
  | error fault =>
    rw [lineOutcome_error parsed] at some_
    cases some_
    have run : nextPoint.run src = _ := scan_error (readandParseLine_error free unread parsed)
    rw [run]
    exact ⟨rfl, rfl⟩
  | ok sentence =>
    rw [lineOutcome_ok parsed] at some_
    obtain ⟨point, at_, rfl⟩ := Option.map_eq_some_iff.mp some_
    have run : nextPoint.run src = _ := scan_point (readandParseLine_ok free unread parsed) at_
    rw [run]
    exact ⟨rfl, show_stdin _ _⟩

end Line

/-- Without a line feed nothing more is delivered, and nothing is left. -/
theorem nextPoint_end {src : LineSource} (free : Nmea.lineFeed ∉ src.stdin) :
    outcome (nextPoint.run src) = .error (.error .NoMorePoints) ∧
      (endState (nextPoint.run src)).stdin = [] := by
  have read : readandParseLine.run src =
      .error (.error .NoMorePoints) { src with stdin := [], stdinBuffer := src.stdin } := by
    unfold readandParseLine
    rw [EStateM.run_bind, nextLine_end free]
  have run : nextPoint.run src = _ := scan_error read
  rw [run]
  exact ⟨rfl, rfl⟩

/-- What an earlier call left in the buffer is never seen. -/
theorem nextPoint_cleared (src : LineSource) :
    nextPoint.run src = nextPoint.run { src with stdinBuffer := [] } := by
  show scan src = scan _
  rw [scan, scan]
  rfl

end PointGps

theorem terminated_cons (line : Bytes) (lines : List Bytes) (tail : Bytes) :
    terminated (line :: lines) ++ tail = line ++ Nmea.lineFeed :: (terminated lines ++ tail) := by
  rw [terminated, Lines.unlines_cons, List.append_assoc]
  rfl

section Stdin

variable {src : LineSource} {line rest : Bytes} {json : Bool}

/-- Without --json each line is a point, up to its first zero. -/
theorem PointStdin.nextPoint_wkt (free : Nmea.lineFeed ∉ line)
    (unread : src.stdin = line ++ Nmea.lineFeed :: rest) :
    (PointStdin.nextPoint false).run src = .ok ⟨0, .wkt (line.takeWhile (· ≠ 0))⟩
      { src with stdin := rest, stdinBuffer := line ++ [0] } := by
  unfold PointStdin.nextPoint
  rw [EStateM.run_bind, nextLine_line free unread]
  rfl

theorem PointStdin.nextPoint_json (free : Nmea.lineFeed ∉ line)
    (unread : src.stdin = line ++ Nmea.lineFeed :: rest) :
    outcome ((PointStdin.nextPoint true).run src) =
        ((parsePointJson line).mapError .error).map
          (fun point => ⟨point.requestId, .xy point.longitude point.latitude⟩) ∧
      (endState ((PointStdin.nextPoint true).run src)).stdin = rest := by
  unfold PointStdin.nextPoint
  rw [EStateM.run_bind, nextLine_line free unread]
  dsimp only
  rw [if_pos rfl]
  cases parsePointJson line with
  | ok point => exact ⟨rfl, rfl⟩
  | error e => exact ⟨rfl, rfl⟩

theorem PointStdin.nextPoint_end (free : Nmea.lineFeed ∉ src.stdin) :
    (PointStdin.nextPoint json).run src =
      .error (.error .NoMorePoints) { src with stdin := [], stdinBuffer := src.stdin } := by
  unfold PointStdin.nextPoint
  rw [EStateM.run_bind, nextLine_end free]

end Stdin

end WatershedOracle
