import WatershedOracle.PointStream
import WatershedOracle.SourceRefinement

set_option autoImplicit false

/-! The point source of the Raspberry Pi, gps.zig: NMEA sentences from a serial port that
pigpiod polls. The answers of pigpiod are a list; where it ends, a call is still waiting. -/

namespace WatershedOracle.PointSerial

open Effect

/-- What bb_serial_read answers when it is asked for one byte. -/
inductive Poll
  | idle
  | byte (byte : UInt8)
  | failure (code : Nat)
  deriving DecidableEq

/-- The number of bytes read, or a negative error code. -/
def Poll.retval : Poll → Int
  | .idle => 0
  | .byte _ => 1
  | .failure code => Int.negSucc code

def Poll.bytes : Poll → Bytes
  | .byte value => [value]
  | _ => []

/-- How a call ends that returns no point. Waiting is no error: the call goes on when
pigpiod answers again. -/
inductive SerialFault
  | waiting
  | Pigpiod
  | fault (fault : Fault)
  deriving DecidableEq

/-- The display keeps the number of satellites it was told. -/
structure SerialSource where
  polls : List Poll
  buffer : Bytes := []
  display : Option Int := none

/-! ### gps.zig -/

def check (retval : Int) : Except SerialFault Unit :=
  if retval < 0 then .error .Pigpiod else .ok ()

def tryCheck (retval : Int) : Except SerialFault Nat := do
  check retval
  pure retval.toNat

/-- The first answer that has bytes. The others are slept over. -/
def serialRead : List Poll → Except SerialFault Bytes × List Poll
  | [] => (.error .waiting, [])
  | poll :: rest =>
      match tryCheck poll.retval with
      | .error fault => (.error fault, rest)
      | .ok bytesRead => if 0 < bytesRead then (.ok poll.bytes, rest) else serialRead rest

/-- std.io.Reader's readByte takes an empty read for the end of the stream. -/
def readByte (polls : List Poll) : Except SerialFault UInt8 × List Poll :=
  match serialRead polls with
  | (.error fault, rest) => (.error fault, rest)
  | (.ok [], rest) => (.error (.fault (.error .EndOfStream)), rest)
  | (.ok (byte :: _), rest) => (.ok byte, rest)

theorem serialRead_shorter {polls rest : List Poll} {bytes : Bytes}
    (read : serialRead polls = (.ok bytes, rest)) : rest.length < polls.length := by
  induction polls with
  | nil => cases read
  | cons poll others ih =>
    rw [serialRead] at read
    split at read
    · cases read
    · split at read
      · cases read
        exact Nat.lt_succ_self _
      · exact Nat.lt_succ_of_lt (ih read)

theorem readByte_shorter {polls rest : List Poll} {byte : UInt8}
    (read : readByte polls = (.ok byte, rest)) : rest.length < polls.length := by
  unfold readByte at read
  split at read
  · cases read
  · cases read
  · rename_i serial
    cases read
    exact serialRead_shorter serial

/-- The bytes written before the delimiter, and how the call ended. -/
def streamUntilDelimiter (delimiter : UInt8) (polls : List Poll) :
    Bytes × Except SerialFault Unit × List Poll :=
  match _read : readByte polls with
  | (.error fault, rest) => ([], .error fault, rest)
  | (.ok byte, rest) =>
      if byte = delimiter then ([], .ok (), rest)
      else
        let (written, result, left) := streamUntilDelimiter delimiter rest
        (byte :: written, result, left)
termination_by polls.length
decreasing_by exact readByte_shorter _read

/-- The buffer is cleared, filled up to the next line feed and parsed. -/
def readSentence : EStateM SerialFault SerialSource Nmea.Sentence := do
  modify fun src => { src with buffer := [] }
  let src ← get
  match streamUntilDelimiter Nmea.lineFeed src.polls with
  | (written, .error fault, rest) =>
      set { src with polls := rest, buffer := src.buffer ++ written }
      throw fault
  | (written, .ok (), rest) =>
      set { src with polls := rest, buffer := src.buffer ++ written }
      match Nmea.parse (src.buffer ++ written) with
      | .ok sentence => pure sentence
      | .error fault => throw (.fault fault)

def show_ (sentence : Nmea.Sentence) (src : SerialSource) : SerialSource :=
  match sentence with
  | .GSV gsv => { src with display := src.display.map fun _ => gsv.totalNumSat }
  | _ => src

@[simp] theorem show_polls (sentence : Nmea.Sentence) (src : SerialSource) :
    (show_ sentence src).polls = src.polls := by
  cases sentence <;> rfl

/-! ### One answer after the other -/

section Stream

variable {delimiter : UInt8} (rest : List Poll)

theorem streamUntilDelimiter_eq (polls : List Poll) :
    streamUntilDelimiter delimiter polls =
      match readByte polls with
      | (.error fault, rest) => ([], .error fault, rest)
      | (.ok byte, rest) =>
          if byte = delimiter then ([], .ok (), rest)
          else
            let (written, result, left) := streamUntilDelimiter delimiter rest
            (byte :: written, result, left) := by
  rw [streamUntilDelimiter]
  split <;> rename_i read <;> simp only [read]

@[simp] theorem streamUntilDelimiter_nil :
    streamUntilDelimiter delimiter [] = ([], .error .waiting, []) := by
  rw [streamUntilDelimiter_eq]
  rfl

@[simp] theorem streamUntilDelimiter_idle :
    streamUntilDelimiter delimiter (.idle :: rest) = streamUntilDelimiter delimiter rest := by
  have slept : readByte (.idle :: rest) = readByte rest := rfl
  rw [streamUntilDelimiter_eq, slept, ← streamUntilDelimiter_eq]

theorem tryCheck_failure (code : Nat) :
    tryCheck (Poll.retval (.failure code)) = .error .Pigpiod := by
  have negative : check (Int.negSucc code) = .error .Pigpiod := if_pos (Int.negSucc_lt_zero code)
  unfold tryCheck Poll.retval
  rw [negative]
  rfl

@[simp] theorem streamUntilDelimiter_failure (code : Nat) :
    streamUntilDelimiter delimiter (.failure code :: rest) = ([], .error .Pigpiod, rest) := by
  have read : readByte (.failure code :: rest) = (.error .Pigpiod, rest) := by
    unfold readByte serialRead
    rw [tryCheck_failure]
  rw [streamUntilDelimiter_eq, read]

@[simp] theorem streamUntilDelimiter_delimiter :
    streamUntilDelimiter delimiter (.byte delimiter :: rest) = ([], .ok (), rest) := by
  have read : readByte (.byte delimiter :: rest) = (.ok delimiter, rest) := rfl
  rw [streamUntilDelimiter_eq, read]
  exact if_pos rfl

theorem streamUntilDelimiter_byte {byte : UInt8} (other : byte ≠ delimiter) :
    streamUntilDelimiter delimiter (.byte byte :: rest) =
      (byte :: (streamUntilDelimiter delimiter rest).1,
        (streamUntilDelimiter delimiter rest).2) := by
  have read : readByte (.byte byte :: rest) = (.ok byte, rest) := rfl
  rw [streamUntilDelimiter_eq, read]
  exact if_neg other

end Stream

/-- A line that is read uses answers up. -/
theorem streamUntilDelimiter_shorter {delimiter : UInt8} {polls rest : List Poll}
    {written : Bytes} (streamed : streamUntilDelimiter delimiter polls = (written, .ok (), rest)) :
    rest.length < polls.length := by
  induction polls generalizing written with
  | nil =>
    rw [streamUntilDelimiter_nil] at streamed
    cases streamed
  | cons poll others ih =>
    cases poll with
    | idle =>
      rw [streamUntilDelimiter_idle] at streamed
      exact Nat.lt_succ_of_lt (ih streamed)
    | failure code =>
      rw [streamUntilDelimiter_failure] at streamed
      cases streamed
    | byte byte =>
      by_cases ends : byte = delimiter
      · rw [ends, streamUntilDelimiter_delimiter] at streamed
        cases streamed
        exact Nat.lt_succ_self _
      · rw [streamUntilDelimiter_byte _ ends] at streamed
        obtain ⟨_, later⟩ := Prod.mk.inj streamed
        exact Nat.lt_succ_of_lt (ih (Prod.ext rfl later))

section ReadSentence

variable {src src' : SerialSource} {written : Bytes} {rest : List Poll}

theorem readSentence_stopped {fault : SerialFault}
    (streamed : streamUntilDelimiter Nmea.lineFeed src.polls = (written, .error fault, rest)) :
    readSentence.run src = .error fault { src with polls := rest, buffer := written } := by
  unfold readSentence
  rw [EStateM.run_bind, EStateM.run_modify]
  dsimp only
  rw [EStateM.run_bind, EStateM.run_get]
  dsimp only
  rw [streamed]
  rfl

theorem readSentence_rejected {fault : Fault}
    (streamed : streamUntilDelimiter Nmea.lineFeed src.polls = (written, .ok (), rest))
    (rejected : Nmea.parse written = .error fault) :
    readSentence.run src = .error (.fault fault) { src with polls := rest, buffer := written } := by
  unfold readSentence
  rw [EStateM.run_bind, EStateM.run_modify]
  dsimp only
  rw [EStateM.run_bind, EStateM.run_get]
  dsimp only
  rw [streamed]
  dsimp only
  rw [List.nil_append, rejected]
  rfl

theorem readSentence_parsed {sentence : Nmea.Sentence}
    (streamed : streamUntilDelimiter Nmea.lineFeed src.polls = (written, .ok (), rest))
    (parsed : Nmea.parse written = .ok sentence) :
    readSentence.run src = .ok sentence { src with polls := rest, buffer := written } := by
  unfold readSentence
  rw [EStateM.run_bind, EStateM.run_modify]
  dsimp only
  rw [EStateM.run_bind, EStateM.run_get]
  dsimp only
  rw [streamed]
  dsimp only
  rw [List.nil_append, parsed]
  rfl

theorem readSentence_shorter {sentence : Nmea.Sentence}
    (run : readSentence.run src = .ok sentence src') : src'.polls.length < src.polls.length := by
  rcases streamed : streamUntilDelimiter Nmea.lineFeed src.polls with ⟨written, result, rest⟩
  cases result with
  | error fault =>
    rw [readSentence_stopped streamed] at run
    cases run
  | ok =>
    cases parsed : Nmea.parse written with
    | error fault =>
      rw [readSentence_rejected streamed parsed] at run
      cases run
    | ok sentence =>
      rw [readSentence_parsed streamed parsed] at run
      cases run
      exact streamUntilDelimiter_shorter streamed

end ReadSentence

/-- The `while (true)` of nextPoint over the sentences until one has a position. -/
def scan (src : SerialSource) : EStateM.Result SerialFault SerialSource Point :=
  match _read : readSentence.run src with
  | .error fault src => .error fault src
  | .ok sentence src =>
      match Nmea.extractPoint sentence with
      | some (x, y) => .ok ⟨0, .xy x y⟩ (show_ sentence src)
      | none => scan (show_ sentence src)
termination_by src.polls.length
decreasing_by
  rw [show_polls]
  exact readSentence_shorter _read

def nextPoint : EStateM SerialFault SerialSource Point := scan

section Scan

variable {src src' : SerialSource}

theorem scan_error {fault : SerialFault} (read : readSentence.run src = .error fault src') :
    scan src = .error fault src' := by
  rw [scan]
  split
  · rename_i read'
    cases read.symm.trans read'
    rfl
  · rename_i read'
    cases read.symm.trans read'

theorem scan_ok {sentence : Nmea.Sentence} (read : readSentence.run src = .ok sentence src') :
    scan src =
      match Nmea.extractPoint sentence with
      | some (x, y) => .ok ⟨0, .xy x y⟩ (show_ sentence src')
      | none => scan (show_ sentence src') := by
  rw [scan]
  split
  · rename_i read'
    cases read.symm.trans read'
  · rename_i read'
    cases read.symm.trans read'
    rfl

end Scan

/-! ### The port against the standard input -/

/-- The bytes that came before the first failure. -/
def received : List Poll → Bytes
  | [] => []
  | .idle :: rest => received rest
  | .byte byte :: rest => byte :: received rest
  | .failure _ :: _ => []

/-- How a call ends that finds no line in the bytes received. -/
def ending : List Poll → SerialFault
  | [] => .waiting
  | .idle :: rest => ending rest
  | .byte _ :: rest => ending rest
  | .failure _ :: _ => .Pigpiod

/-- The port stops where the bytes received do: behind the delimiter, or where they end. -/
theorem streamUntilDelimiter_received (delimiter : UInt8) (polls : List Poll) :
    (∀ written left, Zig.streamUntilDelimiter delimiter (received polls) = (written, some left) →
      ∃ rest, streamUntilDelimiter delimiter polls = (written, .ok (), rest) ∧
        received rest = left ∧ ending rest = ending polls) ∧
    (∀ written, Zig.streamUntilDelimiter delimiter (received polls) = (written, none) →
      ∃ rest, streamUntilDelimiter delimiter polls = (written, .error (ending polls), rest)) := by
  induction polls with
  | nil =>
    constructor
    · intro written left ends
      cases ends
    · intro written ends
      cases ends
      exact ⟨[], streamUntilDelimiter_nil⟩
  | cons poll rest ih =>
    obtain ⟨whole, cut⟩ := ih
    cases poll with
    | idle =>
      rw [streamUntilDelimiter_idle]
      exact ⟨whole, cut⟩
    | failure code =>
      constructor
      · intro written left ends
        cases ends
      · intro written ends
        cases ends
        exact ⟨rest, streamUntilDelimiter_failure rest code⟩
    | byte byte =>
      rw [received, Zig.streamUntilDelimiter]
      by_cases isEnd : byte = delimiter
      · rw [if_pos isEnd, isEnd, streamUntilDelimiter_delimiter]
        constructor
        · intro written left ends
          cases ends
          exact ⟨rest, rfl, rfl, rfl⟩
        · intro written ends
          cases ends
      · rw [if_neg isEnd, streamUntilDelimiter_byte _ isEnd]
        rcases streamed : Zig.streamUntilDelimiter delimiter (received rest) with ⟨front, left⟩
        constructor
        · intro written left' ends
          cases ends
          obtain ⟨more, same, after, later⟩ := whole front left' streamed
          rw [same]
          exact ⟨more, rfl, after, later⟩
        · intro written ends
          cases ends
          obtain ⟨more, same⟩ := cut front streamed
          rw [same]
          exact ⟨more, rfl⟩

/-- The port has received what is left of the standard input. -/
structure Mirrors (src : SerialSource) (mock : LineSource) : Prop where
  stdin : mock.stdin = received src.polls
  display : mock.display = src.display

/-- What a call on the port does where the same call on the standard input ends so. -/
inductive Mirrored {α : Type} (last : SerialFault) :
    EStateM.Result Fault LineSource α → EStateM.Result SerialFault SerialSource α → Prop
  | returned (value : α) {mock : LineSource} {src : SerialSource} (mirrors : Mirrors src mock)
      (later : ending src.polls = last) : Mirrored last (.ok value mock) (.ok value src)
  | rejected (fault : Fault) (mock : LineSource) (src : SerialSource)
      (own : fault ≠ .error .NoMorePoints) :
      Mirrored last (.error fault mock) (.error (.fault fault) src)
  | ended (mock : LineSource) (src : SerialSource) :
      Mirrored last (.error (.error .NoMorePoints) mock) (.error last src)

theorem Mirrors.show_ {src : SerialSource} {mock : LineSource} (mirrors : Mirrors src mock)
    (sentence : Nmea.Sentence) :
    Mirrors (show_ sentence src) (PointGps.show_ sentence mock) := by
  obtain ⟨stdin, display⟩ := mirrors
  cases sentence with
  | GSV gsv => exact ⟨stdin, congrArg (Option.map fun _ => gsv.totalNumSat) display⟩
  | _ => exact ⟨stdin, display⟩

theorem parse_ne_noMorePoints {line : Bytes} {fault : Fault}
    (rejected : Nmea.parse line = .error fault) : fault ≠ .error .NoMorePoints := by
  intro same
  have own := Nmea.raises_parse line fault rejected
  rw [same] at own
  cases own

theorem readSentence_mirrored {src : SerialSource} {mock : LineSource}
    (mirrors : Mirrors src mock) :
    Mirrored (ending src.polls) (PointGps.readandParseLine.run mock) (readSentence.run src) := by
  obtain ⟨whole, cut⟩ := streamUntilDelimiter_received Nmea.lineFeed src.polls
  rw [← mirrors.stdin] at whole cut
  unfold PointGps.readandParseLine
  rw [EStateM.run_bind]
  rcases streamed : Zig.streamUntilDelimiter Nmea.lineFeed mock.stdin with ⟨written, left⟩
  cases left with
  | none =>
    obtain ⟨rest, same⟩ := cut written streamed
    rw [nextLine_stopped streamed, readSentence_stopped same]
    exact .ended _ _
  | some left =>
    obtain ⟨rest, same, after, later⟩ := whole written left streamed
    rw [nextLine_streamed streamed]
    dsimp only
    cases parsed : Nmea.parse written with
    | error fault =>
      rw [readSentence_rejected same parsed]
      exact .rejected fault _ _ (parse_ne_noMorePoints parsed)
    | ok sentence =>
      rw [readSentence_parsed same parsed]
      exact .returned sentence ⟨after.symm, mirrors.display⟩ later

/-- A call on the port does what a call of gpsMock.zig does on the bytes received. -/
theorem nextPoint_mirrored {src : SerialSource} {mock : LineSource} (mirrors : Mirrors src mock) :
    Mirrored (ending src.polls) (PointGps.nextPoint.run mock) (nextPoint.run src) := by
  show Mirrored _ (PointGps.scan mock) (scan src)
  induction answers : src.polls.length using Nat.strong_induction_on generalizing src mock with
  | _ n ih =>
    subst answers
    have read := readSentence_mirrored mirrors
    generalize fromMock : PointGps.readandParseLine.run mock = one at read
    generalize fromPort : readSentence.run src = two at read
    cases read with
    | rejected fault mock' src' own =>
      rw [PointGps.scan_error fromMock, scan_error fromPort]
      exact .rejected fault _ _ own
    | ended mock' src' =>
      rw [PointGps.scan_error fromMock, scan_error fromPort]
      exact .ended _ _
    | @returned sentence mock' src' mirrors' later =>
      have mirrors' := mirrors'.show_ sentence
      have shorter := readSentence_shorter fromPort
      rw [scan_ok fromPort]
      cases position : Nmea.extractPoint sentence with
      | some point =>
        rw [PointGps.scan_point fromMock position]
        exact .returned _ mirrors' (by rw [show_polls, later])
      | none =>
        rw [PointGps.scan_pass fromMock position]
        have rest := ih _ (by rw [show_polls]; exact shorter) mirrors' rfl
        rw [show_polls, later] at rest
        exact rest

/-- A point costs at least the answer that ends its line. -/
theorem nextPoint_shorter {src src' : SerialSource} {point : Point}
    (run : nextPoint.run src = .ok point src') : src'.polls.length < src.polls.length := by
  induction answers : src.polls.length using Nat.strong_induction_on generalizing src with
  | _ n ih =>
    subst answers
    have scanned : scan src = .ok point src' := run
    cases read : readSentence.run src with
    | error fault _ =>
      rw [scan_error read] at scanned
      cases scanned
    | ok sentence next =>
      have shorter := readSentence_shorter read
      rw [scan_ok read] at scanned
      split at scanned
      · cases scanned
        rw [show_polls]
        exact shorter
      · have less : (show_ sentence next).polls.length < src.polls.length := by
          rw [show_polls]
          exact shorter
        exact (ih _ less scanned rfl).trans less

/-! ### main on the port -/

section Main

variable {γ : Type} (env : Externals γ) (floatText : FloatText) (json : Bool)

/-- All that was printed, how the run ended or that it waits, and the machine it left. -/
structure SerialRun (γ : Type) where
  output : Bytes
  result : Except SerialFault Unit
  machine : Machine γ

def SerialRun.after (printed : Bytes) (run : SerialRun γ) : SerialRun γ :=
  { run with output := printed ++ run.output }

/-- The `while (true)` of main, built with gps.zig. -/
def mainSerial (m : Machine γ) (src : SerialSource) : SerialRun γ :=
  match _next : nextPoint.run src with
  | .error (.fault (.error .NoMorePoints)) _ => ⟨[], .ok (), m⟩
  | .error fault _ => ⟨[], .error fault, m⟩
  | .ok point src =>
      match (update env point).run m with
      | .ok () m' => (mainSerial m' src).after (answer env floatText json m'.stack)
      | .error (.error .pointNotInDataset) m' =>
          (mainSerial m' src).after (answer env floatText json m'.stack)
      | .error fault m' => ⟨[], .error (.fault fault), m'⟩
termination_by src.polls.length
decreasing_by all_goals exact nextPoint_shorter _next

/-- A run over the bytes received, as one on the port whose calls end in `last`. -/
def onPort (last : SerialFault) (run : Run γ) : SerialRun γ where
  output := run.output
  result :=
    match run.result with
    | .ok () => .error last
    | .error fault => .error (.fault fault)
  machine := run.machine

theorem onPort_after (last : SerialFault) (printed : Bytes) (run : Run γ) :
    onPort last (run.after printed) = (onPort last run).after printed := rfl

theorem ending_ne (polls : List Poll) (fault : Fault) : ending polls ≠ .fault fault := by
  induction polls with
  | nil => nofun
  | cons poll rest ih =>
    cases poll with
    | idle => exact ih
    | byte _ => exact ih
    | failure _ => nofun

variable {env floatText json}

section OnPort

variable {m : Machine γ} {src src' : SerialSource}

/-- The loop, without the proof that it ends. -/
theorem mainSerial_eq :
    mainSerial env floatText json m src =
      match nextPoint.run src with
      | .error (.fault (.error .NoMorePoints)) _ => ⟨[], .ok (), m⟩
      | .error fault _ => ⟨[], .error fault, m⟩
      | .ok point src =>
          match (update env point).run m with
          | .ok () m' =>
              (mainSerial env floatText json m' src).after (answer env floatText json m'.stack)
          | .error (.error .pointNotInDataset) m' =>
              (mainSerial env floatText json m' src).after (answer env floatText json m'.stack)
          | .error fault m' => ⟨[], .error (.fault fault), m'⟩ := by
  rw [mainSerial]
  split <;> rename_i next <;> simp only [next]

theorem mainSerial_stops {fault : SerialFault} (stops : nextPoint.run src = .error fault src')
    (own : fault ≠ .fault (.error .NoMorePoints)) :
    mainSerial env floatText json m src = ⟨[], .error fault, m⟩ := by
  rw [mainSerial_eq, stops]
  split <;> simp_all

theorem mainSerial_answer {point : Point} (read : nextPoint.run src = .ok point src')
    (clean : Clean ((update env point).run m)) :
    mainSerial env floatText json m src =
      (mainSerial env floatText json (endState ((update env point).run m)) src').after
        (answer env floatText json (endState ((update env point).run m)).stack) := by
  rw [mainSerial_eq, read]
  dsimp only
  generalize (update env point).run m = result at clean ⊢
  cases clean <;> rfl

theorem mainSerial_fail {point : Point} (read : nextPoint.run src = .ok point src')
    {fault : Fault} {m' : Machine γ} (failed : (update env point).run m = .error fault m')
    (own : fault ≠ .error .pointNotInDataset) :
    mainSerial env floatText json m src = ⟨[], .error (.fault fault), m'⟩ := by
  rw [mainSerial_eq, read]
  simp only [failed]

end OnPort

section OnInput

variable {provider : PointProvider} {m : Machine γ} {src src' : LineSource}

theorem mainOn_ends
    (ends : (sourceNextPoint provider json).run src = .error (.error .NoMorePoints) src') :
    mainOn env floatText provider json m src = ⟨[], .ok (), m⟩ := by
  rw [mainOn_eq, ends]

theorem mainOn_stops {fault : Fault}
    (stops : (sourceNextPoint provider json).run src = .error fault src')
    (own : fault ≠ .error .NoMorePoints) :
    mainOn env floatText provider json m src = ⟨[], .error fault, m⟩ := by
  rw [mainOn_eq, stops]
  split <;> simp_all

theorem mainOn_answer {point : Point}
    (read : (sourceNextPoint provider json).run src = .ok point src')
    (clean : Clean ((update env point).run m)) :
    mainOn env floatText provider json m src =
      (mainOn env floatText provider json (endState ((update env point).run m)) src').after
        (answer env floatText json (endState ((update env point).run m)).stack) := by
  rw [mainOn_eq, read]
  dsimp only
  generalize (update env point).run m = result at clean ⊢
  cases clean <;> rfl

theorem mainOn_fail {point : Point}
    (read : (sourceNextPoint provider json).run src = .ok point src') {fault : Fault}
    {m' : Machine γ} (failed : (update env point).run m = .error fault m')
    (own : fault ≠ .error .pointNotInDataset) :
    mainOn env floatText provider json m src = ⟨[], .error fault, m'⟩ := by
  rw [mainOn_eq, read]
  simp only [failed]

end OnInput

/-- The induction is over the answers; each point costs some. -/
theorem mainSerial_mirrored (m : Machine γ) {src : SerialSource} {mock : LineSource}
    (mirrors : Mirrors src mock) :
    mainSerial env floatText json m src =
      onPort (ending src.polls) (mainOn env floatText .gpsMock json m mock) := by
  induction answers : src.polls.length using Nat.strong_induction_on generalizing m src mock with
  | _ n ih =>
    subst answers
    have next := nextPoint_mirrored mirrors
    have onMock : (sourceNextPoint .gpsMock json).run mock = PointGps.nextPoint.run mock := rfl
    rw [← onMock] at next
    generalize fromMock : (sourceNextPoint .gpsMock json).run mock = one at next
    generalize fromPort : nextPoint.run src = two at next
    cases next with
    | rejected fault mock' src' own =>
      rw [mainOn_stops fromMock own, mainSerial_stops fromPort (by simpa using own)]
      rfl
    | ended mock' src' =>
      rw [mainOn_ends fromMock, mainSerial_stops fromPort (ending_ne _ _)]
      rfl
    | @returned point mock' src' mirrors' later =>
      by_cases clean : Clean ((update env point).run m)
      · rw [mainSerial_answer fromPort clean, mainOn_answer fromMock clean, onPort_after, ← later]
        exact congrArg _ (ih _ (nextPoint_shorter fromPort) _ mirrors' rfl)
      · obtain ⟨fault, m', failed, own⟩ := not_clean clean
        rw [mainSerial_fail fromPort failed own, mainOn_fail fromMock failed own]
        rfl

variable (env floatText json)

/-- main on the serial port does what main of gpsMock.zig does on the bytes received before
the first failure, whenever they came. It never ends by itself: it waits, or it fails. -/
theorem mainSerial_eq_main (skipHuc14and16 : Bool) (polls : List Poll) :
    mainSerial env floatText json { stack := .init skipHuc14and16 } { polls } =
      onPort (ending polls) (main env floatText .gpsMock json skipHuc14and16 (received polls)) := by
  rw [← mainOn_eq_main]
  exact mainSerial_mirrored _ ⟨rfl, rfl⟩

end Main

end WatershedOracle.PointSerial
