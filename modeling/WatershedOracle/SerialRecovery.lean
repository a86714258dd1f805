import WatershedOracle.NmeaSentences
import WatershedOracle.SerialGps

set_option autoImplicit false

/-! A serial port that fails now and then, and a caller that asks again. What was read of a
sentence when the port failed is dropped, and what is left of it is no sentence. -/

namespace WatershedOracle.PointSerial

open Effect

/-- What the reader gets to hear: the lines, and a failure (`none`) where there was one.
`begun` is what it has of the line that is being read. -/
def heard (begun : Bytes) : List Poll → List (Option Bytes)
  | [] => []
  | .idle :: rest => heard begun rest
  | .byte byte :: rest =>
      if byte = Nmea.lineFeed then some begun :: heard [] rest else heard (begun ++ [byte]) rest
  | .failure _ :: rest => none :: heard [] rest

/-- What the caller is told about it: a point, an error, or nothing. -/
def report : Option Bytes → Option (Except SerialFault Point)
  | none => some (.error .Pigpiod)
  | some line => (PointGps.lineOutcome line).map fun result => result.mapError .fault

def reports (polls : List Poll) : List (Except SerialFault Point) :=
  (heard [] polls).filterMap report

/-! ### Every call is told the next report -/

section Calls

/-- Reading up to the line feed hears one thing, or the answers are spent. -/
theorem streamUntilDelimiter_heard (begun : Bytes) (polls : List Poll) :
    (∃ line rest, streamUntilDelimiter Nmea.lineFeed polls = (line, .ok (), rest) ∧
      heard begun polls = some (begun ++ line) :: heard [] rest) ∨
    (∃ written rest, streamUntilDelimiter Nmea.lineFeed polls = (written, .error .Pigpiod, rest) ∧
      heard begun polls = none :: heard [] rest ∧ rest.length < polls.length) ∨
    (∃ written, streamUntilDelimiter Nmea.lineFeed polls = (written, .error .waiting, []) ∧
      heard begun polls = []) := by
  induction polls generalizing begun with
  | nil => exact .inr (.inr ⟨[], streamUntilDelimiter_nil, rfl⟩)
  | cons poll rest ih =>
    cases poll with
    | idle =>
      rw [streamUntilDelimiter_idle, heard]
      rcases ih begun with line | ⟨written, left, streamed, hears, shorter⟩ | spent
      · exact .inl line
      · exact .inr (.inl ⟨written, left, streamed, hears, Nat.lt_succ_of_lt shorter⟩)
      · exact .inr (.inr spent)
    | failure code =>
      exact .inr (.inl ⟨[], rest, streamUntilDelimiter_failure rest code, rfl, Nat.lt_succ_self _⟩)
    | byte byte =>
      rw [heard]
      by_cases ends : byte = Nmea.lineFeed
      · rw [if_pos ends, ends, streamUntilDelimiter_delimiter]
        exact .inl ⟨[], rest, rfl, by rw [List.append_nil]⟩
      · rw [if_neg ends, streamUntilDelimiter_byte rest ends]
        rcases ih (begun ++ [byte]) with ⟨line, left, streamed, hears⟩ |
          ⟨written, left, streamed, hears, shorter⟩ | ⟨written, streamed, hears⟩
        · rw [streamed]
          refine .inl ⟨byte :: line, left, rfl, ?_⟩
          rw [hears, List.append_assoc, List.singleton_append]
        · rw [streamed]
          exact .inr (.inl ⟨byte :: written, left, rfl, hears, Nat.lt_succ_of_lt shorter⟩)
        · rw [streamed]
          exact .inr (.inr ⟨byte :: written, rfl, hears⟩)

variable {src : SerialSource}

theorem nextPoint_stopped {written : Bytes} {fault : SerialFault} {rest : List Poll}
    (streamed : streamUntilDelimiter Nmea.lineFeed src.polls = (written, .error fault, rest)) :
    outcome (nextPoint.run src) = .error fault ∧ (endState (nextPoint.run src)).polls = rest := by
  have run : nextPoint.run src = _ := scan_error (readSentence_stopped streamed)
  rw [run]
  exact ⟨rfl, rfl⟩

/-- A call that begins at a line without a position goes on behind it. -/
theorem nextPoint_passes {line : Bytes} {rest : List Poll}
    (streamed : streamUntilDelimiter Nmea.lineFeed src.polls = (line, .ok (), rest))
    (none_ : PointGps.lineOutcome line = none) :
    ∃ src' : SerialSource, src'.polls = rest ∧ nextPoint.run src = nextPoint.run src' := by
  cases parsed : Nmea.parse line with
  | error fault =>
    rw [PointGps.lineOutcome_error parsed] at none_
    cases none_
  | ok sentence =>
    rw [PointGps.lineOutcome_ok parsed] at none_
    have nowhere := Option.map_eq_none_iff.mp none_
    have run : nextPoint.run src = _ := scan_ok (readSentence_parsed streamed parsed)
    rw [nowhere] at run
    exact ⟨_, show_polls _ _, run⟩

theorem nextPoint_answers {line : Bytes} {rest : List Poll}
    (streamed : streamUntilDelimiter Nmea.lineFeed src.polls = (line, .ok (), rest))
    {result : Except Fault Point} (some_ : PointGps.lineOutcome line = some result) :
    outcome (nextPoint.run src) = result.mapError .fault ∧
      (endState (nextPoint.run src)).polls = rest := by
  cases parsed : Nmea.parse line with
  | error fault =>
    rw [PointGps.lineOutcome_error parsed] at some_
    cases some_
    have run : nextPoint.run src = _ := scan_error (readSentence_rejected streamed parsed)
    rw [run]
    exact ⟨rfl, rfl⟩
  | ok sentence =>
    rw [PointGps.lineOutcome_ok parsed] at some_
    obtain ⟨point, position, rfl⟩ := Option.map_eq_some_iff.mp some_
    have run : nextPoint.run src = _ := scan_ok (readSentence_parsed streamed parsed)
    rw [position] at run
    rw [run]
    exact ⟨rfl, show_polls _ _⟩

theorem outcomes_waiting (spent : src.polls = []) (n : Nat) :
    outcomes nextPoint n src = List.replicate n (.error .waiting) := by
  have step : ∀ src : SerialSource, src.polls = [] →
      outcome (nextPoint.run src) = .error .waiting ∧
        (endState (nextPoint.run src)).polls = [] := by
    intro src spent
    have streamed : streamUntilDelimiter Nmea.lineFeed src.polls = ([], .error .waiting, []) := by
      rw [spent, streamUntilDelimiter_nil]
    exact nextPoint_stopped streamed
  exact outcomes_forever step spent n

/-- The induction is over the answers. A line that is passed over costs no call. -/
theorem outcomes_reports (n : Nat) :
    outcomes nextPoint n src = (reports src.polls).take n ++
      List.replicate (n - (reports src.polls).length) (.error .waiting) := by
  induction answers : src.polls.length using Nat.strong_induction_on generalizing src n with
  | _ length ih =>
    subst answers
    -- A call that is told something, and the calls after it.
    have told : ∀ {result : Except SerialFault Point} {rest : List Poll},
        reports src.polls = result :: reports rest → rest.length < src.polls.length →
        outcome (nextPoint.run src) = result ∧ (endState (nextPoint.run src)).polls = rest →
        outcomes nextPoint n src = (reports src.polls).take n ++
          List.replicate (n - (reports src.polls).length) (.error .waiting) := by
      intro result rest reported shorter ended
      obtain ⟨isResult, left⟩ := ended
      rw [reported]
      cases n with
      | zero => simp [outcomes]
      | succ n =>
        have later := @ih _ (left.symm ▸ shorter) (endState (nextPoint.run src)) n rfl
        rw [left] at later
        rw [outcomes, isResult, later, List.take_succ_cons, List.length_cons,
          Nat.add_sub_add_right, List.cons_append]
    rcases streamUntilDelimiter_heard [] src.polls with ⟨line, rest, streamed, hears⟩ |
      ⟨written, rest, streamed, hears, shorter⟩ | ⟨written, streamed, hears⟩
    · have shorter := streamUntilDelimiter_shorter streamed
      have reported : reports src.polls = (report (some line)).toList ++ reports rest := by
        rw [reports, hears, List.nil_append, List.filterMap_cons]
        cases report (some line) <;> rfl
      cases known : PointGps.lineOutcome line with
      | none =>
        obtain ⟨src', left, same⟩ := nextPoint_passes streamed known
        have silent : report (some line) = none := by rw [report, known, Option.map_none]
        rw [silent] at reported
        have later := @ih _ (left.symm ▸ shorter) src' n rfl
        rw [outcomes_congr same, later, left, reported]
        rfl
      | some result =>
        have speaks : report (some line) = some (result.mapError .fault) := by
          rw [report, known, Option.map_some]
        rw [speaks] at reported
        exact told reported shorter (nextPoint_answers streamed known)
    · have reported : reports src.polls = .error .Pigpiod :: reports rest := by
        rw [reports, hears]
        rfl
      exact told reported shorter (nextPoint_stopped streamed)
    · have reported : reports src.polls = [] := by
        rw [reports, hears]
        rfl
      rw [reported]
      obtain ⟨isWaiting, left⟩ := nextPoint_stopped streamed
      cases n with
      | zero => rfl
      | succ n =>
        rw [outcomes, isWaiting, outcomes_waiting left, List.take_nil, List.nil_append,
          List.length_nil, Nat.sub_zero, List.replicate_succ]

end Calls

/-! ### Sentences that arrive -/

/-- What pigpiod answers while a sentence arrives, or between two of them. -/
inductive Arrival
  | quiet (poll : Poll) (silent : poll.bytes = [])
  /-- The port does not fail before the line feed has come. -/
  | whole (body : Bytes) (frame : Nmea.Frame body) (polls : List Poll)
      (steady : ∀ code, .failure code ∉ polls)
      (sent : polls.flatMap Poll.bytes = frame.text ++ [Nmea.lineFeed])
  /-- The port fails behind the first byte and before the line feed. -/
  | broken (body : Bytes) (frame : Nmea.Frame body) (front : List Poll) (code : Nat)
      (back : List Poll) (begun : front.flatMap Poll.bytes ≠ [])
      (unfinished : back.flatMap Poll.bytes ≠ [])
      (sent : front.flatMap Poll.bytes ++ back.flatMap Poll.bytes =
        frame.text ++ [Nmea.lineFeed])

def Arrival.polls : Arrival → List Poll
  | .quiet poll _ => [poll]
  | .whole _ _ polls _ _ => polls
  | .broken _ _ front code back _ _ _ => front ++ .failure code :: back

/-- The position of a sentence that has come whole. -/
def Arrival.point? : Arrival → Option Point
  | .whole _ frame _ _ _ => (PointGps.lineOutcome frame.text).bind Except.toOption
  | _ => none

/-- No sentence holds a line feed, and the body of a broken one no dollar sign. -/
def Arrival.Clear : Arrival → Prop
  | .quiet _ _ => True
  | .whole _ frame _ _ _ => Nmea.lineFeed ∉ frame.text
  | .broken body frame _ _ _ _ _ _ => Nmea.lineFeed ∉ frame.text ∧ Nmea.dollar ∉ body

/-- A sentence that comes whole trips no safety check of `parse`. -/
def Arrival.Safe : Arrival → Prop
  | .whole _ frame _ _ _ => Nmea.NoPanic (Nmea.parse frame.text)
  | _ => True

/-! ### What is left of a broken sentence -/

/-- A sentence without its beginning has no dollar sign, and is rejected. -/
theorem parse_tail {body tail : Bytes} (frame : Nmea.Frame body) (free : Nmea.dollar ∉ body)
    (isTail : tail <:+ frame.text) (shorter : tail.length < frame.text.length) :
    ∃ fault, Nmea.parse tail = .error fault ∧ ∀ check, fault ≠ .panic check := by
  obtain ⟨h, l, isHigh, isLow, _⟩ := frame.correct
  have bare : Nmea.dollar ∉ tail := by
    intro member
    rcases List.suffix_cons_iff.mp isTail with whole | later
    · rw [whole] at shorter
      exact absurd shorter (Nat.lt_irrefl _)
    · have inside : Nmea.dollar ∈ body ++ Nmea.star :: frame.high :: frame.low :: frame.lineEnd :=
        later.subset member
      simp only [List.mem_append, List.mem_cons] at inside
      rcases inside with inBody | isStar | atHigh | atLow | atEnd
      · exact free inBody
      · exact absurd isStar (by decide)
      · exact (Nmea.hexDigit_ne isHigh).1 (by simp [← atHigh])
      · exact (Nmea.hexDigit_ne isLow).1 (by simp [← atLow])
      · exact absurd (frame.ends _ atEnd) (by decide)
  cases valid : Nmea.validateChecksum tail with
  | ok _ =>
    obtain ⟨before, rest, rfl, _, starts, _⟩ := Nmea.validateChecksum_pieces valid
    have inside : Nmea.dollar ∈ Nmea.afterStar before := List.mem_of_mem_head? starts
    have listed := (List.rtakeWhile_suffix _ before).subset inside
    exact absurd (List.mem_append_left _ listed) bare
  | error fault =>
    refine ⟨fault, ?_, ?_⟩
    · rw [Nmea.parse, valid]
      rfl
    · intro check panics
      exact Nmea.noPanic_validateChecksum tail check (panics ▸ valid)

section Heard

variable {polls : List Poll} {line : Bytes} (begun : Bytes) (rest : List Poll)

/-- Without bytes there is nothing to hear but failures. -/
theorem heard_silent (silent : polls.flatMap Poll.bytes = []) :
    ∃ failures, heard [] (polls ++ rest) = List.replicate failures none ++ heard [] rest ∧
      ((∀ code, .failure code ∉ polls) → failures = 0) := by
  induction polls with
  | nil => exact ⟨0, rfl, fun _ => rfl⟩
  | cons poll polls ih =>
    rw [List.flatMap_cons, List.append_eq_nil_iff] at silent
    obtain ⟨failures, hears, none_⟩ := ih silent.2
    cases poll with
    | idle => exact ⟨failures, hears, fun steady => none_ fun code member =>
        steady code (List.mem_cons_of_mem _ member)⟩
    | byte byte => cases silent.1
    | failure code =>
      refine ⟨failures + 1, ?_, fun steady => absurd List.mem_cons_self (steady code)⟩
      rw [List.cons_append, heard, hears]
      rfl

/-- Without failures there is nothing to hear but the line. -/
theorem heard_steady (steady : ∀ code, .failure code ∉ polls)
    (sent : polls.flatMap Poll.bytes = line ++ [Nmea.lineFeed]) (free : Nmea.lineFeed ∉ line) :
    heard begun (polls ++ rest) = some (begun ++ line) :: heard [] rest := by
  induction polls generalizing begun line with
  | nil => simp at sent
  | cons poll polls ih =>
    have later : ∀ code, .failure code ∉ polls := fun code member =>
      steady code (List.mem_cons_of_mem _ member)
    cases poll with
    | idle => exact ih begun later sent free
    | failure code => exact absurd List.mem_cons_self (steady code)
    | byte byte =>
      have sent : byte :: polls.flatMap Poll.bytes = line ++ [Nmea.lineFeed] := sent
      rw [List.cons_append, heard]
      cases line with
      | nil =>
        obtain ⟨isEnd, silent⟩ := List.cons_eq_cons.mp sent
        obtain ⟨failures, hears, none_⟩ := heard_silent rest silent
        rw [if_pos isEnd, List.append_nil, hears, none_ later]
        rfl
      | cons first line =>
        obtain ⟨rfl, others⟩ := List.cons_eq_cons.mp sent
        obtain ⟨other, free⟩ := not_or.mp (List.mem_cons.not.mp free)
        rw [if_neg (Ne.symm other), ih (begun ++ [byte]) later others free, List.append_assoc,
          List.singleton_append]

/-- Before the line ends there is nothing to hear but failures, the last one here. -/
theorem heard_front (open_ : Nmea.lineFeed ∉ polls.flatMap Poll.bytes) (code : Nat) :
    ∃ failures, heard begun (polls ++ .failure code :: rest) =
      List.replicate failures none ++ heard [] rest := by
  induction polls generalizing begun with
  | nil => exact ⟨1, rfl⟩
  | cons poll polls ih =>
    rw [List.flatMap_cons, List.mem_append, not_or] at open_
    cases poll with
    | idle => exact ih begun open_.2
    | byte byte =>
      have other : byte ≠ Nmea.lineFeed := fun same => open_.1 (by simp [Poll.bytes, same])
      obtain ⟨failures, hears⟩ := ih (begun ++ [byte]) open_.2
      refine ⟨failures, ?_⟩
      rw [List.cons_append, heard, if_neg other, hears]
    | failure code' =>
      obtain ⟨failures, hears⟩ := ih [] open_.2
      refine ⟨failures + 1, ?_⟩
      rw [List.cons_append, heard, hears]
      rfl

/-- Of a line that may be broken one end is heard. -/
theorem heard_back (sent : polls.flatMap Poll.bytes = line ++ [Nmea.lineFeed])
    (free : Nmea.lineFeed ∉ line) :
    ∃ before tail after, heard begun (polls ++ rest) =
        List.replicate before none ++ some tail :: (List.replicate after none ++ heard [] rest) ∧
      tail <:+ begun ++ line := by
  induction polls generalizing begun line with
  | nil => simp at sent
  | cons poll polls ih =>
    cases poll with
    | idle => exact ih begun sent free
    | failure code =>
      obtain ⟨before, tail, after, hears, isTail⟩ := ih [] sent free
      refine ⟨before + 1, tail, after, ?_, isTail.trans (List.suffix_append begun line)⟩
      rw [List.cons_append, heard, hears]
      rfl
    | byte byte =>
      have sent : byte :: polls.flatMap Poll.bytes = line ++ [Nmea.lineFeed] := sent
      rw [List.cons_append, heard]
      cases line with
      | nil =>
        obtain ⟨isEnd, silent⟩ := List.cons_eq_cons.mp sent
        obtain ⟨failures, hears, _⟩ := heard_silent rest silent
        rw [if_pos isEnd, hears]
        exact ⟨0, begun, failures, rfl, by rw [List.append_nil]⟩
      | cons first line =>
        obtain ⟨rfl, others⟩ := List.cons_eq_cons.mp sent
        obtain ⟨other, free⟩ := not_or.mp (List.mem_cons.not.mp free)
        obtain ⟨before, tail, after, hears, isTail⟩ := ih (begun ++ [byte]) others free
        rw [if_neg (Ne.symm other), hears]
        refine ⟨before, tail, after, rfl, ?_⟩
        rw [List.append_assoc, List.singleton_append] at isTail
        exact isTail

end Heard

/-! ### Recovery -/

/-- The position among the things heard. -/
def pointOf (event : Option Bytes) : Option Point := (report event).bind Except.toOption

/-- No call ends the program. -/
def Calm (event : Option Bytes) : Prop :=
  ∀ check, report event ≠ some (.error (.fault (.panic check)))

theorem calm_none : Calm none := by
  intro check panics
  cases panics

theorem pointOf_some (line : Bytes) :
    pointOf (some line) = (PointGps.lineOutcome line).bind Except.toOption := by
  show ((PointGps.lineOutcome line).map fun result => Except.mapError SerialFault.fault result).bind
    Except.toOption = _
  rcases PointGps.lineOutcome line with _ | result
  · rfl
  · cases result <;> rfl

theorem calm_some {line : Bytes} (calm : Nmea.NoPanic (Nmea.parse line)) : Calm (some line) := by
  intro check panics
  obtain ⟨result, known, same⟩ := Option.map_eq_some_iff.mp panics
  have inside : result ∈ PointGps.results [line] := by
    rw [PointGps.results, List.filterMap_cons_some known]
    exact List.mem_cons_self
  cases result with
  | ok point => cases same
  | error fault =>
    cases same
    have absent : .error (.panic check) ∉ PointGps.results [line] :=
      PointGps.panic_not_mem (by simpa using calm) check
    exact absent inside

section Replicate

variable (failures : Nat)

theorem pointOf_replicate : (List.replicate failures none).filterMap pointOf = [] := by
  apply List.filterMap_eq_nil_iff.mpr
  intro event member
  rw [List.eq_of_mem_replicate member]
  rfl

theorem calm_replicate : ∀ event ∈ List.replicate failures none, Calm event :=
  fun _ member => List.eq_of_mem_replicate member ▸ calm_none

end Replicate

/-- Both parts of a broken sentence: the front has no line feed, the back ends with it. -/
theorem broken_parts {text front back : Bytes} (unfinished : back ≠ [])
    (sent : front ++ back = text ++ [Nmea.lineFeed]) :
    ∃ line, back = line ++ [Nmea.lineFeed] ∧ text = front ++ line := by
  rcases List.eq_nil_or_concat' back with empty | ⟨line, last, rfl⟩
  · exact absurd empty unfinished
  · rw [← List.append_assoc] at sent
    obtain ⟨same, isEnd⟩ := List.append_inj' sent rfl
    exact ⟨line, by rw [isEnd], same.symm⟩

/-- What is heard of one arrival: its point, if it came whole, and errors. -/
theorem Arrival.heard (arrival : Arrival) (clear : arrival.Clear) (safe : arrival.Safe)
    (rest : List Poll) :
    ∃ events, PointSerial.heard [] (arrival.polls ++ rest) = events ++ PointSerial.heard [] rest ∧
      events.filterMap pointOf = arrival.point?.toList ∧ ∀ event ∈ events, Calm event := by
  cases arrival with
  | quiet poll isSilent =>
    have silent : [poll].flatMap Poll.bytes = [] := by simpa using isSilent
    obtain ⟨failures, hears, _⟩ := heard_silent rest silent
    exact ⟨_, hears, pointOf_replicate failures, calm_replicate failures⟩
  | whole body frame polls steady sent =>
    refine ⟨[some frame.text], heard_steady [] rest steady sent clear, ?_, ?_⟩
    · rw [List.filterMap_cons, pointOf_some, Arrival.point?]
      cases (PointGps.lineOutcome frame.text).bind Except.toOption <;> rfl
    · intro event member
      rw [List.mem_singleton.mp member]
      exact calm_some safe
  | broken body frame front code back begun unfinished sent =>
    obtain ⟨free, bare⟩ := clear
    obtain ⟨line, isBack, isText⟩ := broken_parts unfinished sent
    rw [isText, List.mem_append, not_or] at free
    obtain ⟨failures, first⟩ := heard_front [] (back ++ rest) free.1 code
    obtain ⟨before, tail, after, second, isTail⟩ := heard_back [] rest isBack free.2
    have inText : tail <:+ frame.text := isText ▸ isTail.trans (List.suffix_append _ line)
    have shorter : tail.length < frame.text.length := by
      have some_ := List.length_pos_iff.mpr begun
      have atMost := isTail.length_le
      rw [List.nil_append] at atMost
      rw [isText, List.length_append]
      omega
    obtain ⟨fault, rejected, own⟩ := parse_tail frame bare inText shorter
    have known := PointGps.lineOutcome_error rejected
    refine ⟨List.replicate failures none ++ (List.replicate before none ++
      some tail :: List.replicate after none), ?_, ?_, ?_⟩
    · have joined : (Arrival.broken body frame front code back begun unfinished sent).polls ++
          rest = front ++ .failure code :: (back ++ rest) := by
        rw [Arrival.polls, List.append_assoc, List.cons_append]
      rw [joined, first, second]
      simp only [List.append_assoc, List.cons_append]
    · rw [List.filterMap_append, List.filterMap_append, List.filterMap_cons, pointOf_some, known,
        pointOf_replicate, pointOf_replicate, pointOf_replicate]
      rfl
    · intro event member
      simp only [List.mem_append, List.mem_cons] at member
      rcases member with early | early | isLine | late
      · exact calm_replicate _ event early
      · exact calm_replicate _ event early
      · rw [isLine]
        apply calm_some
        intro check panics
        exact own check (Except.error.inj (rejected.symm.trans panics))
      · exact calm_replicate _ event late

/-- What a caller that asks again after every error is told about the arrivals. -/
structure Recovers (arrivals : List Arrival) (results : List (Except SerialFault Point)) :
    Prop where
  told : ∀ n, outcomes nextPoint n { polls := arrivals.flatMap Arrival.polls } =
    results.take n ++ List.replicate (n - results.length) (.error .waiting)
  points : results.filterMap Except.toOption = arrivals.filterMap Arrival.point?
  calm : ∀ check, .error (.fault (.panic check)) ∉ results

/-- Where no sentence that came whole trips a safety check of `parse`, the positions are
those of the sentences that came whole, in their order, wherever the port was idle or
failed. -/
theorem recovers (arrivals : List Arrival) (clear : ∀ arrival ∈ arrivals, arrival.Clear)
    (safe : ∀ arrival ∈ arrivals, arrival.Safe) :
    ∃ results, Recovers arrivals results := by
  have all : ∃ events, heard [] (arrivals.flatMap Arrival.polls) = events ∧
      events.filterMap pointOf = arrivals.filterMap Arrival.point? ∧
      ∀ event ∈ events, Calm event := by
    induction arrivals with
    | nil => exact ⟨[], rfl, rfl, by simp⟩
    | cons arrival arrivals ih =>
      obtain ⟨first, others⟩ := List.forall_mem_cons.mp clear
      obtain ⟨safeFirst, safeOthers⟩ := List.forall_mem_cons.mp safe
      obtain ⟨later, hears, points, calm⟩ := ih others safeOthers
      obtain ⟨events, hears', points', calm'⟩ :=
        arrival.heard first safeFirst (arrivals.flatMap Arrival.polls)
      refine ⟨events ++ later, ?_, ?_, List.forall_mem_append.mpr ⟨calm', calm⟩⟩
      · rw [List.flatMap_cons, hears', hears]
      · rw [List.filterMap_append, points', points, List.filterMap_cons]
        cases arrival.point? <;> rfl
  obtain ⟨events, hears, points, calm⟩ := all
  refine ⟨reports (arrivals.flatMap Arrival.polls), outcomes_reports, ?_, ?_⟩
  · rw [reports, hears, List.filterMap_filterMap, ← points]
    rfl
  · intro check member
    rw [reports, hears] at member
    obtain ⟨event, listed, isPanic⟩ := List.mem_filterMap.mp member
    exact calm event listed check isPanic

/-- A position north of the equator. -/
def locatedBody : Bytes := Zig.ascii "GPGGA,123000.000,4530.0000,N,12230.0000,W,1,08,,,M,,M"

def locatedFrame : Nmea.Frame locatedBody := .standard locatedBody true

theorem bytes_of_polls (bytes : Bytes) : (bytes.map Poll.byte).flatMap Poll.bytes = bytes := by
  rw [List.flatMap_map]
  exact List.flatMap_singleton' bytes

/-- The same sentence twice. The first time the port fails behind its dollar sign. -/
def interrupted : List Arrival :=
  [.broken locatedBody locatedFrame [.byte Nmea.dollar] 3
      (.idle :: ((locatedFrame.text ++ [Nmea.lineFeed]).tail.map .byte)) (by decide)
      (by decide +kernel) (by decide +kernel),
    .whole locatedBody locatedFrame ((locatedFrame.text ++ [Nmea.lineFeed]).map .byte)
      (by simp) (bytes_of_polls _)]

theorem recovers_interrupted : ∃ results, Recovers interrupted results := by
  have noLineFeed : Nmea.lineFeed ∉ locatedFrame.text := by decide +kernel
  apply recovers
  · intro arrival member
    simp only [interrupted, List.mem_cons, List.not_mem_nil, or_false] at member
    rcases member with rfl | rfl
    · exact ⟨noLineFeed, by decide +kernel⟩
    · exact noLineFeed
  · intro arrival member
    simp only [interrupted, List.mem_cons, List.not_mem_nil, or_false] at member
    rcases member with rfl | rfl
    · trivial
    · show Nmea.NoPanic (Nmea.parse locatedFrame.text)
      decide +kernel

example : interrupted.filterMap Arrival.point? =
    [⟨0, .xy (.finite (-(245 / 2))) (.finite (91 / 2))⟩] := by
  decide +kernel

end WatershedOracle.PointSerial
