import WatershedOracle.LineSources
import WatershedOracle.NmeaPositions

set_option autoImplicit false

/-! What a whole stream comes to when nextPoint is called over and over. -/

namespace WatershedOracle

open Effect

/-- The result that ends a stream. -/
def noMorePoints : Except Fault Point := .error (.error .NoMorePoints)

/-! ### gpsMock.zig -/

namespace PointGps

/-- What the lines are worth, each one on its own. -/
def results (lines : List Bytes) : List (Except Fault Point) := lines.filterMap lineOutcome

section Results

variable {line : Bytes} (lines : List Bytes)

theorem results_pass (none_ : lineOutcome line = none) :
    results (line :: lines) = results lines :=
  List.filterMap_cons_none none_

theorem results_answer {result : Except Fault Point} (some_ : lineOutcome line = some result) :
    results (line :: lines) = result :: results lines :=
  List.filterMap_cons_some some_

variable {lines}

/-- No line is taken for the end of the stream. -/
theorem noMorePoints_not_mem : noMorePoints ∉ results lines := by
  intro member
  obtain ⟨line, _, known⟩ := List.mem_filterMap.mp member
  cases parsed : Nmea.parse line with
  | error fault =>
    rw [lineOutcome_error parsed] at known
    have own := Nmea.raises_parse line fault parsed
    cases known
    cases own
  | ok sentence =>
    rw [lineOutcome_ok parsed] at known
    obtain ⟨point, _, same⟩ := Option.map_eq_some_iff.mp known
    cases same

theorem panic_not_mem (calm : ∀ line ∈ lines, Nmea.NoPanic (Nmea.parse line)) (check : SafetyCheck) :
    .error (.panic check) ∉ results lines := by
  intro member
  obtain ⟨line, isLine, known⟩ := List.mem_filterMap.mp member
  cases parsed : Nmea.parse line with
  | error fault =>
    rw [lineOutcome_error parsed] at known
    cases known
    exact calm line isLine check parsed
  | ok sentence =>
    rw [lineOutcome_ok parsed] at known
    obtain ⟨point, _, same⟩ := Option.map_eq_some_iff.mp known
    cases same

end Results

section Stream

variable {src : LineSource} {line : Bytes} {lines before rest : List Bytes}

theorem outcomes_end (unread : src.stdin = []) (n : Nat) :
    outcomes nextPoint n src = List.replicate n noMorePoints := by
  have step : ∀ src : LineSource, src.stdin = [] →
      outcome (nextPoint.run src) = noMorePoints ∧ (endState (nextPoint.run src)).stdin = [] := by
    intro src unread
    exact nextPoint_end (unread ▸ List.not_mem_nil)
  exact outcomes_forever step unread n

/-- The induction over the stream: a line without a result costs no call, and any other
costs one. -/
theorem outcomes_lines (free : ∀ line ∈ lines, Nmea.lineFeed ∉ line)
    (unread : src.stdin = terminated lines) (n : Nat) :
    outcomes nextPoint n src =
      (results lines).take n ++ List.replicate (n - (results lines).length) noMorePoints := by
  induction lines generalizing src n with
  | nil =>
    rw [outcomes_end unread]
    simp [results]
  | cons line rest ih =>
    obtain ⟨first, others⟩ := List.forall_mem_cons.mp free
    rw [terminated, Lines.unlines_cons] at unread
    cases known : lineOutcome line with
    | none =>
      obtain ⟨src', unread', same⟩ := nextPoint_skip first unread known
      rw [outcomes_congr same, ih others unread', results_pass rest known]
    | some result =>
      obtain ⟨ends, unread'⟩ := nextPoint_answer first unread known
      rw [results_answer rest known]
      cases n with
      | zero => simp [outcomes]
      | succ n =>
        rw [outcomes, ends, ih others unread', List.take_succ_cons, List.length_cons,
          Nat.add_sub_add_right, List.cons_append]

/-- The call that answers a line stops right behind it. -/
theorem stateAfter_lines (free : ∀ l ∈ before ++ line :: rest, Nmea.lineFeed ∉ l)
    (answered : (lineOutcome line).isSome)
    (unread : src.stdin = terminated (before ++ line :: rest)) :
    (stateAfter nextPoint ((results before).length + 1) src).stdin = terminated rest := by
  induction before generalizing src with
  | nil =>
    obtain ⟨result, known⟩ := Option.isSome_iff_exists.mp answered
    rw [List.nil_append, terminated, Lines.unlines_cons] at unread
    exact (nextPoint_answer (free line List.mem_cons_self) unread known).2
  | cons earlier before ih =>
    obtain ⟨first, others⟩ := List.forall_mem_cons.mp free
    rw [List.cons_append, terminated, Lines.unlines_cons] at unread
    cases known : lineOutcome earlier with
    | none =>
      obtain ⟨src', unread', same⟩ := nextPoint_skip first unread known
      rw [results_pass before known, stateAfter_congr same]
      exact ih others unread'
    | some result =>
      rw [results_answer before known, List.length_cons, stateAfter]
      exact ih others (nextPoint_answer first unread known).2

/-- The points before a rejected line are delivered, and then its error. -/
theorem delivers_until {points : List Point} {fault : Fault}
    (free : ∀ l ∈ before ++ line :: rest, Nmea.lineFeed ∉ l)
    (clean : results before = points.map .ok) (bad : lineOutcome line = some (.error fault))
    (unread : src.stdin = terminated (before ++ line :: rest)) :
    Delivers nextPoint fault src points := by
  induction before generalizing src points with
  | nil =>
    obtain rfl := List.map_eq_nil_iff.mp clean.symm
    rw [List.nil_append, terminated, Lines.unlines_cons] at unread
    exact .of_error (nextPoint_answer (free line List.mem_cons_self) unread bad).1
  | cons earlier before ih =>
    obtain ⟨first, others⟩ := List.forall_mem_cons.mp free
    rw [List.cons_append, terminated, Lines.unlines_cons] at unread
    cases known : lineOutcome earlier with
    | none =>
      obtain ⟨src', unread', same⟩ := nextPoint_skip first unread known
      rw [results_pass before known] at clean
      exact (ih others clean unread').congr same
    | some result =>
      rw [results_answer before known] at clean
      obtain ⟨point, later, rfl, rfl, left⟩ := List.map_eq_cons_iff.mp clean.symm
      obtain ⟨ends, unread'⟩ := nextPoint_answer first unread known
      exact .of_ok ends (ih others left.symm unread')

end Stream

/-- The calls on these lines give the results of the lines in their order, and then the
end of the stream for ever; behind an answered line nothing is left of it. -/
structure ReadsEachLine (lines : List Bytes) (src : LineSource) : Prop where
  inOrder : ∀ n, outcomes nextPoint n src =
    (results lines).take n ++ List.replicate (n - (results lines).length) noMorePoints
  unfinished : noMorePoints ∉ results lines
  calm : ∀ check, .error (.panic check) ∉ results lines
  resumes : ∀ before line rest, lines = before ++ line :: rest → (lineOutcome line).isSome →
    ∃ left, stateAfter nextPoint ((results before).length + 1) src = left ∧
      left.stdin = terminated rest ∧
      nextPoint.run left = nextPoint.run { left with stdinBuffer := [] }

/-- Every line counts once, whatever the lines around it are. -/
theorem readsEachLine {lines : List Bytes} {src : LineSource}
    (free : ∀ line ∈ lines, Nmea.lineFeed ∉ line)
    (calm : ∀ line ∈ lines, Nmea.NoPanic (Nmea.parse line))
    (unread : src.stdin = terminated lines) : ReadsEachLine lines src where
  inOrder := outcomes_lines free unread
  unfinished := noMorePoints_not_mem
  calm := panic_not_mem calm
  resumes := by
    rintro before line rest rfl answered
    exact ⟨_, rfl, stateAfter_lines free answered unread, nextPoint_cleared _⟩

/-- Satellites in view, a position, and a line that is no sentence. -/
def mixedLines : List Bytes :=
  [(Nmea.Frame.standard (Zig.ascii "GPGSV,1,1,04") true).text,
    Nmea.sentenceAt (Zig.ascii "4530.0000"), Zig.ascii "$GPGGA,1230"]

theorem readsEachLine_mixed : ReadsEachLine mixedLines { stdin := terminated mixedLines } :=
  readsEachLine (by decide +kernel) (by decide +kernel) rfl

example : results mixedLines =
    [.ok ⟨0, .xy (.finite (-(245 / 2))) (.finite (91 / 2))⟩, .error (.error .InvalidCharacter)] := by
  decide +kernel

end PointGps

/-! ### stdin.zig -/

namespace PointStdin

/-- The lines of a text. The last one need not be ended by a line feed. -/
def contentLines (content : Bytes) : List Bytes :=
  let pieces := content.splitOn Nmea.lineFeed
  if pieces.getLast? = some [] then pieces.dropLast else pieces

def wktPoint (line : Bytes) : Point := ⟨0, .wkt line⟩

section Content

variable {lines : List Bytes} {tail : Bytes}

theorem contentLines_append (free : ∀ line ∈ lines, Nmea.lineFeed ∉ line)
    (unfinished : Nmea.lineFeed ∉ tail) :
    contentLines (terminated lines ++ tail) = if tail = [] then lines else lines ++ [tail] := by
  unfold contentLines
  rw [terminated, Lines.splitOn_unlines lines free unfinished]
  simp

/-- Without zeros each ended line is handed on as it is, and what follows is dropped. -/
theorem delivers_terminated (free : ∀ line ∈ lines, Nmea.lineFeed ∉ line)
    (unfinished : Nmea.lineFeed ∉ tail) (noZero : ∀ line ∈ lines, 0 ∉ line) {src : LineSource}
    (unread : src.stdin = terminated lines ++ tail) :
    Delivers (nextPoint false) (.error .NoMorePoints) src (lines.map wktPoint) := by
  induction lines generalizing src with
  | nil =>
    have unread : src.stdin = tail := unread
    exact .stop (nextPoint_end (unread ▸ unfinished))
  | cons line rest ih =>
    obtain ⟨first, others⟩ := List.forall_mem_cons.mp free
    obtain ⟨zeroFree, zerosFree⟩ := List.forall_mem_cons.mp noZero
    rw [terminated_cons] at unread
    have whole : line.takeWhile (· ≠ 0) = line := by
      apply List.takeWhile_eq_self_iff.mpr
      intro byte member
      apply decide_eq_true
      rintro rfl
      exact zeroFree member
    have run := nextPoint_wkt first unread
    rw [whole] at run
    exact .value run (ih others zerosFree rfl)

/-- The stream ends with a line feed exactly when nothing follows its ended lines. -/
theorem getLast_append (unfinished : Nmea.lineFeed ∉ tail) :
    (terminated lines ++ tail = [] ∨ (terminated lines ++ tail).getLast? = some Nmea.lineFeed) ↔
      tail = [] := by
  constructor
  · intro ends
    by_contra some_
    rcases ends with empty | last
    · exact some_ (List.append_eq_nil_iff.mp empty).2
    · rw [List.getLast?_append_of_ne_nil _ some_] at last
      exact unfinished (List.mem_of_getLast? last)
  · rintro rfl
    rw [List.append_nil]
    rcases List.eq_nil_or_concat' lines with rfl | ⟨before, line, rfl⟩
    · exact .inl rfl
    · apply Or.inr
      rw [terminated, Lines.unlines_concat, ← List.append_assoc, List.getLast?_concat]

end Content

/-- The calls until NoMorePoints hand on all lines of the content, and a line feed behind
a last line that has none makes no difference. -/
structure ReadsAll (content : Bytes) : Prop where
  lines : Delivers (nextPoint false) (.error .NoMorePoints) { stdin := content }
    ((contentLines content).map wktPoint)
  ending : content ≠ [] → content.getLast? ≠ some Nmea.lineFeed → ∀ points,
    Delivers (nextPoint false) (.error .NoMorePoints) { stdin := content } points ↔
      Delivers (nextPoint false) (.error .NoMorePoints)
        { stdin := content ++ [Nmea.lineFeed] } points

/-- Exactly when no line is lost: when the content is empty or its last line is ended. -/
theorem readsAll_iff (content : Bytes) (noZero : 0 ∉ content) :
    ReadsAll content ↔ content = [] ∨ content.getLast? = some Nmea.lineFeed := by
  obtain ⟨lines, tail, free, unfinished, rfl⟩ := Lines.exists_unlines Nmea.lineFeed content
  have zeroFree : ∀ line ∈ lines, 0 ∉ line := by
    intro line isLine member
    apply noZero
    apply List.mem_append_left
    exact List.mem_flatMap.mpr ⟨line, isLine, List.mem_append_left _ member⟩
  have delivered := delivers_terminated free unfinished zeroFree
    (rfl : ({ stdin := terminated lines ++ tail } : LineSource).stdin = _)
  have all := contentLines_append free unfinished
  have ended := @getLast_append lines tail unfinished
  rw [terminated] at all ended delivered
  constructor
  · intro reads
    apply ended.mpr
    by_contra some_
    have same := reads.lines.unique delivered
    rw [all, if_neg some_] at same
    have counted := congrArg List.length same
    simp at counted
  · intro isEnded
    refine ⟨?_, ?_⟩
    · rw [all, if_pos (ended.mp isEnded)]
      exact delivered
    · intro some_ open_
      rcases isEnded with empty | last
      · exact absurd empty some_
      · exact absurd last open_

/-- Two lines, both ended. -/
theorem readsAll_iff_ended : ReadsAll (Zig.ascii "POINT(1 1)\nPOINT(2 2)\n") :=
  (readsAll_iff _ (by decide +kernel)).mpr (.inr (by decide +kernel))

/-- The only line of a file that does not end with a line feed is lost. -/
theorem readsAll_fails : ¬ ∀ content : Bytes, 0 ∉ content → ReadsAll content := by
  intro all
  have lost : Delivers (nextPoint false) (.error .NoMorePoints)
      { stdin := Zig.ascii "POINT(1 1)" } [] :=
    .stop (nextPoint_end (by decide +kernel))
  have same := (all _ (by decide +kernel)).lines.unique lost
  have counted := congrArg List.length same
  exact absurd counted (by decide +kernel)

end PointStdin

end WatershedOracle
