import WatershedOracle.OracleProcess

set_option autoImplicit false

/-! The replies of the bot over all interleavings, and main as the process behind it. -/

namespace WatershedOracle.TelegramBot

open Relation (ReflTransGen)

section Main

variable {γ σ : Type} {env : Externals γ} {floatText : FloatText} {skipHuc14and16 : Bool}
variable {P : Platform σ (Machine γ)} {s : System σ (Machine γ)}

/-- What was printed is the output of main over the requests that it has read. -/
structure Printed (P : Platform σ (Machine γ)) (env : Externals γ) (floatText : FloatText)
    (skipHuc14and16 : Bool) (s : System σ (Machine γ)) (lines pending : List Bytes) : Prop where
  written : s.written.map (requestLine P.numberText) = lines ++ pending
  requests : s.requestPipe = terminated pending
  ran : mainLoop env floatText .stdin true { stack := .init skipHuc14and16 } lines =
    ⟨s.printed.flatten, .ok (), s.oracle⟩

theorem Printed.answer {lines pending : List Bytes}
    (printed : Printed P env floatText skipHuc14and16 s lines pending)
    (runs : P.RunsMain env floatText skipHuc14and16) (reachable : Reachable P s)
    {line rest : Bytes} (pipe : s.requestPipe = line ++ Nmea.lineFeed :: rest)
    (whole : Nmea.lineFeed ∉ line) :
    ∃ later, pending = line :: later ∧ Printed P env floatText skipHuc14and16
      { s with
        requestPipe := rest
        oracle := (P.answer s.oracle line).1
        printed := s.printed ++ [(P.answer s.oracle line).2]
        answerPipe := s.answerPipe ++ (P.answer s.oracle line).2 } (lines ++ [line]) later := by
  have oneLine := fun x finite => (runs.numerals x finite).oneLine
  have piped := printed.requests.symm.trans pipe
  cases pending with
  | nil => simp [terminated] at piped
  | cons first later =>
    have isWritten : first ∈ s.written.map (requestLine P.numberText) := by simp [printed.written]
    obtain ⟨request, member, rfl⟩ := List.mem_map.mp isWritten
    rw [terminated, Lines.unlines_cons] at piped
    obtain ⟨rfl, left⟩ := Lines.first_unique (lineFeed_notMem_requestLine oneLine request) whole
      piped
    obtain ⟨_, _, _, _, _, coherent⟩ := reachable.coherent runs.answering runs.decodes oneLine
    obtain ⟨history, isAfter⟩ := coherent.good
    have safe := coherent.safe request
      (coherent.located.mem_iff.mpr (List.mem_append_left _ member))
    obtain ⟨asked, m', _, next, _⟩ := runs.ran history request safe
    refine ⟨later, rfl, by simp [printed.written], left.symm, ?_⟩
    rw [mainLoop_append, printed.ran]
    rw [← isAfter] at next
    simp only [Run.andThen, Run.after, next, runs.answer, oracleAnswer, List.flatten_append,
      List.flatten_cons, List.flatten_nil, List.append_nil]

theorem Reachable.printed (runs : P.RunsMain env floatText skipHuc14and16)
    (reachable : Reachable P s) :
    ∃ lines pending, Printed P env floatText skipHuc14and16 s lines pending := by
  induction reachable with
  | init => exact ⟨[], [], rfl, rfl, by rw [mainLoop_nil, ← runs.start]; rfl⟩
  | step s t earlier step ih =>
    obtain ⟨lines, pending, printed⟩ := ih
    cases step with
    | location request safe => exact ⟨lines, pending, { printed with }⟩
    | acknowledged before after request waits =>
      refine ⟨lines, pending ++ [requestLine P.numberText request], ?_, ?_, printed.ran⟩
      · simp only [List.map_append, List.map_cons, List.map_nil, printed.written, List.append_assoc]
      · simp only [printed.requests, terminated, Lines.unlines_concat, List.append_assoc]
    | works _ works =>
      cases works with
      | deliver chunk rest waiting pipe => exact ⟨lines, pending, { printed with }⟩
      | scan awake =>
        obtain ⟨samePipe, _, sameWritten, sameOracle, samePrinted⟩ := scan_frame P s
        refine ⟨lines, pending, ?_, ?_, ?_⟩
        · rw [sameWritten, printed.written]
        · rw [samePipe, printed.requests]
        · rw [sameOracle, samePrinted, printed.ran]
      | answer line rest pipe whole =>
        obtain ⟨later, _, next⟩ := printed.answer runs earlier pipe whole
        exact ⟨_, later, next⟩

/-- In every reachable state the lines parsed are the first that main printed, the replies
are those of the requests written, in their order, and from there the rest can be
delivered without a further message. -/
theorem reachable_faithful (runs : P.RunsMain env floatText skipHuc14and16)
    (reachable : Reachable P s) :
    s.Faithful P ∧ (∃ lines pending, Printed P env floatText skipHuc14and16 s lines pending) ∧
      ∃ t, ReflTransGen (Works P) s t ∧ t.Drained ∧ t.written = s.written := by
  have oneLine := fun x finite => (runs.numerals x finite).oneLine
  obtain ⟨faithful, drains⟩ := reachable.faithful runs.answering runs.decodes oneLine
  exact ⟨faithful, reachable.printed runs, drains⟩

end Main

/-! ### Two chats -/

/-- The oracle over the square, and a bot whose users all stand at its center. -/
def squarePlatform : Platform Bytes (Machine Box) where
  textDecoder := Utf8.wellFormed
  numberText _ := Zig.ascii "1"
  jsonParse := readStack
  oracle := { stack := .init true }
  answer := oracleAnswer (squareWorld 6) wholeText

theorem wholeText_ascii (x : F64) : Zig.Json.Ascii (wholeText x) := by
  have fixed : Zig.Json.Ascii (Zig.ascii "e0") ∧ Zig.Json.Ascii (Zig.ascii "nan") := by decide
  cases x with
  | finite value =>
    exact List.forall_mem_append.mpr ⟨Zig.Json.intText_ascii _, fixed.1⟩
  | nan => exact fixed.2
  | negInf => exact fixed.2
  | posInf => exact fixed.2

theorem one_numeral : Numeral (Zig.ascii "1") where
  oneLine := by decide
  starts := ⟨49, [], rfl, .inr rfl⟩
  token c rest ends := by
    have isNumber : Zig.ascii "1" = Zig.Json.intText 1 := by decide
    have ends' : Zig.Json.EndsNumber c := by
      rcases ends with rfl | rfl <;> simp [Zig.Json.EndsNumber, Zig.Json.isDigit]
    rw [isNumber]
    exact Zig.Json.scalarToken_intText 1 ends' rest
  finite := ⟨.number false 1 10 0, by decide +kernel, by decide +kernel⟩

theorem squarePlatform_runsMain : squarePlatform.RunsMain (squareWorld 6) wholeText true where
  start := rfl
  answer := rfl
  points := squares_pointsAt 6
  prompt history requestId x y finiteX finiteY := by
    have hosts := serve_hosts (squares 6) boxes
    obtain ⟨geom, made, _⟩ := squares_pointsAt 6 x y finiteX finiteY
    obtain ⟨list, stacked⟩ := after_stacked hosts.serves true history
    exact update_clean hosts (serve_steady _ _) (serve_faultless _ _) (squares_readable 6) _
      stacked made
  floats x := ⟨wholeText_printable x, wholeText_ascii x⟩
  numerals _ _ := one_numeral
  reads := readStack_readsId _ _
  decodes := Utf8.wellFormed_correct

/-- A user and a group, at the center of the square. -/
def userRequest : Request := ⟨7, .finite 1, .finite 1, by decide⟩

def groupRequest : Request := ⟨-3, .finite 1, .finite 1, by decide⟩

/-- The group asked last and its acknowledgement came first. -/
def crossed : System Bytes (Machine Box) :=
  { System.init squarePlatform with
    located := [userRequest, groupRequest]
    written := [groupRequest, userRequest]
    requestPipe := terminated
      ([groupRequest, userRequest].map (requestLine squarePlatform.numberText)) }

theorem crossed_reachable : Reachable squarePlatform crossed := by
  have safe : userRequest.Safe ∧ groupRequest.Safe := by unfold Request.Safe; decide
  have start : Reachable squarePlatform (.init squarePlatform) := .init
  have both := (start.step _ _ (.location _ userRequest safe.1)).step _ _
    (.location _ groupRequest safe.2)
  have first := both.step _ _ (.acknowledged _ [userRequest] [] groupRequest rfl)
  exact first.step _ _ (.acknowledged _ [] [] userRequest rfl)

/-- What main prints for the group. -/
def groupAnswer : Bytes :=
  (oracleAnswer (squareWorld 6) wholeText { stack := .init true }
    (requestLine squarePlatform.numberText groupRequest)).2

/-- main has answered the group. -/
def groupAnswered : System Bytes (Machine Box) :=
  { crossed with
    requestPipe := terminated ([userRequest].map (requestLine squarePlatform.numberText))
    oracle := (oracleAnswer (squareWorld 6) wholeText { stack := .init true }
      (requestLine squarePlatform.numberText groupRequest)).1
    printed := [groupAnswer]
    answerPipe := groupAnswer }

/-- The first chunk ends inside the answer, behind its id. -/
def halved : System Bytes (Machine Box) :=
  { groupAnswered with
    answerPipe := groupAnswer.drop 15
    iterator := groupAnswered.iterator.receive squarePlatform.textDecoder
      (.value (groupAnswer.take 15))
    mode := .scanning }

/-- The second chunk brings the rest, and the loop parses the line. -/
def rejoined : System Bytes (Machine Box) :=
  System.scan squarePlatform
    { halved.scan squarePlatform with
      answerPipe := []
      iterator := (halved.scan squarePlatform).iterator.receive squarePlatform.textDecoder
        (.value (groupAnswer.drop 15))
      mode := .scanning }

theorem rejoined_reachable : Reachable squarePlatform rejoined := by
  have answers : Works squarePlatform crossed groupAnswered :=
    .answer crossed (requestLine squarePlatform.numberText groupRequest)
      (terminated ([userRequest].map (requestLine squarePlatform.numberText))) rfl
      (lineFeed_notMem_requestLine (fun _ _ => one_numeral.oneLine) groupRequest)
  have first : Works squarePlatform groupAnswered halved :=
    .deliver groupAnswered _ _ rfl (List.take_append_drop 15 groupAnswer).symm
  have waits : (halved.scan squarePlatform).mode = .reading ∧
      (halved.scan squarePlatform).answerPipe = groupAnswer.drop 15 := by decide +kernel
  have second := Works.deliver (P := squarePlatform) (halved.scan squarePlatform)
    (groupAnswer.drop 15) [] waits.1 (by rw [waits.2, List.append_nil])
  have halfway := (crossed_reachable.step _ _ (.works _ _ answers)).step _ _ (.works _ _ first)
  have whole := (halfway.step _ _ (.works _ _ (.scan halved rfl))).step _ _ (.works _ _ second)
  exact whole.step _ _ (.works _ _ (.scan _ rfl))

theorem reachable_faithful_crossed :
    (rejoined.parsed.length = 1 ∧ rejoined.replies.map Reply.chat = [-3]) ∧
      rejoined.Faithful squarePlatform ∧
      (∃ lines pending, Printed squarePlatform (squareWorld 6) wholeText true rejoined lines
        pending) ∧
      ∃ t, ReflTransGen (Works squarePlatform) rejoined t ∧ t.Drained ∧
        t.written = rejoined.written :=
  ⟨by decide +kernel, reachable_faithful squarePlatform_runsMain rejoined_reachable⟩

end WatershedOracle.TelegramBot
