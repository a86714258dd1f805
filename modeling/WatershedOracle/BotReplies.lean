import WatershedOracle.AnswerFormat
import WatershedOracle.Delivery
import WatershedOracle.DisplayFrames

set_option autoImplicit false

/-! The texts of the replies, from the tables to the chats: what the bot makes of an
answer line, and that every reply tells its chat the regions around the location that the
process read from its request. -/

namespace WatershedOracle.TelegramBot

open Effect

/-! ### JSON.parse, as far as main.js looks -/

def decodeText (bytes : Bytes) : Text := Utf8.wellFormed.text [bytes]

/-- The text of an array of numbers, which String joins with commas. -/
def listText (bytes : Bytes) : Text :=
  List.intercalate [','] (bytes.map fun byte => Nat.toDigits 10 byte.toNat)

/-- A name as a template literal shows it. -/
def nameOf : Json.Value → Option Text
  | .string bytes => some (decodeText bytes)
  | .array items => (items.mapM Answer.readByte).map listText
  | _ => none

/-- The members that main.js reads of what JSON.parse returns. -/
def Stack.ofValue (v : Json.Value) : Option Stack := do
  let id ← (v.member? (Zig.ascii "requestId")).bind Answer.numberText
  let requestId ← (Zig.parseInt Zig.i64 id 10).toOption
  some {
    requestId
    pointNotInDataset := match v.member? (Zig.ascii "pointNotInDataset") with
      | some (.bool b) => b
      | _ => false
    name level := (v.member? (Zig.ascii level.hucLevel)).bind fun huc =>
      (huc.member? (Zig.ascii "name")).bind nameOf }

/-- JSON.parse of what printJSON writes. -/
def parseStack (line : Text) : Option Stack :=
  (Json.read (Utf8.encode line)).bind Stack.ofValue

/-- How a name of a table is shown. -/
def nameText (name : Bytes) : Text :=
  if Json.IsUtf8 name then decodeText name else listText name

/-- What main.js reads of the answer that a stack gives. -/
def Stack.of {γ : Type} (stack : WatershedStack γ) : Stack where
  requestId := stack.requestId
  pointNotInDataset := !stack.valid
  name level := (stack.slot level).map fun w => nameText w.name.bytes

theorem decodeText_encode (text : Text) : decodeText (Utf8.encode text) = text :=
  Utf8.wellFormed_whole (List.append_nil _)

theorem encode_injective {a b : Text} (same : Utf8.encode a = Utf8.encode b) : a = b := by
  rw [← decodeText_encode a, same, decodeText_encode]

/-- Only the line feed is encoded with its byte. -/
theorem lineFeed_notMem_encode {text : Text} (free : '\n' ∉ text) :
    Nmea.lineFeed ∉ Utf8.encode text := by
  intro member
  obtain ⟨c, listed, inside⟩ := List.mem_flatMap.mp member
  rcases Zig.Json.utf8EncodeChar_cases c with ⟨byte, single, _⟩ | high
  · rw [single] at inside
    obtain rfl := List.mem_singleton.mp inside
    have same : Utf8.encode [c] = Utf8.encode ['\n'] := by
      rw [Utf8.encode_cons, single]
      decide
    cases encode_injective same
    exact free listed
  · exact absurd (high _ inside) (by decide)

section Parse

variable {γ : Type} {env : Externals γ} {floatText : FloatText} {stack : WatershedStack γ}

theorem nameOf_slice (name : Bytes) :
    nameOf (Json.ofScalar floatText (.slice name)) = some (nameText name) := by
  by_cases utf8 : Json.IsUtf8 name
  · have isString : Json.ofScalar floatText (.slice name) = .string name := if_pos utf8
    rw [isString, nameText, if_pos utf8]
    rfl
  · have isArray : Json.ofScalar floatText (.slice name) =
        .array (name.map fun byte => .number (Zig.Json.natText byte.toNat)) := if_neg utf8
    rw [isArray, nameText, if_neg utf8, nameOf, readBytes_natText]
    rfl

variable (env floatText stack) in
theorem ofValue_stack (fits : Zig.i64.Has stack.requestId) :
    Stack.ofValue (Json.ofDocument floatText (document env stack)) = some (Stack.of stack) := by
  have flag : (match if stack.valid = true then none else some (Json.Value.bool true) with
      | some (.bool b) => b
      | _ => false) = !stack.valid := by
    cases stack.valid <;> rfl
  have name : (fun level : Level => ((stack.slot level).map fun w =>
      Json.ofNode floatText (hucMember level w).2).bind fun huc =>
        (huc.member? (Zig.ascii "name")).bind nameOf) = (Stack.of stack).name := by
    funext level
    cases occupied : stack.slot level with
    | none => simp [Stack.of, occupied]
    | some w => simp [Stack.of, occupied, member?_hucMember, nameOf_slice]
  simp only [Stack.ofValue, member?_requestId, member?_flag, member?_huc, Option.bind_some,
    Bind.bind, Answer.numberText, parseInt_fits fits, flag, name]
  rfl

/-- The bot reads in a line of the process what the stack held. -/
theorem parseStack_document (numbers : ∀ x : F64, x.isFinite → Json.IsNumber (floatText x))
    (finite : stack.Finite) (fits : Zig.i64.Has stack.requestId) {line : Text}
    (encoded : Utf8.encode line = Zig.Json.render floatText (document env stack)) :
    parseStack line = some (Stack.of stack) := by
  rw [parseStack, encoded, Json.read_render (document_sound numbers finite)]
  exact ofValue_stack env floatText stack fits

end Parse

/-! ### Each parsed line and its reply -/

theorem Reachable.replies {σ ω : Type} {P : Platform σ ω} {s : System σ ω}
    (reachable : Reachable P s) :
    s.replies = s.parsed.filterMap fun line => (P.jsonParse line).map replyTo := by
  have handled : ∀ (t : System σ ω) (line : Text),
      t.replies = t.parsed.filterMap (fun line => (P.jsonParse line).map replyTo) →
      (t.handle P line).replies =
        (t.handle P line).parsed.filterMap fun line => (P.jsonParse line).map replyTo := by
    intro t line kept
    unfold System.handle
    cases parses : P.jsonParse line with
    | none => simp [parses, kept]
    | some stack => simp [parses, kept]
  induction reachable with
  | init => rfl
  | step s t earlier step ih =>
    cases step with
    | location request safe => exact ih
    | acknowledged before after request waits => exact ih
    | works _ works =>
      cases works with
      | answer line rest pipe whole => exact ih
      | deliver chunk rest waiting pipe => exact ih
      | scan awake =>
        unfold System.scan
        split
        · exact ih
        · exact ih
        · exact handled _ _ ih
        · exact ih
        · exact handled _ _ ih

/-! ### The stacks behind the answers -/

/-- The process read the location of the request, and its stack is about the point there. -/
structure Found {γ σ : Type} (P : Platform σ (Machine γ)) (env : Externals γ) (d : Dataset)
    (request : Request) (stack : WatershedStack γ) : Prop where
  requestId : stack.requestId = request.chat
  finite : stack.Finite
  located : ∃ x y geom,
    parsePointJson (requestLine P.numberText request) = .ok ⟨request.chat, x, y⟩ ∧
      env.createPointFromXY x y = some geom ∧ Display.Locates env d stack geom

/-- The bot over main and a dataset, and what lies between them works. -/
structure Platform.RunsOver {γ σ : Type} (P : Platform σ (Machine γ)) (env : Externals γ)
    (d : Dataset) (floatText : FloatText) (skipHuc14and16 : Bool) : Prop where
  main : P.RunsMain env floatText skipHuc14and16
  parses : P.jsonParse = parseStack
  /-- std.fmt writes a finite float as a number of JSON. -/
  numbers : ∀ x : F64, x.isFinite → Json.IsNumber (floatText x)
  hosts : Hosts env d
  steady : env.Steady
  boxed : Boxed env d
  nested : (regions env d.listed).Nested

section Found

variable {γ σ : Type} {P : Platform σ (Machine γ)} {env : Externals γ} {d : Dataset}
  {floatText : FloatText} {skipHuc14and16 : Bool}

theorem found_of_request (runs : P.RunsOver env d floatText skipHuc14and16)
    (history : List Point) (request : Request) (safe : request.Safe) :
    ∃ point, readLine .stdin true (requestLine P.numberText request) = .ok (some point) ∧
      Clean ((update env point).run (after env skipHuc14and16 history)) ∧
      Found P env d request (after env skipHuc14and16 (history ++ [point])).stack := by
  obtain ⟨x, y, finiteX, finiteY, parsed⟩ := parsePointJson_requestLine request safe
    (runs.main.numerals _ request.finite.1) (runs.main.numerals _ request.finite.2)
  obtain ⟨geom, made, box⟩ := runs.main.points x y finiteX finiteY
  have covered := after_covered runs.hosts.serves runs.steady runs.nested skipHuc14and16 history
  obtain ⟨list, stacked, _⟩ := id covered
  let asked : Point := ⟨request.chat, .xy x y⟩
  have asks : env.geometryOf asked.location = some geom := made
  have clean : Clean ((update env asked).run (after env skipHuc14and16 history)) :=
    runs.main.prompt history _ x y finiteX finiteY
  obtain ⟨geom', asks', located⟩ :=
    Display.update_locates runs.hosts runs.steady runs.boxed runs.nested covered asked clean
  obtain rfl : geom = geom' := Option.some.inj (asks.symm.trans asks')
  obtain ⟨addr, same⟩ := update_request asked stacked.1 asks
  have bounds := same.2.1.trans box
  refine ⟨asked, ?_, clean, ?_⟩
  rotate_left
  · rw [after_concat]
    refine ⟨same.2.2.1, fun _ => ?_, x, y, geom, parsed, made, located⟩
    rw [bounds]
    exact ⟨finiteX, finiteY⟩
  · simp only [readLine, parsed, ↓reduceIte]
    rfl

theorem found_of_requests (runs : P.RunsOver env d floatText skipHuc14and16)
    (requests : List Request) (safe : ∀ request ∈ requests, request.Safe)
    (history : List Point) :
    List.Forall₂ (Found P env d) requests (answeredStacks env .stdin true
      (after env skipHuc14and16 history) (requests.map (requestLine P.numberText))) := by
  induction requests generalizing history with
  | nil => exact .nil
  | cons request requests ih =>
    obtain ⟨first, others⟩ := List.forall_mem_cons.mp safe
    obtain ⟨point, read, clean, found⟩ := found_of_request runs history request first
    rw [List.map_cons, answeredStacks_answer _ read clean, ← after_concat]
    exact .cons found (ih others (history ++ [point]))

end Found

/-! ### What the users are told -/

/-- The reply tells the chat where the point lies. -/
structure Tells {γ : Type} (env : Externals γ) (d : Dataset) (chat : Int) (geom : γ)
    (reply : Reply) : Prop where
  outside : ¬ d.CoversAt env .huc2 geom → reply = replyTo ⟨chat, true, fun _ => none⟩
  inside : d.CoversAt env .huc2 geom → ∃ name : Level → Option Text,
    reply = replyTo ⟨chat, false, name⟩ ∧ (name .huc2).isSome ∧
      ∀ level text, name level = some text →
        ∃ r, d.RegionAt env level r geom ∧ text = nameText r.name

section Tells

variable {γ σ : Type} {P : Platform σ (Machine γ)} {env : Externals γ} {d : Dataset}
  {floatText : FloatText} {skipHuc14and16 : Bool}

theorem tells_of_locates {stack : WatershedStack γ} {geom : γ}
    (located : Display.Locates env d stack geom) :
    Tells env d stack.requestId geom (replyTo (Stack.of stack)) := by
  constructor
  · intro outside
    have invalid : stack.valid = false := by
      rw [← Bool.not_eq_true, located.inside]
      exact outside
    simp [replyTo, Stack.of, invalid]
  · intro inside
    have isValid := located.inside.mpr inside
    refine ⟨(Stack.of stack).name, by simp [Stack.of, isValid], ?_, ?_⟩
    · have first : (stack.slot .huc2).isSome := located.root.mp isValid
      simpa [Stack.of] using first
    · intro level text shown
      obtain ⟨w, occupied, rfl⟩ := Option.map_eq_some_iff.mp shown
      exact ⟨w.region, located.regions level w occupied, rfl⟩

/-- The reply is to the chat of the request, about the location that the process read. -/
def RepliesTo (P : Platform σ (Machine γ)) (env : Externals γ) (d : Dataset) (request : Request)
    (reply : Reply) : Prop :=
  ∃ x y geom, parsePointJson (requestLine P.numberText request) = .ok ⟨request.chat, x, y⟩ ∧
    env.createPointFromXY x y = some geom ∧ Tells env d request.chat geom reply

theorem Found.repliesTo {request : Request} {stack : WatershedStack γ}
    (found : Found P env d request stack) :
    RepliesTo P env d request (replyTo (Stack.of stack)) := by
  obtain ⟨x, y, geom, parsed, made, located⟩ := found.located
  exact ⟨x, y, geom, parsed, made, found.requestId ▸ tells_of_locates located⟩

/-- The replies to lines that encode the answers of these stacks. -/
theorem replies_of_found (numbers : ∀ x : F64, x.isFinite → Json.IsNumber (floatText x))
    {requests : List Request} {answers : List (WatershedStack γ)}
    (found : List.Forall₂ (Found P env d) requests answers)
    (fits : ∀ stack ∈ answers, Zig.i64.Has stack.requestId) {lines : List Text}
    (encoded : lines.map Utf8.encode =
      answers.map fun stack => Zig.Json.render floatText (document env stack)) :
    List.Forall₂ (RepliesTo P env d) requests
      (lines.filterMap fun line => (parseStack line).map replyTo) := by
  induction found generalizing lines with
  | nil => simp [List.map_eq_nil_iff.mp encoded]
  | cons first others ih =>
    obtain ⟨line, lines, rfl, isFirst, later⟩ := List.map_eq_cons_iff.mp encoded
    obtain ⟨fitsFirst, allFit⟩ := List.forall_mem_cons.mp fits
    rw [List.filterMap_cons, parseStack_document numbers first.finite fitsFirst isFirst]
    exact .cons first.repliesTo (ih allFit later)

end Tells

/-! ### Every reachable state -/

section Main

variable {γ σ : Type} {P : Platform σ (Machine γ)} {env : Externals γ} {d : Dataset}
  {floatText : FloatText} {skipHuc14and16 : Bool} {s : System σ (Machine γ)}

theorem flatten_lineBytes (lines : List Text) :
    (lines.map lineBytes).flatten = terminated (lines.map Utf8.encode) := by
  induction lines with
  | nil => rfl
  | cons line lines ih =>
    have lineFeed : Utf8.encode ['\n'] = [Nmea.lineFeed] := by decide
    rw [List.map_cons, List.flatten_cons, ih, lineBytes, Utf8.encode_append, lineFeed,
      List.map_cons, terminated, terminated, Lines.unlines_cons, List.append_assoc]
    rfl

variable {Good : Machine γ → Prop} {replied answered pending : List Request} {unread : List Text}
  {chunks : List Bytes}

/-- The lines printed so far are the documents of the stacks that answered. -/
theorem Coherent.documents (runs : P.RunsMain env floatText skipHuc14and16)
    (reachable : Reachable P s)
    (coherent : Coherent P Good s replied answered pending unread chunks) :
    ∃ asked later, s.written = asked ++ later ∧
      (s.parsed ++ unread).map Utf8.encode =
        (answeredStacks env .stdin true { stack := .init skipHuc14and16 }
          (asked.map (requestLine P.numberText))).map
            fun stack => Zig.Json.render floatText (document env stack) := by
  obtain ⟨lines, waiting, printed⟩ := reachable.printed runs
  obtain ⟨asked, later, written, rfl, _⟩ := List.map_eq_append_iff.mp printed.written
  let answers := answeredStacks env .stdin true { stack := .init skipHuc14and16 }
    (asked.map (requestLine P.numberText))
  let texts := answers.map fun stack => Zig.Json.render floatText (document env stack)
  have output : s.printed.flatten = terminated texts := by
    have documents := @mainLoop_documents γ env .stdin floatText
      (asked.map (requestLine P.numberText)) { stack := .init skipHuc14and16 }
    rw [printed.ran] at documents
    simpa only [answerLines, List.map_map, Function.comp_def] using documents
  have stream : terminated ((s.parsed ++ unread).map Utf8.encode) = terminated texts := by
    rw [← output, coherent.printed, flatten_lineBytes]
  have free : ∀ line ∈ (s.parsed ++ unread).map Utf8.encode, Nmea.lineFeed ∉ line := by
    intro line listed
    obtain ⟨text, member, rfl⟩ := List.mem_map.mp listed
    exact lineFeed_notMem_encode (coherent.lines text member).1
  have free' : ∀ text ∈ texts, Nmea.lineFeed ∉ text := by
    intro text listed
    obtain ⟨stack, _, rfl⟩ := List.mem_map.mp listed
    exact lineFeed_notMem_of_printable
      (Zig.Json.render_printable (fun x => (runs.floats x).1) _)
  refine ⟨asked, later, written, ?_⟩
  rw [← terminatedLines_terminated _ free, stream, terminatedLines_terminated _ free']

/-- Behind the lines printed so far are stacks about the requests. -/
theorem Coherent.found (runs : P.RunsOver env d floatText skipHuc14and16)
    (reachable : Reachable P s)
    (coherent : Coherent P Good s replied answered pending unread chunks) :
    ∃ asked later answers, s.written = asked ++ later ∧
      List.Forall₂ (Found P env d) asked answers ∧
      (∀ stack ∈ answers, Zig.i64.Has stack.requestId) ∧
      (s.parsed ++ unread).map Utf8.encode =
        answers.map fun stack => Zig.Json.render floatText (document env stack) := by
  obtain ⟨asked, later, written, documents⟩ := coherent.documents runs.main reachable
  have safe : ∀ request ∈ asked, request.Safe := fun request member =>
    coherent.safe request (coherent.located.mem_iff.mpr
      (List.mem_append_left _ (written ▸ List.mem_append_left _ member)))
  have found := found_of_requests runs asked safe []
  rw [after_nil] at found
  exact ⟨asked, later, _, written, found,
    answeredStacks_fit _ (WatershedStack.init_holds skipHuc14and16), documents⟩

/-- The first lines printed, were they parsed, would be replied to as the users expect. -/
theorem Coherent.repliesTo (runs : P.RunsOver env d floatText skipHuc14and16)
    (reachable : Reachable P s)
    (coherent : Coherent P Good s replied answered pending unread chunks) {lines : List Text}
    (begins : lines <+: s.parsed ++ unread) :
    List.Forall₂ (RepliesTo P env d) (s.written.take lines.length)
      (lines.filterMap fun line => (parseStack line).map replyTo) := by
  obtain ⟨asked, later, answers, written, found, fits, documents⟩ :=
    coherent.found runs reachable
  obtain ⟨more, whole⟩ := begins
  rw [← whole, List.map_append] at documents
  obtain ⟨first, others, rfl, isFirst, _⟩ := List.append_eq_map_iff.mp documents
  have count : lines.length = first.length := by simpa using (congrArg List.length isFirst).symm
  have enough := found.length_eq
  rw [List.length_append] at enough
  rw [written, List.take_append_of_le_length (by omega), count]
  exact replies_of_found runs.numbers (List.forall₂_take_append asked first others found)
    (fun stack member => fits stack (List.mem_append_left _ member)) isFirst.symm

theorem Coherent.length_replies
    (coherent : Coherent P Good s replied answered pending unread chunks) :
    s.replies.length = s.parsed.length := by
  have chats : s.replies.length = replied.length := by
    simpa using congrArg List.length coherent.chats
  exact chats.trans coherent.echoed.length_eq

/-- The replies so far are to the first requests written, each about its location. -/
def Told (P : Platform σ (Machine γ)) (env : Externals γ) (d : Dataset)
    (s : System σ (Machine γ)) : Prop :=
  List.Forall₂ (RepliesTo P env d) (s.written.take s.replies.length) s.replies

theorem Reachable.told (runs : P.RunsOver env d floatText skipHuc14and16)
    (reachable : Reachable P s) : Told P env d s := by
  have oneLine := fun x finite => (runs.main.numerals x finite).oneLine
  obtain ⟨_, _, _, unread, _, coherent⟩ :=
    reachable.coherent runs.main.answering runs.main.decodes oneLine
  have told := coherent.repliesTo runs reachable (List.prefix_append s.parsed unread)
  rwa [← runs.parses, ← reachable.replies, ← coherent.length_replies] at told

/-- Whatever the interleaving and the chunks, the replies are to the first requests
written, in their order, each to its own chat and about the location that the process
read; and when nothing is under way, every request has its reply. -/
theorem reachable_replies (runs : P.RunsOver env d floatText skipHuc14and16)
    (reachable : Reachable P s) :
    Told P env d s ∧ (s.Drained → s.replies.length = s.written.length) := by
  refine ⟨reachable.told runs, fun drained => ?_⟩
  have oneLine := fun x finite => (runs.main.numerals x finite).oneLine
  obtain ⟨faithful, _⟩ := reachable.faithful runs.main.answering runs.main.decodes oneLine
  simpa using congrArg List.length (faithful.complete drained).2

end Main

/-! ### Two chats -/

section Squares

open Relation (ReflTransGen)

theorem parseStack_readsId {γ : Type} (env : Externals γ) {floatText : FloatText}
    (numbers : ∀ x : F64, x.isFinite → Json.IsNumber (floatText x)) :
    ReadsId env floatText parseStack := by
  intro stack line small finiteX finiteY encoded
  have fits : Zig.i64.Has stack.requestId := by
    simp only [Zig.IntType.Has, Zig.i64]
    omega
  exact ⟨_, parseStack_document numbers (fun _ => ⟨finiteX, finiteY⟩) fits encoded, rfl⟩

theorem Reachable.works {σ ω : Type} {P : Platform σ ω} {s t : System σ ω}
    (reachable : Reachable P s) (run : ReflTransGen (Works P) s t) : Reachable P t := by
  induction run with
  | refl => exact reachable
  | tail _ last ih => exact ih.step _ _ (.works _ _ last)

/-- The oracle over the square and a bot that parses its lines. -/
def squareReader : Platform Bytes (Machine Box) := { squarePlatform with jsonParse := parseStack }

theorem squareReader_runsMain : squareReader.RunsMain (squareWorld 6) wholeText true :=
  { squarePlatform_runsMain with reads := parseStack_readsId _ wholeText_isNumber }

theorem squareReader_runsOver :
    squareReader.RunsOver (squareWorld 6) (squares 6) wholeText true where
  main := squareReader_runsMain
  parses := rfl
  numbers := wholeText_isNumber
  hosts := serve_hosts (squares 6) boxes
  steady := serve_steady _ _
  boxed := squares_boxed 6
  nested := squares_nested 6

/-- Both requests are under way, the one of the group first. -/
theorem squareReader_drains : ∃ t : System Bytes (Machine Box), Reachable squareReader t ∧
    t.Drained ∧ t.written = [groupRequest, userRequest] := by
  have runs := squareReader_runsMain
  have safe : userRequest.Safe ∧ groupRequest.Safe := by unfold Request.Safe; decide
  have start : Reachable squareReader (.init squareReader) := .init
  have both := (start.step _ _ (.location _ userRequest safe.1)).step _ _
    (.location _ groupRequest safe.2)
  have first := both.step _ _ (.acknowledged _ [userRequest] [] groupRequest rfl)
  have second := first.step _ _ (.acknowledged _ [] [] userRequest rfl)
  obtain ⟨_, t, run, drained, written⟩ := second.faithful runs.answering runs.decodes
    fun x finite => (runs.numerals x finite).oneLine
  exact ⟨t, second.works run, drained, written⟩

theorem reachable_replies_squares : ∃ t : System Bytes (Machine Box),
    t.written = [groupRequest, userRequest] ∧ t.replies.length = 2 ∧
      Told squareReader (squareWorld 6) (squares 6) t := by
  obtain ⟨t, reachable, drained, written⟩ := squareReader_drains
  obtain ⟨told, complete⟩ := reachable_replies squareReader_runsOver reachable
  exact ⟨t, written, (complete drained).trans (by rw [written]; rfl), told⟩

end Squares

end WatershedOracle.TelegramBot
