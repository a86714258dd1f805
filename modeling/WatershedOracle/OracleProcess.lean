import WatershedOracle.Library.ZigJsonText
import WatershedOracle.MalformedLines
import WatershedOracle.Protocol

set_option autoImplicit false

/-! main as the oracle process of the bot: it reads the request lines that JSON.stringify
writes, and its answers are lines of text that carry the id of the request. -/

namespace WatershedOracle.TelegramBot

open Effect

/-! ### Requests -/

/-- A JSON number that std.json reads as a finite f64. -/
structure Numeral (text : Bytes) : Prop where
  oneLine : Nmea.lineFeed ∉ text
  starts : ∃ c rest, text = c :: rest ∧ (c = 45 ∨ Zig.Json.isDigit c = true)
  token : ∀ (c : UInt8) (rest : Bytes), c = 44 ∨ c = 125 →
    Zig.Json.scalarToken (text ++ c :: rest) = .ok (text, c :: rest)
  finite : ∃ literal, Zig.parseFloat text = .ok literal ∧ (F64.ofLiteral .f64 literal).isFinite

theorem skipWhitespace_number {text : Bytes}
    (starts : ∃ c rest, text = c :: rest ∧ (c = 45 ∨ Zig.Json.isDigit c = true)) (later : Bytes) :
    Zig.Json.skipWhitespace (text ++ later) = text ++ later := by
  obtain ⟨c, rest, rfl, front⟩ := starts
  unfold Zig.Json.skipWhitespace
  rw [List.cons_append, List.dropWhile_cons_of_neg]
  intro space
  have blank : c ∈ ([32, 9, 10, 13] : Bytes) := of_decide_eq_true space
  have none_ : ∀ b ∈ ([32, 9, 10, 13] : Bytes), ¬ (b = 45 ∨ Zig.Json.isDigit b = true) := by
    decide +kernel
  exact none_ c blank front

/-- One member with a plain name and a value that is one token. -/
theorem parseMember_of {fields fields' : PointFields} {field : PointField}
    {name value rest : Bytes} {c : UInt8} (plain : Zig.Json.Plain name)
    (utf8 : (ByteArray.mk name.toArray).validateUTF8 = true)
    (known : PointField.ofName name = some field) (unseen : fields.seen field = false)
    (starts : Zig.Json.skipWhitespace (value ++ c :: rest) = value ++ c :: rest)
    (token : Zig.Json.scalarToken (value ++ c :: rest) = .ok (value, c :: rest))
    (set : fields.set field value = .ok fields') :
    parseMember fields (34 :: (name ++ 34 :: 58 :: (value ++ c :: rest))) =
      .ok (fields', c :: rest) := by
  have quoted : Zig.Json.skipWhitespace (34 :: (name ++ 34 :: 58 :: (value ++ c :: rest))) =
      34 :: (name ++ 34 :: 58 :: (value ++ c :: rest)) := rfl
  have colon : Zig.Json.expect 58 (58 :: (value ++ c :: rest)) = .ok (value ++ c :: rest) := rfl
  unfold parseMember
  simp only [quoted, Zig.Json.stringToken_plain plain utf8, Except.mapError, Bind.bind, Except.bind,
    known, unseen, colon, starts, token, set, pure, Except.pure, Bool.false_eq_true, ↓reduceIte]

theorem parseMembers_comma {left : Nat} {fields fields' : PointFields} {s rest : Bytes}
    (member : parseMember fields s = .ok (fields', 44 :: rest)) :
    parseMembers (left + 1) fields s = parseMembers left fields' rest := by
  rw [parseMembers, member]
  rfl

theorem parseMembers_brace {left : Nat} {fields fields' : PointFields} {s rest : Bytes}
    (member : parseMember fields s = .ok (fields', 125 :: rest)) :
    parseMembers left fields s = .ok (fields', rest) := by
  unfold parseMembers
  rw [member]
  rfl

theorem requestLine_eq (numberText : F64 → Bytes) (request : Request) :
    requestLine numberText request =
      123 :: 34 :: (Zig.ascii "requestId" ++ 34 :: 58 :: (Zig.Json.intText request.chat ++ 44 ::
        34 :: (Zig.ascii "longitude" ++ 34 :: 58 :: (numberText request.longitude ++ 44 ::
          34 :: (Zig.ascii "latitude" ++ 34 :: 58 :: (numberText request.latitude ++ 125 :: [])))))) := by
  simp only [requestLine, List.append_assoc]
  rfl

theorem intText_bytes (n : Int) : ∀ byte ∈ Zig.Json.intText n,
    byte = 45 ∨ Zig.Json.isDigit byte = true := by
  unfold Zig.Json.intText
  split
  · intro byte member
    rcases List.mem_cons.mp member with minus | digit
    · exact .inl minus
    · exact .inr (Zig.Json.natText_digits _ byte digit)
  · exact fun byte member => .inr (Zig.Json.natText_digits _ byte member)

theorem intText_ne_minusZero (n : Int) : Zig.Json.intText n ≠ Zig.ascii "-0" := by
  have minusZero : Zig.ascii "-0" = [45, 48] := by decide
  obtain ⟨c, rest, shape, digit, zero⟩ := Zig.Json.natText_cons n.natAbs
  rw [minusZero]
  unfold Zig.Json.intText
  rw [shape]
  split
  · intro same
    have first : c = 48 := (List.cons.inj (List.cons.inj same).2).1
    have none_ := (zero first).2
    omega
  · intro same
    have first : c = 45 := (List.cons.inj same).1
    exact (Zig.Json.digit_plain digit).2.1 first

theorem sliceToInt_intText {n : Int} (fits : Zig.i64.Has n) :
    sliceToInt (Zig.Json.intText n) = .ok n := by
  have whole : ∀ c ∈ Zig.Json.intText n, c ∉ Zig.ascii ".eE" := by
    intro c member inside
    have fractional : ∀ c ∈ Zig.ascii ".eE", ¬ (c = 45 ∨ Zig.Json.isDigit c = true) := by
      decide +kernel
    exact fractional c inside (intText_bytes n c member)
  have formatted : isNumberFormattedLikeAnInteger (Zig.Json.intText n) = true := by
    simp only [isNumberFormattedLikeAnInteger, Bool.and_eq_true, decide_eq_true_eq, List.all_eq_true]
    exact ⟨intText_ne_minusZero n, whole⟩
  rw [sliceToInt, if_pos formatted,
    Zig.Json.parseInt_intText n (by decide) fits]
  rfl

theorem parsePointJson_of_members {s : Bytes} {fields : PointFields}
    (members : parseMembers 3 {} (34 :: s) = .ok (fields, [])) :
    parsePointJson (123 :: 34 :: s) = fields.fill := by
  have brace : Zig.Json.skipWhitespace (123 :: 34 :: s) = 123 :: 34 :: s := rfl
  have quote : Zig.Json.skipWhitespace (34 :: s) = 34 :: s := rfl
  unfold parsePointJson
  simp only [brace, quote, members, Bind.bind, Except.bind]
  cases fields.fill <;> rfl

theorem parsePointJson_requestLine {numberText : F64 → Bytes} (request : Request)
    (safe : request.Safe) (longitude : Numeral (numberText request.longitude))
    (latitude : Numeral (numberText request.latitude)) :
    ∃ x y, x.isFinite ∧ y.isFinite ∧
      parsePointJson (requestLine numberText request) = .ok ⟨request.chat, x, y⟩ := by
  obtain ⟨first, isFirst, finite⟩ := longitude.finite
  obtain ⟨second, isSecond, finite'⟩ := latitude.finite
  have fits : Zig.i64.Has request.chat := by
    have small : request.chat.natAbs < 2 ^ 53 := safe
    simp only [Zig.IntType.Has, Zig.i64]
    omega
  have id : PointFields.set {} .requestId (Zig.Json.intText request.chat) =
      .ok ⟨some request.chat, none, none⟩ := by
    rw [PointFields.set, sliceToInt_intText fits]
    rfl
  have along : PointFields.set ⟨some request.chat, none, none⟩ .longitude
      (numberText request.longitude) =
      .ok ⟨some request.chat, some (F64.ofLiteral .f64 first), none⟩ := by
    rw [PointFields.set, isFirst]
    rfl
  have up : PointFields.set ⟨some request.chat, some (F64.ofLiteral .f64 first), none⟩ .latitude
      (numberText request.latitude) =
      .ok ⟨some request.chat, some (F64.ofLiteral .f64 first),
        some (F64.ofLiteral .f64 second)⟩ := by
    rw [PointFields.set, isSecond]
    rfl
  have comma : Zig.Json.EndsNumber 44 := by
    simp [Zig.Json.EndsNumber, Zig.Json.isDigit]
  have members : parseMembers 3 {} (34 :: (Zig.ascii "requestId" ++ 34 :: 58 ::
      (Zig.Json.intText request.chat ++ 44 :: 34 :: (Zig.ascii "longitude" ++ 34 :: 58 ::
        (numberText request.longitude ++ 44 :: 34 :: (Zig.ascii "latitude" ++ 34 :: 58 ::
          (numberText request.latitude ++ 125 :: []))))))) =
      .ok (⟨some request.chat, some (F64.ofLiteral .f64 first),
        some (F64.ofLiteral .f64 second)⟩, []) := by
    rw [parseMembers_comma (parseMember_of (by decide) (by decide +kernel) rfl rfl
        (skipWhitespace_number (Zig.Json.intText_starts _) _) (Zig.Json.scalarToken_intText _ comma _) id),
      parseMembers_comma (parseMember_of (by decide) (by decide +kernel) rfl rfl
        (skipWhitespace_number longitude.starts _) (longitude.token _ _ (.inl rfl)) along),
      parseMembers_brace (parseMember_of (by decide) (by decide +kernel) rfl rfl
        (skipWhitespace_number latitude.starts _) (latitude.token _ _ (.inr rfl)) up)]
  refine ⟨_, _, finite, finite', ?_⟩
  rw [requestLine_eq, parsePointJson_of_members members]
  rfl

/-! ### Answers -/

section Answers

variable {γ : Type} (env : Externals γ) (floatText : FloatText)

/-- What the process does with one more request line. -/
def oracleAnswer (m : Machine γ) (line : Bytes) : Machine γ × Bytes :=
  let run := mainLoop env floatText .stdin true m [line]
  (run.machine, run.output)

theorem document_named (stack : WatershedStack γ) :
    ∀ member ∈ document env stack,
      Zig.Json.Ascii (Zig.ascii member.1) ∧ member.2.Named := by
  have names : ∀ name ∈ ["requestId", "pointNotInDataset", "point", "WKT", "longitude", "latitude",
      "name", "huc"] ++ Level.all.map Level.hucLevel, Zig.Json.Ascii (Zig.ascii name) := by
    decide
  have named : ∀ {members : List (String × Zig.Json.Scalar F64)},
      (∀ name ∈ members.map Prod.fst, Zig.Json.Ascii (Zig.ascii name)) →
      (Zig.Json.Node.object members).Named :=
    fun each member listed => each _ (List.mem_map_of_mem listed)
  simp only [document, List.forall_mem_append]
  refine ⟨⟨⟨?_, ?_⟩, ?_⟩, ?_⟩
  · simp [names, Zig.Json.Node.Named]
  · split <;> simp [names, Zig.Json.Node.Named]
  · intro member listed
    obtain ⟨point, _, rfl⟩ := Option.map_eq_some_iff.mp (Option.mem_toList.mp listed)
    exact ⟨names "point" (by decide), named (by simp [names])⟩
  · intro member listed
    obtain ⟨level, _, isMember⟩ := List.mem_filterMap.mp listed
    obtain ⟨w, _, rfl⟩ := Option.map_eq_some_iff.mp isMember
    exact ⟨names _ (List.mem_append_right _ (List.mem_map_of_mem level.mem_all)),
      named (by simp [names])⟩

variable {env floatText}

/-- A document is written as one line of text. -/
theorem render_isLine
    (floats : ∀ x, Zig.Json.Printable (floatText x) ∧ Zig.Json.Ascii (floatText x))
    (stack : WatershedStack γ) :
    ∃ line, IsLine line ∧
      Utf8.encode line = Zig.Json.render floatText (document env stack) := by
  obtain ⟨line, encoded⟩ := Zig.Json.render_isText (fun x => (floats x).2.isText)
    (document_named env stack)
  have above := Zig.Json.render_printable (fun x => (floats x).1) (document env stack)
  have absent : ∀ c : Char, ∀ byte < 32, String.utf8EncodeChar c = [byte] → c ∉ line := by
    intro c byte low single member
    have inside : byte ∈ Utf8.encode line :=
      List.mem_flatMap.mpr ⟨c, member, single ▸ List.mem_singleton_self _⟩
    exact absurd (above byte (encoded ▸ inside)) (UInt8.not_le.mpr low)
  exact ⟨line, ⟨absent _ 10 (by decide) (by decide), absent _ 13 (by decide) (by decide)⟩, encoded⟩

/-- A document begins with a brace and not with a byte order mark. -/
theorem unmarked_render {stack : WatershedStack γ} {line : Text}
    (encoded : Utf8.encode line = Zig.Json.render floatText (document env stack)) :
    Utf8.Unmarked line := by
  intro marked
  cases line with
  | nil => cases marked
  | cons c rest =>
    obtain rfl := Option.some.inj marked
    have mark : String.utf8EncodeChar '\uFEFF' = [239, 187, 191] := by decide
    have brace : (Zig.Json.render floatText (document env stack)).head? = some 123 := by
      simp [Zig.Json.render, Zig.Json.renderMembers]
    rw [← encoded, Utf8.encode_cons, mark] at brace
    cases brace

variable (env floatText) in
/-- JSON.parse reads the id in a document whose numbers are finite. -/
def ReadsId (jsonParse : Text → Option Stack) : Prop :=
  ∀ (stack : WatershedStack γ) (line : Text), stack.requestId.natAbs < 2 ^ 53 →
    stack.pointBounds.minX.isFinite → stack.pointBounds.minY.isFinite →
    Utf8.encode line = Zig.Json.render floatText (document env stack) →
    ∃ parsed, jsonParse line = some parsed ∧ parsed.requestId = stack.requestId

/-- The process behind the bot is main, and what lies between them and around main works. -/
structure Platform.RunsMain {σ : Type} (P : Platform σ (Machine γ)) (env : Externals γ)
    (floatText : FloatText) (skipHuc14and16 : Bool) : Prop where
  start : P.oracle = { stack := .init skipHuc14and16 }
  answer : P.answer = oracleAnswer env floatText
  points : env.PointsAt
  /-- Every request is answered: no lookup of a finite location ends with a fault. -/
  prompt : ∀ history requestId x y, x.isFinite → y.isFinite →
    Clean ((update env ⟨requestId, .xy x y⟩).run (after env skipHuc14and16 history))
  /-- std.fmt writes a float in printable ASCII. -/
  floats : ∀ x, Zig.Json.Printable (floatText x) ∧ Zig.Json.Ascii (floatText x)
  /-- JSON.stringify writes a finite number as std.json reads it. -/
  numerals : ∀ x, x.isFinite → Numeral (P.numberText x)
  reads : ReadsId env floatText P.jsonParse
  decodes : P.textDecoder.Correct

section Request

variable {σ : Type} {P : Platform σ (Machine γ)} {skipHuc14and16 : Bool}

/-- main looks the location of a request up and prints the document of its id. -/
theorem Platform.RunsMain.ran (runs : P.RunsMain env floatText skipHuc14and16)
    (history : List Point) (request : Request) (safe : request.Safe) :
    ∃ asked m', m' = after env skipHuc14and16 (history ++ [asked]) ∧
      mainLoop env floatText .stdin true (after env skipHuc14and16 history)
          [requestLine P.numberText request] = ⟨printJSON env floatText m'.stack, .ok (), m'⟩ ∧
      m'.stack.requestId = request.chat ∧ m'.stack.pointBounds.minX.isFinite ∧
      m'.stack.pointBounds.minY.isFinite := by
  obtain ⟨x, y, finiteX, finiteY, parsed⟩ := parsePointJson_requestLine request safe
    (runs.numerals _ request.finite.1) (runs.numerals _ request.finite.2)
  obtain ⟨geom, made, box⟩ := runs.points x y finiteX finiteY
  let asked : Point := ⟨request.chat, .xy x y⟩
  have asks : env.geometryOf asked.location = some geom := made
  have clean : Clean ((update env asked).run (after env skipHuc14and16 history)) :=
    runs.prompt history _ x y finiteX finiteY
  have read : readLine .stdin true (requestLine P.numberText request) = .ok (some asked) := by
    simp only [readLine, parsed, ↓reduceIte]
    rfl
  obtain ⟨list, holds, _⟩ := after_holds env skipHuc14and16 history
  obtain ⟨addr, same⟩ := update_request asked holds asks
  have bounds := same.2.1.trans box
  refine ⟨asked, _, rfl, ?_, ?_, ?_, ?_⟩
  · rw [after_concat, mainLoop_answer [] read clean, mainLoop_nil]
    simp only [Run.after, List.append_nil]
    rfl
  · rw [after_concat]
    exact same.2.2.1
  · rw [after_concat, bounds]
    exact finiteX
  · rw [after_concat, bounds]
    exact finiteY

/-- main, fed with the requests of the bot, answers each with one line that has its id. -/
theorem Platform.RunsMain.answering (runs : P.RunsMain env floatText skipHuc14and16) :
    Answering P fun m => ∃ history, m = after env skipHuc14and16 history where
  start := ⟨[], by rw [runs.start, after_nil]⟩
  next m request reached safe := by
    obtain ⟨history, rfl⟩ := reached
    obtain ⟨asked, m', isAfter, ran, id, finiteX, finiteY⟩ := runs.ran history request safe
    obtain ⟨line, isLine, encoded⟩ := render_isLine runs.floats m'.stack
    have small : m'.stack.requestId.natAbs < 2 ^ 53 := id ▸ safe
    obtain ⟨parsed, reading, echoed⟩ := runs.reads m'.stack line small finiteX finiteY encoded
    have unmarked := unmarked_render encoded
    rw [runs.answer, oracleAnswer, ran]
    refine ⟨⟨history ++ [asked], isAfter⟩, line, ⟨isLine, unmarked, parsed, reading,
      echoed.trans id⟩, ?_⟩
    rw [lineBytes, Utf8.encode_append, encoded]
    rfl

end Request

end Answers

/-! ### A reader of answers -/

/-- What stands behind the first place where `mark` does. -/
def afterMark (mark : Bytes) : Bytes → Option Bytes
  | [] => none
  | c :: rest => if mark <+: c :: rest then some ((c :: rest).drop mark.length)
      else afterMark mark rest

def readId (bytes : Bytes) : Option Int := do
  let value ← afterMark (Zig.ascii "\x7b\"requestId\":") bytes
  let (id, _) ← (Zig.Json.scalarToken value).toOption
  (Zig.parseInt Zig.i64 id 10).toOption

def readName (bytes : Bytes) (level : Level) : Option Text := do
  let value ← afterMark (34 :: Zig.ascii level.hucLevel ++ Zig.ascii "\":\x7b\"name\":\"") bytes
  let (name, _) ← (Zig.Json.stringToken value).toOption
  some (Utf8.wellFormed.text [name])

/-- JSON.parse of a line of printJSON, as far as main.js looks at it. -/
def readStack (line : Text) : Option Stack :=
  let bytes := Utf8.encode line
  (readId bytes).map fun requestId =>
    ⟨requestId, (afterMark (Zig.ascii "\"pointNotInDataset\":true") bytes).isSome, readName bytes⟩

theorem afterMark_start {mark : Bytes} (some_ : mark ≠ []) (rest : Bytes) :
    afterMark mark (mark ++ rest) = some rest := by
  obtain ⟨c, others, rfl⟩ := List.exists_cons_of_ne_nil some_
  rw [List.cons_append, afterMark, if_pos (by simp)]
  simp

section Reader

variable {γ : Type} (env : Externals γ) (floatText : FloatText)

theorem intercalate_closed (first : Bytes) (others : List Bytes) :
    ∃ c rest, Zig.Json.EndsNumber c ∧
      List.intercalate [44] (first :: others) ++ [125] = first ++ c :: rest := by
  cases others with
  | nil => exact ⟨125, [], by simp [Zig.Json.EndsNumber, Zig.Json.isDigit], by simp⟩
  | cons next others =>
    refine ⟨44, List.intercalate [44] (next :: others) ++ [125],
      by simp [Zig.Json.EndsNumber, Zig.Json.isDigit], ?_⟩
    rw [List.intercalate_cons_cons]
    simp

/-- A document begins with its id. -/
theorem render_document_id (stack : WatershedStack γ) :
    ∃ c rest, Zig.Json.EndsNumber c ∧ Zig.Json.render floatText (document env stack) =
      Zig.ascii "\x7b\"requestId\":" ++ (Zig.Json.intText stack.requestId ++ c :: rest) := by
  have name : 123 :: Zig.Json.encodeString (Zig.ascii "requestId") ++ [58] =
      Zig.ascii "\x7b\"requestId\":" := by decide
  obtain ⟨others, whole⟩ : ∃ others, document env stack =
      ("requestId", .scalar (.integer stack.requestId)) :: others := ⟨_, rfl⟩
  obtain ⟨c, rest, ends, closed⟩ := intercalate_closed
    (Zig.Json.encodeString (Zig.ascii "requestId") ++ 58 :: Zig.Json.intText stack.requestId)
    (others.map fun (name, value) => Zig.Json.encodeString (Zig.ascii name) ++
      58 :: Zig.Json.renderNode floatText value)
  refine ⟨c, rest, ends, ?_⟩
  rw [whole, ← name]
  simp only [List.cons_append, List.append_assoc, List.nil_append] at closed ⊢
  exact congrArg (123 :: ·) closed

theorem readStack_readsId : ReadsId env floatText readStack := by
  intro stack line small _ _ encoded
  obtain ⟨c, rest, ends, shape⟩ := render_document_id env floatText stack
  have fits : Zig.i64.Has stack.requestId := by
    simp only [Zig.IntType.Has, Zig.i64]
    omega
  have id : readId (Utf8.encode line) = some stack.requestId := by
    have mark : Zig.ascii "\x7b\"requestId\":" ≠ [] := by decide
    simp only [readId, encoded, shape, afterMark_start mark, Bind.bind, Option.bind,
      Zig.Json.scalarToken_intText _ ends, Except.toOption,
      Zig.Json.parseInt_intText _ (by decide) fits]
  exact ⟨_, by rw [readStack, id]; rfl, rfl⟩

end Reader

end WatershedOracle.TelegramBot
