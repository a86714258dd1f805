import WatershedOracle.BotReplies

set_option autoImplicit false

/-! The bot when the process behind it exits: the process may stop in the middle of an
answer, its stream ends, and the loop over the lines comes to its end. No chat is told
anything from an answer that has not come whole. -/

namespace WatershedOracle.TelegramBot

open Effect

/-! ### States and steps -/

/-- The bot, and whether its process has exited. -/
structure Supervised (σ ω : Type) where
  system : System σ ω
  exited : Bool

section Steps

variable {σ ω : Type}

/-- reader.read() at the end of the stream. -/
def System.closed (P : Platform σ ω) (s : System σ ω) : System σ ω :=
  { s with iterator := s.iterator.receive P.textDecoder .done, mode := .scanning }

/-- What a process that exits has written of its next answer. -/
inductive LeftOver (P : Platform σ ω) (s : System σ ω) : Bytes → Prop
  | nothing : LeftOver P s []
  | begun (line rest part : Bytes) (pipe : s.requestPipe = line ++ Nmea.lineFeed :: rest)
      (whole : Nmea.lineFeed ∉ line) (begins : part <+: (P.answer s.oracle line).2) :
      LeftOver P s part

inductive SupervisedStep (P : Platform σ ω) : Supervised σ ω → Supervised σ ω → Prop
  | runs (s t : System σ ω) (step : Step P s t) : SupervisedStep P ⟨s, false⟩ ⟨t, false⟩
  | exits (s : System σ ω) (part : Bytes) (leftOver : LeftOver P s part) :
      SupervisedStep P ⟨s, false⟩ ⟨{ s with answerPipe := s.answerPipe ++ part }, true⟩
  /-- Everything but an answer can still happen. -/
  | survives (s t : System σ ω) (step : Step P s t) (unanswered : t.printed = s.printed) :
      SupervisedStep P ⟨s, true⟩ ⟨t, true⟩
  | closes (s : System σ ω) (waiting : s.mode = .reading) (empty : s.answerPipe = []) :
      SupervisedStep P ⟨s, true⟩ ⟨s.closed P, true⟩

inductive SupervisedReachable (P : Platform σ ω) : Supervised σ ω → Prop
  | init : SupervisedReachable P ⟨.init P, false⟩
  | step (s t : Supervised σ ω) (earlier : SupervisedReachable P s)
      (step : SupervisedStep P s t) : SupervisedReachable P t

end Steps

/-! ### Exits against runs without them -/

section Shadow

variable {σ ω : Type} {P : Platform σ ω}

/-- The state with what the process would have written had it not exited. -/
def System.unhurt (s : System σ ω) (requests : Bytes) (oracle : ω) (printed : List Bytes)
    (undelivered : Bytes) : System σ ω :=
  { s with
    requestPipe := requests, oracle := oracle, printed := printed
    answerPipe := s.answerPipe ++ undelivered }

/-- Up to the end of the stream, the state is one of a run without an exit, but for the end
of the answer that was being written. -/
structure Shadow (P : Platform σ ω) (s : System σ ω) (requests : Bytes) (oracle : ω)
    (printed : List Bytes) (undelivered : Bytes) : Prop where
  reachable : Reachable P (s.unhurt requests oracle printed undelivered)
  cut : (printed = s.printed ∧ undelivered = []) ∨
    ∃ newest, printed = s.printed ++ [newest] ∧ undelivered <:+ newest

theorem scan_unhurt (s : System σ ω) (requests : Bytes) (oracle : ω) (printed : List Bytes)
    (undelivered : Bytes) :
    (s.unhurt requests oracle printed undelivered).scan P =
      (s.scan P).unhurt requests oracle printed undelivered := by
  have handled : ∀ (t : System σ ω) (line : Text),
      (t.unhurt requests oracle printed undelivered).handle P line =
        (t.handle P line).unhurt requests oracle printed undelivered := by
    intro t line
    unfold System.handle
    cases P.jsonParse line <;> rfl
  unfold System.scan
  have same : (s.unhurt requests oracle printed undelivered).iterator = s.iterator := rfl
  rw [same]
  generalize s.iterator.round 1 = rounded
  obtain ⟨it, action⟩ := rounded
  cases action with
  | read => rfl
  | again => rfl
  | yield line => exact handled { s with iterator := it } line
  | finish last =>
    cases last with
    | none => rfl
    | some line =>
      have done := handled { s with iterator := it } line
      exact congrArg (fun t : System σ ω => { t with mode := .ended }) done

theorem shadow_of_exit {s : System σ ω} (reachable : Reachable P s) {part : Bytes}
    (leftOver : LeftOver P s part) :
    ∃ requests oracle printed undelivered,
      Shadow P { s with answerPipe := s.answerPipe ++ part } requests oracle printed
        undelivered := by
  cases leftOver with
  | nothing =>
    refine ⟨s.requestPipe, s.oracle, s.printed, [], ?_, .inl ⟨rfl, rfl⟩⟩
    simpa [System.unhurt] using reachable
  | begun line rest part pipe whole begins =>
    obtain ⟨undelivered, answer⟩ := begins
    have answered := reachable.step _ _ (.works _ _ (.answer s line rest pipe whole))
    refine ⟨rest, (P.answer s.oracle line).1, s.printed ++ [(P.answer s.oracle line).2],
      undelivered, ?_, .inr ⟨_, rfl, part, answer⟩⟩
    simpa [System.unhurt, answer] using answered

theorem Shadow.step {s t : System σ ω} {requests : Bytes} {oracle : ω} {printed : List Bytes}
    {undelivered : Bytes} (shadow : Shadow P s requests oracle printed undelivered)
    (step : Step P s t) (unanswered : t.printed = s.printed) :
    ∃ requests', Shadow P t requests' oracle printed undelivered := by
  obtain ⟨reachable, cut⟩ := shadow
  rw [← unanswered] at cut
  cases step with
  | location request safe =>
    exact ⟨requests, reachable.step _ _ (.location _ request safe), cut⟩
  | acknowledged before after request waits =>
    exact ⟨_, reachable.step _ _ (.acknowledged _ before after request waits), cut⟩
  | works _ works =>
    cases works with
    | answer line rest pipe whole =>
      exact absurd unanswered (by simp)
    | deliver chunk rest waiting pipe =>
      refine ⟨requests, ?_, cut⟩
      have pipe' : (s.unhurt requests oracle printed undelivered).answerPipe =
          chunk ++ (rest ++ undelivered) := by
        simp [System.unhurt, pipe]
      exact reachable.step _ _ (.works _ _ (.deliver _ chunk _ waiting pipe'))
    | scan awake =>
      refine ⟨requests, ?_, cut⟩
      rw [← scan_unhurt]
      exact reachable.step _ _ (.works _ _ (.scan _ awake))

end Shadow

/-! ### The end of the stream -/

section Close

variable {σ ω : Type} {P : Platform σ ω} {Good : ω → Prop} {s : System σ ω}
  {replied answered pending : List Request} {unread : List Text} {chunks : List Bytes}

theorem round_done {it : LineIterator σ} (done : it.readerDone = true) (start : it.startIndex = 0)
    (last : it.lastIndex = 0) (isLine : IsLine it.chunk) :
    it.round 1 = (it, .finish (if it.chunk = [] then none else some it.chunk)) := by
  obtain ⟨decoder, chunk, _, _, _, _⟩ := it
  cases done
  cases start
  cases last
  have found : search (chunk.drop 0) = none := search_eq_none isLine.1 isLine.2
  rw [LineIterator.round, LineIterator.exec_none found]
  cases chunk <;> simp [LineIterator.remainder]

/-- The last round gives what is left to the loop, if anything is. -/
theorem scan_closed (s : System σ ω) (isLine : IsLine s.iterator.remainder) :
    ∃ it, (s.closed P).scan P =
      if s.iterator.remainder = [] then { s with iterator := it, mode := .ended }
      else { { s with iterator := it }.handle P s.iterator.remainder with mode := .ended } := by
  have rounded : (s.closed P).iterator.round 1 = (s.iterator.receive P.textDecoder .done,
      .finish (if s.iterator.remainder = [] then none else some s.iterator.remainder)) :=
    round_done rfl rfl rfl isLine
  refine ⟨s.iterator.receive P.textDecoder .done, ?_⟩
  unfold System.scan
  rw [rounded]
  by_cases nothing : s.iterator.remainder = []
  · rw [if_pos nothing, if_pos nothing]
    rfl
  · rw [if_neg nothing, if_neg nothing]
    show { { s.closed P with iterator := _ }.handle P s.iterator.remainder with mode := .ended } = _
    unfold System.handle
    cases P.jsonParse s.iterator.remainder <;> rfl

/-- Of what was printed before the exit nothing is left unread, and of the last answer at
most one line. -/
theorem Shadow.read {requests : Bytes} {oracle : ω} {printed : List Bytes} {undelivered : Bytes}
    (shadow : Shadow P s requests oracle printed undelivered)
    (coherent : Coherent P Good (s.unhurt requests oracle printed undelivered)
      replied answered pending unread chunks)
    (prompt : P.textDecoder.Prompt) (waiting : s.mode = .reading) (empty : s.answerPipe = []) :
    s.printed.length ≤ s.parsed.length ∧
      s.parsed.length + unread.length ≤ s.printed.length + 1 := by
  have isLine : IsLine s.iterator.remainder := coherent.waiting waiting
  have decoded : P.textDecoder.text chunks = joined s.parsed ++ s.iterator.remainder :=
    coherent.decoded
  have lines : printed = (s.parsed ++ unread).map lineBytes := coherent.printed
  have stream : chunks.flatten ++ undelivered = Utf8.encode (joined (s.parsed ++ unread)) := by
    have all := coherent.stream
    rwa [System.unhurt, empty, List.nil_append] at all
  obtain ⟨front, last, whole, count, few, part, begins⟩ : ∃ front last : List Text,
      s.parsed ++ unread = front ++ last ∧ s.printed.length = front.length ∧ last.length ≤ 1 ∧
        ∃ part, chunks.flatten = Utf8.encode (joined front) ++ part := by
    rcases shadow.cut with ⟨rfl, rfl⟩ | ⟨newest, rfl, part, answer⟩
    · refine ⟨s.parsed ++ unread, [], (List.append_nil _).symm, ?_, Nat.zero_le _, [], ?_⟩
      · rw [lines, List.length_map]
      · rw [← stream, List.append_nil, List.append_nil]
    · obtain ⟨front, last, whole, isFront, isLast⟩ := List.append_eq_map_iff.mp lines
      obtain ⟨line, rfl, rfl⟩ := List.map_eq_singleton_iff.mp isLast
      refine ⟨front, [line], whole, ?_, Nat.le_refl _, part, ?_⟩
      · rw [← isFront, List.length_map]
      · rw [whole, joined, Lines.unlines_concat, Utf8.encode_append] at stream
        have ends : Utf8.encode (line ++ ['\n']) = part ++ undelivered := answer.symm
        rw [ends, ← List.append_assoc] at stream
        exact List.append_cancel_right stream
  -- The decoder has given the front, and no line end stands in what is left.
  have marked : ∀ line ∈ front, Utf8.Unmarked line := by
    intro line member
    have printed : line ∈ s.parsed ++ unread := whole ▸ List.mem_append_left _ member
    obtain ⟨_, echoed⟩ := coherent.answers line printed
    exact echoed.unmarked
  have given : joined front <+: joined s.parsed ++ s.iterator.remainder :=
    decoded ▸ prompt chunks (joined front) part (unmarked_joined marked) begins
  have enough : front.length ≤ s.parsed.length := by
    by_contra short
    have longer : s.parsed <+: front :=
      List.prefix_of_prefix_length_le (whole ▸ List.prefix_append s.parsed unread)
        (List.prefix_append front last) (by omega)
    obtain ⟨tail, rfl⟩ := longer
    cases tail with
    | nil => simp at short
    | cons line more =>
      rw [joined, Lines.unlines_append] at given
      have inside := ((List.prefix_append_right_inj _).mp given).subset
      exact isLine.1 (inside (by simp [Lines.unlines_cons]))
  have total := congrArg List.length whole
  simp only [List.length_append] at total
  omega

end Close

/-! ### What the users are told -/

section Main

variable {γ σ : Type} {P : Platform σ (Machine γ)} {env : Externals γ} {d : Dataset}
  {floatText : FloatText} {skipHuc14and16 : Bool} {s : System σ (Machine γ)}

/-- Those that the process printed whole have been replied to, and at most one more, which
lacked its line feed only. -/
def Counted (s : System σ (Machine γ)) : Prop :=
  s.printed.length ≤ s.replies.length ∧ s.replies.length ≤ s.printed.length + 1

theorem found_finite {requests : List Request} {answers : List (WatershedStack γ)}
    (found : List.Forall₂ (Found P env d) requests answers) :
    ∀ stack ∈ answers, stack.Finite := by
  induction found with
  | nil => exact fun stack listed => nomatch listed
  | cons first _ ih => exact List.forall_mem_cons.mpr ⟨first.finite, ih⟩

variable {Good : Machine γ → Prop} {replied answered pending : List Request} {unread : List Text}
  {chunks : List Bytes}

/-- What is missing its end is not parsed. -/
theorem Coherent.unparsable (runs : P.RunsOver env d floatText skipHuc14and16)
    (reachable : Reachable P s)
    (coherent : Coherent P Good s replied answered pending unread chunks) {line part : Text}
    (listed : line ∈ s.parsed ++ unread) (begins : part <+: line) (proper : part ≠ line) :
    parseStack part = none := by
  obtain ⟨_, _, answers, _, found, _, documents⟩ := coherent.found runs reachable
  have encoded : Utf8.encode line ∈ answers.map fun stack =>
      Zig.Json.render floatText (document env stack) := documents ▸ List.mem_map_of_mem listed
  obtain ⟨stack, member, isLine⟩ := List.mem_map.mp encoded
  have sound : Json.Sound floatText (document env stack) :=
    document_sound runs.numbers (found_finite found stack member)
  obtain ⟨rest, rfl⟩ := begins
  have cut : Utf8.encode part <+: Zig.Json.render floatText (document env stack) := by
    rw [isLine, Utf8.encode_append]
    exact List.prefix_append _ _
  have short : Utf8.encode part ≠ Zig.Json.render floatText (document env stack) :=
    fun same => proper (encode_injective (same.trans isLine))
  rw [parseStack, Json.read_partial sound cut short]
  rfl

/-- A line that is left, were it whole, would be replied to as the users expect. -/
theorem Coherent.told_next (runs : P.RunsOver env d floatText skipHuc14and16)
    (reachable : Reachable P s) {line : Text} {more : List Text}
    (coherent : Coherent P Good s replied answered pending (line :: more) chunks) :
    ∃ stack, P.jsonParse line = some stack ∧ List.Forall₂ (RepliesTo P env d)
      (s.written.take (s.replies.length + 1)) (s.replies ++ [replyTo stack]) := by
  obtain ⟨request, later, echoed, _, _⟩ := List.forall₂_cons_right_iff.mp coherent.unechoed
  obtain ⟨stack, parsed, _⟩ := echoed.echo
  have next : s.parsed ++ [line] <+: s.parsed ++ line :: more := ⟨more, by simp⟩
  have told := coherent.repliesTo runs reachable next
  rw [List.filterMap_append, ← runs.parses, ← reachable.replies, List.length_append,
    ← coherent.length_replies] at told
  exact ⟨stack, parsed, by simpa [parsed] using told⟩

theorem prefix_of_first_line {line rest part : Text} (free : '\n' ∉ part)
    (begins : part <+: line ++ '\n' :: rest) : part <+: line := by
  rcases List.prefix_or_prefix_of_prefix begins (List.prefix_append line _) with inside | longer
  · exact inside
  · obtain ⟨tail, rfl⟩ := longer
    have more := (List.prefix_append_right_inj line).mp begins
    cases tail with
    | nil => simp
    | cons c tail =>
      obtain ⟨rfl, _⟩ := List.cons_prefix_cons.mp more
      simp at free

/-! ### Every reachable state -/

/-- Where the bot stands: as if there were no exit, at the end of the stream, after it. -/
inductive Settled (P : Platform σ (Machine γ)) (env : Externals γ) (d : Dataset) :
    Supervised σ (Machine γ) → Prop
  | running (s : System σ (Machine γ)) (reachable : Reachable P s) : Settled P env d ⟨s, false⟩
  | exited (s : System σ (Machine γ)) (requests : Bytes) (oracle : Machine γ)
      (printed : List Bytes) (undelivered : Bytes)
      (shadow : Shadow P s requests oracle printed undelivered) : Settled P env d ⟨s, true⟩
  | closed (s : System σ (Machine γ)) (requests : Bytes) (oracle : Machine γ)
      (printed : List Bytes) (undelivered : Bytes)
      (shadow : Shadow P s requests oracle printed undelivered) (waiting : s.mode = .reading)
      (empty : s.answerPipe = []) : Settled P env d ⟨s.closed P, true⟩
  | ended (s : System σ (Machine γ)) (over_ : s.mode = .ended) (told : Told P env d s)
      (counted : Counted s) : Settled P env d ⟨s, true⟩

/-- The loop ends with the end of the stream, and says nothing wrong. -/
theorem Shadow.closes (runs : P.RunsOver env d floatText skipHuc14and16)
    (prompt : P.textDecoder.Prompt) {requests : Bytes} {oracle : Machine γ}
    {printed : List Bytes} {undelivered : Bytes}
    (shadow : Shadow P s requests oracle printed undelivered) (waiting : s.mode = .reading)
    (empty : s.answerPipe = []) :
    ((s.closed P).scan P).mode = .ended ∧ Told P env d ((s.closed P).scan P) ∧
      Counted ((s.closed P).scan P) := by
  have oneLine := fun x finite => (runs.main.numerals x finite).oneLine
  obtain ⟨_, _, _, unread, _, coherent⟩ :=
    shadow.reachable.coherent runs.main.answering runs.main.decodes oneLine
  have isLine : IsLine s.iterator.remainder := coherent.waiting waiting
  have length : s.replies.length = s.parsed.length := coherent.length_replies
  have told : Told P env d (s.unhurt requests oracle printed undelivered) :=
    shadow.reachable.told runs
  obtain ⟨enough, few⟩ := shadow.read coherent prompt waiting empty
  obtain ⟨it, scanned⟩ := scan_closed (P := P) s isLine
  rw [scanned]
  by_cases nothing : s.iterator.remainder = []
  · rw [if_pos nothing]
    exact ⟨rfl, told, by dsimp only [Counted]; omega⟩
  · rw [if_neg nothing]
    -- A beginning of the one line that is left.
    obtain ⟨line, rfl, begins⟩ : ∃ line, unread = [line] ∧ s.iterator.remainder <+: line := by
      have left : s.iterator.remainder <+: joined unread :=
        coherent.remainder_prefix runs.main.decodes
      cases unread with
      | nil => exact absurd (List.prefix_nil.mp left) nothing
      | cons line more =>
        obtain rfl : more = [] := by
          rw [List.length_cons] at few
          exact List.eq_nil_of_length_eq_zero (by omega)
        rw [joined, Lines.unlines_cons] at left
        exact ⟨line, rfl, prefix_of_first_line isLine.1 left⟩
    have listed : line ∈ s.parsed ++ [line] := by simp
    rw [List.length_singleton] at few
    by_cases whole : s.iterator.remainder = line
    · obtain ⟨stack, parsed, told'⟩ := coherent.told_next runs shadow.reachable
      rw [whole, System.handle, parsed]
      refine ⟨rfl, ?_, ?_⟩
      · dsimp only [Told]
        rw [List.length_append]
        exact told'
      · dsimp only [Counted]
        rw [List.length_append, List.length_singleton]
        omega
    · rw [System.handle, runs.parses, coherent.unparsable runs shadow.reachable listed begins whole]
      exact ⟨rfl, told, by dsimp only [Counted]; omega⟩

/-- Further messages take nothing back. -/
theorem Told.acknowledged {before after : List Request} {request : Request} {pipe : Bytes}
    (told : Told P env d s) :
    Told P env d { s with
      unacknowledged := before ++ after
      written := s.written ++ [request]
      requestPipe := pipe } := by
  have enough := told.length_eq
  rw [List.length_take] at enough
  dsimp only [Told]
  rw [List.take_append_of_le_length (by omega)]
  exact told

/-- After the exit the invariant is kept by what can still happen. -/
theorem Settled.survives (runs : P.RunsOver env d floatText skipHuc14and16)
    (prompt : P.textDecoder.Prompt) {t : System σ (Machine γ)}
    (settled : Settled P env d ⟨s, true⟩) (step : Step P s t) (unanswered : t.printed = s.printed) :
    Settled P env d ⟨t, true⟩ := by
  cases settled with
  | exited _ requests oracle printed undelivered shadow =>
    obtain ⟨requests', next⟩ := shadow.step step unanswered
    exact .exited t requests' oracle printed undelivered next
  | closed s requests oracle printed undelivered shadow waiting empty =>
    cases step with
    | location request safe =>
      obtain ⟨requests', next⟩ := shadow.step (.location s request safe) rfl
      exact .closed _ requests' oracle printed undelivered next waiting empty
    | acknowledged before after request waits =>
      obtain ⟨requests', next⟩ := shadow.step (.acknowledged s before after request waits) rfl
      exact .closed _ requests' oracle printed undelivered next waiting empty
    | works _ works =>
      cases works with
      | answer line rest pipe whole => exact absurd unanswered (by simp)
      | deliver chunk rest reading pipe => cases reading
      | scan awake =>
        obtain ⟨ended, told, counted⟩ := shadow.closes runs prompt waiting empty
        exact .ended _ ended told counted
  | ended _ ended told counted =>
    cases step with
    | location request safe => exact .ended _ ended told counted
    | acknowledged before after request waits => exact .ended _ ended told.acknowledged counted
    | works _ works =>
      cases works with
      | answer line rest pipe whole => exact absurd unanswered (by simp)
      | deliver chunk rest reading pipe =>
        rw [ended] at reading
        cases reading
      | scan awake =>
        rw [ended] at awake
        cases awake

theorem SupervisedReachable.settled (runs : P.RunsOver env d floatText skipHuc14and16)
    (prompt : P.textDecoder.Prompt) {c : Supervised σ (Machine γ)}
    (reachable : SupervisedReachable P c) : Settled P env d c := by
  induction reachable with
  | init => exact .running _ .init
  | step c c' earlier step ih =>
    cases step with
    | runs s t step =>
      cases ih with
      | running _ reachable => exact .running t (reachable.step _ _ step)
    | exits s part leftOver =>
      cases ih with
      | running _ reachable =>
        obtain ⟨requests, oracle, printed, undelivered, shadow⟩ :=
          shadow_of_exit reachable leftOver
        exact .exited _ requests oracle printed undelivered shadow
    | survives s t step unanswered => exact ih.survives runs prompt step unanswered
    | closes s waiting empty =>
      cases ih with
      | exited _ requests oracle printed undelivered shadow =>
        exact .closed s requests oracle printed undelivered shadow waiting empty
      | closed s' => cases waiting
      | ended _ ended =>
        rw [ended] at waiting
        cases waiting

/-- Wherever the process exits, also inside an answer, and wherever its output was cut: no
reply is made of a part of an answer, the replies are as without the exit, and when the
loop over the lines has ended, every answer that came whole has been replied to. -/
theorem supervised_replies (runs : P.RunsOver env d floatText skipHuc14and16)
    (prompt : P.textDecoder.Prompt) {c : Supervised σ (Machine γ)}
    (reachable : SupervisedReachable P c) :
    Told P env d c.system ∧
      (c.system.mode = .ended → c.exited = true ∧ Counted c.system) := by
  have oneLine := fun x finite => (runs.main.numerals x finite).oneLine
  have running : ∀ {s : System σ (Machine γ)}, Reachable P s → s.mode ≠ .ended := by
    intro s reachable
    obtain ⟨_, _, _, _, _, coherent⟩ :=
      reachable.coherent runs.main.answering runs.main.decodes oneLine
    exact coherent.running
  cases reachable.settled runs prompt with
  | running s ran => exact ⟨ran.told runs, fun ended => absurd ended (running ran)⟩
  | exited s requests oracle printed undelivered shadow =>
    have told : Told P env d (s.unhurt requests oracle printed undelivered) :=
      shadow.reachable.told runs
    have calm := running shadow.reachable
    exact ⟨told, fun ended => absurd ended calm⟩
  | closed s requests oracle printed undelivered shadow waiting empty =>
    have told : Told P env d (s.unhurt requests oracle printed undelivered) :=
      shadow.reachable.told runs
    exact ⟨told, fun ended => nomatch ended⟩
  | ended s ended told counted => exact ⟨told, fun _ => ⟨rfl, counted⟩⟩

end Main

/-! ### Two chats -/

theorem Reachable.supervised {σ ω : Type} {P : Platform σ ω} {s : System σ ω}
    (reachable : Reachable P s) : SupervisedReachable P ⟨s, false⟩ := by
  induction reachable with
  | init => exact .init
  | step s t _ step ih => exact ih.step _ _ (.runs s t step)

/-- The process exits once both chats have their replies. -/
theorem squareReader_exits : ∃ c : Supervised Bytes (Machine Box),
    SupervisedReachable squareReader c ∧ c.system.mode = .ended ∧
      c.system.written = [groupRequest, userRequest] := by
  obtain ⟨t, reachable, drained, written⟩ := squareReader_drains
  let gone : System Bytes (Machine Box) := { t with answerPipe := t.answerPipe ++ [] }
  have empty : gone.answerPipe = [] := by simp [gone, drained.answers]
  have exited : SupervisedReachable squareReader ⟨gone, true⟩ :=
    reachable.supervised.step _ _ (.exits t [] .nothing)
  have closed := exited.step _ _ (.closes gone drained.waiting empty)
  obtain ⟨_, _, sameWritten, _, samePrinted⟩ := scan_frame squareReader (gone.closed squareReader)
  have last := closed.step _ _ (.survives _ _ (.works _ _ (.scan _ rfl)) samePrinted)
  obtain ⟨requests, oracle, printed, undelivered, shadow⟩ := shadow_of_exit reachable .nothing
  obtain ⟨ended, _⟩ := shadow.closes squareReader_runsOver Utf8.wellFormed_prompt drained.waiting
    empty
  exact ⟨_, last, ended, sameWritten.trans written⟩

theorem supervised_replies_squares : ∃ c : Supervised Bytes (Machine Box),
    c.system.written = [groupRequest, userRequest] ∧ c.exited = true ∧
      Told squareReader (squareWorld 6) (squares 6) c.system ∧ Counted c.system := by
  obtain ⟨c, reachable, ended, written⟩ := squareReader_exits
  obtain ⟨told, counted⟩ :=
    supervised_replies squareReader_runsOver Utf8.wellFormed_prompt reachable
  exact ⟨c, written, (counted ended).1, told, (counted ended).2⟩

end WatershedOracle.TelegramBot
