import Mathlib.Data.List.Forall2
import Mathlib.Logic.Relation
import WatershedOracle.TelegramBot

set_option autoImplicit false

/-! The bot and the oracle together: whatever the interleaving of messages, answers and
chunks, the lines that JSON.parse receives are the lines that were printed, and each
reply goes to the chat whose location was asked. -/

namespace WatershedOracle.TelegramBot

variable {σ ω : Type}

/-- The bytes of an answer line. -/
def lineBytes (line : Text) : Bytes := Utf8.encode (line ++ ['\n'])

/-- The line answers the request: it is one line and carries the id of the request. -/
structure Echoed (P : Platform σ ω) (request : Request) (line : Text) : Prop where
  isLine : IsLine line
  unmarked : Utf8.Unmarked line
  echo : ∃ stack, P.jsonParse line = some stack ∧ stack.requestId = request.chat

/-- The reply is the one to the answer that JSON.parse reads in the line. -/
def RepliedWith (P : Platform σ ω) (line : Text) (reply : Reply) : Prop :=
  ∃ stack, P.jsonParse line = some stack ∧ reply = replyTo stack

/-- The oracle, in states `Good`, writes one answer line for each request line. -/
structure Answering (P : Platform σ ω) (Good : ω → Prop) : Prop where
  start : Good P.oracle
  next : ∀ o request, Good o → request.Safe →
    Good (P.answer o (requestLine P.numberText request)).1 ∧
      ∃ line, Echoed P request line ∧
        (P.answer o (requestLine P.numberText request)).2 = lineBytes line

/-- The state in terms of its requests, in the order in which they were written: those
replied to, those answered and not yet parsed, those still in the request pipe. -/
structure Coherent (P : Platform σ ω) (Good : ω → Prop) (s : System σ ω)
    (replied answered pending : List Request) (unread : List Text) (chunks : List Bytes) :
    Prop where
  good : Good s.oracle
  safe : ∀ request ∈ s.located, request.Safe
  located : s.located.Perm (s.written ++ s.unacknowledged)
  written : s.written = replied ++ answered ++ pending
  requests : s.requestPipe = terminated (pending.map (requestLine P.numberText))
  echoed : List.Forall₂ (Echoed P) replied s.parsed
  unechoed : List.Forall₂ (Echoed P) answered unread
  printed : s.printed = (s.parsed ++ unread).map lineBytes
  stream : chunks.flatten ++ s.answerPipe = Utf8.encode (joined (s.parsed ++ unread))
  decoder : s.iterator.utf8Decoder = P.textDecoder.state chunks
  decoded : P.textDecoder.text chunks = joined s.parsed ++ s.iterator.remainder
  fresh : s.iterator.linesRead = 0
  waiting : s.mode = .reading → IsLine s.iterator.remainder
  awake : s.mode = .scanning → s.iterator.Ready
  running : s.mode ≠ .ended
  own : List.Forall₂ (RepliedWith P) s.parsed s.replies

theorem lineFeed_notMem_requestLine {numberText : F64 → Bytes}
    (numbers : ∀ x, x.isFinite → Nmea.lineFeed ∉ numberText x) (request : Request) :
    Nmea.lineFeed ∉ requestLine numberText request := by
  have fixed : Nmea.lineFeed ∉ Zig.ascii "\x7b\"requestId\":" ∧
      Nmea.lineFeed ∉ Zig.ascii ",\"longitude\":" ∧ Nmea.lineFeed ∉ Zig.ascii ",\"latitude\":" ∧
      Nmea.lineFeed ∉ Zig.ascii "\x7d" := by decide
  have id : Nmea.lineFeed ∉ Zig.Json.intText request.chat := fun member =>
    absurd (Zig.Json.intText_printable _ _ member) (by decide)
  obtain ⟨first, second, third, last⟩ := fixed
  simp only [requestLine, List.mem_append, not_or]
  exact ⟨⟨⟨⟨⟨⟨first, id⟩, second⟩, numbers _ request.finite.1⟩, third⟩,
    numbers _ request.finite.2⟩, last⟩

section Steps

variable {P : Platform σ ω} {Good : ω → Prop} {s : System σ ω}
variable {replied answered pending : List Request} {unread : List Text} {chunks : List Bytes}

theorem coherent_init (answering : Answering P Good) :
    Coherent P Good (.init P) [] [] [] [] [] where
  good := answering.start
  safe := by simp [System.init]
  located := by simp [System.init]
  written := rfl
  requests := rfl
  echoed := .nil
  unechoed := .nil
  printed := rfl
  stream := rfl
  decoder := rfl
  decoded := rfl
  fresh := rfl
  waiting _ := by simp [System.init, LineIterator.init_remainder, IsLine]
  awake scanning := by cases scanning
  running := by simp [System.init]
  own := .nil

theorem Coherent.location (coherent : Coherent P Good s replied answered pending unread chunks)
    {request : Request} (safe : request.Safe) :
    Coherent P Good { s with
        located := s.located ++ [request]
        unacknowledged := s.unacknowledged ++ [request] } replied answered pending unread chunks :=
  { coherent with
    safe := by
      intro other member
      rcases List.mem_append.mp member with old | new
      · exact coherent.safe other old
      · exact List.mem_singleton.mp new ▸ safe
    located := by
      rw [← List.append_assoc]
      exact coherent.located.append_right [request] }

theorem Coherent.acknowledged
    (coherent : Coherent P Good s replied answered pending unread chunks)
    {before after : List Request} {request : Request}
    (waits : s.unacknowledged = before ++ request :: after) :
    Coherent P Good { s with
        unacknowledged := before ++ after
        written := s.written ++ [request]
        requestPipe := s.requestPipe ++ requestLine P.numberText request ++ [Nmea.lineFeed] }
      replied answered (pending ++ [request]) unread chunks :=
  { coherent with
    located := by
      have moved : (before ++ request :: after).Perm (request :: (before ++ after)) :=
        List.perm_middle
      have all := coherent.located
      rw [waits] at all
      apply all.trans
      rw [List.append_assoc, List.singleton_append]
      exact moved.append_left s.written
    written := by
      simp only [coherent.written, List.append_assoc]
    requests := by
      simp only [coherent.requests, terminated, List.map_append, List.map_cons, List.map_nil,
        Lines.unlines_concat, List.append_assoc] }

/-- The request at the front of the pipe is answered with one line. -/
theorem Coherent.answer (coherent : Coherent P Good s replied answered pending unread chunks)
    (answering : Answering P Good) (numbers : ∀ x, x.isFinite → Nmea.lineFeed ∉ P.numberText x)
    {line rest : Bytes} (pipe : s.requestPipe = line ++ Nmea.lineFeed :: rest)
    (whole : Nmea.lineFeed ∉ line) :
    ∃ request later newest, pending = request :: later ∧
      Coherent P Good { s with
          requestPipe := rest
          oracle := (P.answer s.oracle line).1
          printed := s.printed ++ [(P.answer s.oracle line).2]
          answerPipe := s.answerPipe ++ (P.answer s.oracle line).2 }
        replied (answered ++ [request]) later (unread ++ [newest]) chunks := by
  have piped := coherent.requests.symm.trans pipe
  cases pending with
  | nil => simp [terminated] at piped
  | cons request later =>
    rw [terminated, List.map_cons, Lines.unlines_cons] at piped
    obtain ⟨rfl, left⟩ := Lines.first_unique (lineFeed_notMem_requestLine numbers request) whole
      piped
    have member : request ∈ s.located := by
      refine coherent.located.mem_iff.mpr (List.mem_append_left _ ?_)
      simp [coherent.written]
    obtain ⟨good, newest, echoed, bytes⟩ :=
      answering.next s.oracle request coherent.good (coherent.safe request member)
    refine ⟨request, later, newest, rfl, { coherent with
      good := good
      written := by simp only [coherent.written, List.append_assoc, List.singleton_append]
      requests := left.symm
      unechoed := List.rel_append coherent.unechoed (.cons echoed .nil)
      printed := ?_
      stream := ?_ }⟩
    · simp only [coherent.printed, bytes, List.map_append, List.append_assoc, List.map_cons,
        List.map_nil]
    · dsimp only
      rw [← List.append_assoc, coherent.stream, bytes, lineBytes, ← Utf8.encode_append, joined,
        joined, ← List.append_assoc s.parsed, Lines.unlines_concat]

/-- A chunk wakes the loop, wherever it was cut. -/
theorem Coherent.deliver (coherent : Coherent P Good s replied answered pending unread chunks)
    {chunk rest : Bytes} (pipe : s.answerPipe = chunk ++ rest) :
    Coherent P Good { s with
        answerPipe := rest
        iterator := s.iterator.receive P.textDecoder (.value chunk)
        mode := .scanning }
      replied answered pending unread (chunks ++ [chunk]) := by
  obtain ⟨ready, remainder⟩ := LineIterator.receive_value P.textDecoder coherent.fresh chunk
  exact { coherent with
    stream := by
      rw [List.flatten_append, ← coherent.stream, pipe]
      simp
    decoder := by
      rw [Utf8.StreamDecoder.state_concat, ← coherent.decoder]
      rfl
    decoded := by
      rw [Utf8.StreamDecoder.text_concat, remainder, coherent.decoded, coherent.decoder,
        List.append_assoc]
    fresh := ready.fresh
    waiting := nofun
    awake := fun _ => ready
    running := nofun }

theorem exists_echoed {requests : List Request} {lines : List Text}
    (echoed : List.Forall₂ (Echoed P) requests lines) :
    ∀ line ∈ lines, ∃ request, Echoed P request line := by
  induction echoed with
  | nil => simp
  | cons first rest ih => exact List.forall_mem_cons.mpr ⟨⟨_, first⟩, ih⟩

/-- Every line printed answers a request. -/
theorem Coherent.answers (coherent : Coherent P Good s replied answered pending unread chunks) :
    ∀ line ∈ s.parsed ++ unread, ∃ request, Echoed P request line := by
  intro line member
  rcases List.mem_append.mp member with old | new
  · exact exists_echoed coherent.echoed line old
  · exact exists_echoed coherent.unechoed line new

theorem Coherent.lines (coherent : Coherent P Good s replied answered pending unread chunks) :
    ∀ line ∈ s.parsed ++ unread, IsLine line := by
  intro line member
  obtain ⟨_, echoed⟩ := coherent.answers line member
  exact echoed.isLine

theorem unmarked_joined {lines : List Text} (each : ∀ line ∈ lines, Utf8.Unmarked line) :
    Utf8.Unmarked (joined lines) := by
  cases lines with
  | nil => simp [Utf8.Unmarked, joined]
  | cons line rest =>
    have first := each line List.mem_cons_self
    cases line with
    | nil => simp [Utf8.Unmarked, joined, Lines.unlines_cons]
    | cons c line => simpa [Utf8.Unmarked, joined, Lines.unlines_cons] using first

theorem Coherent.unmarked (coherent : Coherent P Good s replied answered pending unread chunks) :
    Utf8.Unmarked (joined (s.parsed ++ unread)) := by
  apply unmarked_joined
  intro line member
  obtain ⟨_, echoed⟩ := coherent.answers line member
  exact echoed.unmarked

/-- What the loop holds is a beginning of the lines it has not parsed. -/
theorem Coherent.remainder_prefix
    (coherent : Coherent P Good s replied answered pending unread chunks)
    (decodes : P.textDecoder.Correct) : s.iterator.remainder <+: joined unread := by
  have begins := decodes.text_prefix coherent.unmarked coherent.stream
  rw [coherent.decoded, joined, joined, Lines.unlines_append] at begins
  exact (List.prefix_append_right_inj _).mp begins

theorem return_notMem_joined {lines : List Text} (each : ∀ line ∈ lines, IsLine line) :
    '\r' ∉ joined lines := by
  intro member
  obtain ⟨line, listed, inside⟩ := List.mem_flatMap.mp member
  rcases List.mem_append.mp inside with own | newline
  · exact (each line listed).2 own
  · exact absurd newline (by decide)

@[simp] theorem replyTo_chat (stack : Stack) : (replyTo stack).chat = stack.requestId := by
  unfold replyTo
  split <;> rfl

/-- The replies go to the chats of the requests whose answers were parsed. -/
theorem Coherent.chats (coherent : Coherent P Good s replied answered pending unread chunks) :
    s.replies.map Reply.chat = replied.map Request.chat := by
  have both : ∀ {requests : List Request} {lines : List Text} {replies : List Reply},
      List.Forall₂ (Echoed P) requests lines → List.Forall₂ (RepliedWith P) lines replies →
        replies.map Reply.chat = requests.map Request.chat := by
    intro requests lines replies echoed own
    induction echoed generalizing replies with
    | nil =>
      cases own
      rfl
    | cons first rest ih =>
      cases own with
      | cons replied others =>
        obtain ⟨stack, parses, id⟩ := first.echo
        obtain ⟨other, parses', rfl⟩ := replied
        obtain rfl := Option.some.inj (parses.symm.trans parses')
        rw [List.map_cons, List.map_cons, ih others, replyTo_chat, id]
  exact both coherent.echoed coherent.own

theorem Coherent.noReturn (coherent : Coherent P Good s replied answered pending unread chunks)
    (decodes : P.textDecoder.Correct) : '\r' ∉ s.iterator.remainder := by
  have ahead : ∀ line ∈ unread, IsLine line := fun line member =>
    coherent.lines line (List.mem_append_right _ member)
  intro member
  exact return_notMem_joined ahead ((coherent.remainder_prefix decodes).subset member)

/-- Where a line has come whole, the loop parses it and stays awake. -/
theorem Coherent.scan_line (coherent : Coherent P Good s replied answered pending unread chunks)
    (decodes : P.textDecoder.Correct) (awake : s.mode = .scanning)
    (lineFeed : '\n' ∈ s.iterator.remainder) :
    ∃ request later line more, answered = request :: later ∧ unread = line :: more ∧
      Coherent P Good (s.scan P) (replied ++ [request]) later pending more chunks ∧
      (s.scan P).mode = .scanning := by
  obtain ⟨line, rest, whole, isLine⟩ := exists_first_line (coherent.noReturn decodes) lineFeed
  obtain ⟨it', rounded, ready', left, same⟩ :=
    LineIterator.round_line (coherent.awake awake) isLine whole
  have begins : Lines.unlines '\n' [line] ++ rest <+: Lines.unlines '\n' unread := by
    rw [Lines.unlines_cons, Lines.unlines_nil, List.append_assoc]
    exact whole ▸ coherent.remainder_prefix decodes
  have next : [line] <+: unread := by
    apply Lines.prefix_of_unlines (by simpa using isLine.1) _ begins
    intro line member
    exact (coherent.lines line (List.mem_append_right _ member)).1
  obtain ⟨more, rfl⟩ := next
  obtain ⟨request, later, echoed, unechoed, rfl⟩ :=
    List.forall₂_cons_right_iff.mp coherent.unechoed
  obtain ⟨stack, parses, _⟩ := echoed.echo
  have scanned : s.scan P = { s with
      iterator := it', parsed := s.parsed ++ [line], replies := s.replies ++ [replyTo stack] } := by
    simp only [System.scan, rounded, System.handle, parses]
  rw [scanned]
  refine ⟨request, later, line, more, rfl, rfl, ?_, awake⟩
  exact { coherent with
    written := by rw [coherent.written]; simp
    echoed := List.rel_append coherent.echoed (.cons echoed .nil)
    unechoed := unechoed
    printed := by rw [coherent.printed]; simp
    stream := by rw [coherent.stream]; simp
    decoder := same.trans coherent.decoder
    decoded := by
      rw [coherent.decoded, whole, left, joined, joined, Lines.unlines_concat]
      simp
    fresh := ready'.fresh
    waiting := fun reading => by rw [awake] at reading; cases reading
    awake := fun _ => ready'
    own := List.rel_append coherent.own (.cons ⟨stack, parses, rfl⟩ .nil) }

/-- Where only a part of a line has come, the loop keeps it and waits. -/
theorem Coherent.scan_read (coherent : Coherent P Good s replied answered pending unread chunks)
    (decodes : P.textDecoder.Correct) (awake : s.mode = .scanning)
    (lineFeed : '\n' ∉ s.iterator.remainder) :
    Coherent P Good (s.scan P) replied answered pending unread chunks ∧
      (s.scan P).mode = .reading := by
  have isLine : IsLine s.iterator.remainder := ⟨lineFeed, coherent.noReturn decodes⟩
  obtain ⟨it', rounded, kept, fresh, same⟩ :=
    LineIterator.round_read (coherent.awake awake) isLine
  have scanned : s.scan P = { s with iterator := it', mode := .reading } := by
    simp only [System.scan, rounded]
  rw [scanned]
  exact ⟨{ coherent with
    decoder := same.trans coherent.decoder
    decoded := by rw [coherent.decoded, kept]
    fresh := fresh
    waiting := fun _ => kept ▸ isLine
    awake := nofun
    running := nofun }, rfl⟩

/-- A round parses the next line that was printed, or finds that it has not come yet. -/
theorem Coherent.scan (coherent : Coherent P Good s replied answered pending unread chunks)
    (decodes : P.textDecoder.Correct) (awake : s.mode = .scanning) :
    (∃ request later line more, answered = request :: later ∧ unread = line :: more ∧
      Coherent P Good (s.scan P) (replied ++ [request]) later pending more chunks ∧
      (s.scan P).mode = .scanning) ∨
    Coherent P Good (s.scan P) replied answered pending unread chunks ∧
      (s.scan P).mode = .reading := by
  by_cases lineFeed : '\n' ∈ s.iterator.remainder
  · exact .inl (coherent.scan_line decodes awake lineFeed)
  · exact .inr (coherent.scan_read decodes awake lineFeed)

theorem scan_frame (P : Platform σ ω) (s : System σ ω) :
    (s.scan P).requestPipe = s.requestPipe ∧ (s.scan P).answerPipe = s.answerPipe ∧
      (s.scan P).written = s.written ∧ (s.scan P).oracle = s.oracle ∧
      (s.scan P).printed = s.printed := by
  have handled : ∀ (t : System σ ω) (line : Text), (t.handle P line).requestPipe = t.requestPipe ∧
      (t.handle P line).answerPipe = t.answerPipe ∧ (t.handle P line).written = t.written ∧
      (t.handle P line).oracle = t.oracle ∧ (t.handle P line).printed = t.printed := by
    intro t line
    unfold System.handle
    split <;> exact ⟨rfl, rfl, rfl, rfl, rfl⟩
  unfold System.scan
  split
  · exact ⟨rfl, rfl, rfl, rfl, rfl⟩
  · exact ⟨rfl, rfl, rfl, rfl, rfl⟩
  · exact handled _ _
  · exact ⟨rfl, rfl, rfl, rfl, rfl⟩
  · exact handled _ _

end Steps

/-! ### Runs -/

section Runs

variable {P : Platform σ ω} {Good : ω → Prop} {s : System σ ω}

theorem Reachable.coherent (answering : Answering P Good) (decodes : P.textDecoder.Correct)
    (numbers : ∀ x, x.isFinite → Nmea.lineFeed ∉ P.numberText x) (reachable : Reachable P s) :
    ∃ replied answered pending unread chunks,
      Coherent P Good s replied answered pending unread chunks := by
  induction reachable with
  | init => exact ⟨[], [], [], [], [], coherent_init answering⟩
  | step s t earlier step ih =>
    obtain ⟨replied, answered, pending, unread, chunks, coherent⟩ := ih
    cases step with
    | location request safe => exact ⟨_, _, _, _, _, coherent.location safe⟩
    | acknowledged before after request waits => exact ⟨_, _, _, _, _, coherent.acknowledged waits⟩
    | works _ works =>
      cases works with
      | answer line rest pipe whole =>
        obtain ⟨_, _, _, _, next⟩ := coherent.answer answering numbers pipe whole
        exact ⟨_, _, _, _, _, next⟩
      | deliver chunk rest waiting pipe => exact ⟨_, _, _, _, _, coherent.deliver pipe⟩
      | scan awake =>
        rcases coherent.scan decodes awake with ⟨_, _, _, _, _, _, next, _⟩ | ⟨next, _⟩
        · exact ⟨_, _, _, _, _, next⟩
        · exact ⟨_, _, _, _, _, next⟩

variable {replied answered pending : List Request} {unread : List Text} {chunks : List Bytes}

open Relation (ReflTransGen)

/-- The oracle can answer every request that is in its pipe. -/
theorem Coherent.answer_all (answering : Answering P Good)
    (numbers : ∀ x, x.isFinite → Nmea.lineFeed ∉ P.numberText x)
    (coherent : Coherent P Good s replied answered pending unread chunks) :
    ∃ t answered' unread', ReflTransGen (Works P) s t ∧
      Coherent P Good t replied answered' [] unread' chunks ∧ t.written = s.written := by
  induction pending generalizing s answered unread with
  | nil => exact ⟨s, answered, unread, .refl, coherent, rfl⟩
  | cons request later ih =>
    have pipe : s.requestPipe = requestLine P.numberText request ++
        Nmea.lineFeed :: terminated (later.map (requestLine P.numberText)) := by
      rw [coherent.requests, terminated, List.map_cons, Lines.unlines_cons]
      rfl
    have whole := lineFeed_notMem_requestLine numbers request
    obtain ⟨_, _, newest, same, next⟩ := coherent.answer answering numbers pipe whole
    cases same
    obtain ⟨t, answered', unread', run, final, written⟩ := ih next
    exact ⟨t, answered', unread', .head (.answer s _ _ pipe whole) run, final, written⟩

/-- The loop parses all that it holds and waits again. -/
theorem Coherent.scan_all (decodes : P.textDecoder.Correct)
    (coherent : Coherent P Good s replied answered pending unread chunks)
    (awake : s.mode = .scanning) :
    ∃ t replied' answered' unread', ReflTransGen (Works P) s t ∧
      Coherent P Good t replied' answered' pending unread' chunks ∧ t.mode = .reading ∧
      t.requestPipe = s.requestPipe ∧ t.answerPipe = s.answerPipe ∧ t.written = s.written := by
  induction unread generalizing s replied answered with
  | nil =>
    obtain ⟨requests, answers, written, _⟩ := scan_frame P s
    rcases coherent.scan decodes awake with ⟨_, _, _, _, _, absurd, _⟩ | ⟨next, reading⟩
    · cases absurd
    · exact ⟨_, _, _, _, .single (.scan s awake), next, reading, requests, answers, written⟩
  | cons line more ih =>
    obtain ⟨requests, answers, written, _⟩ := scan_frame P s
    rcases coherent.scan decodes awake with ⟨_, _, _, _, _, same, next, awake'⟩ | ⟨next, reading⟩
    · cases same
      obtain ⟨t, _, _, _, run, final, reading, requests', answers', written'⟩ := ih next awake'
      exact ⟨t, _, _, _, .head (.scan s awake) run, final, reading, requests'.trans requests,
        answers'.trans answers, written'.trans written⟩
    · exact ⟨_, _, _, _, .single (.scan s awake), next, reading, requests, answers, written⟩

/-- Without any further message the pipes can be emptied. -/
theorem Coherent.drains (answering : Answering P Good) (decodes : P.textDecoder.Correct)
    (numbers : ∀ x, x.isFinite → Nmea.lineFeed ∉ P.numberText x)
    (coherent : Coherent P Good s replied answered pending unread chunks) :
    ∃ t, ReflTransGen (Works P) s t ∧ t.Drained ∧ t.written = s.written := by
  obtain ⟨t, _, _, first, coherent, written⟩ := coherent.answer_all answering numbers
  -- The loop finishes the chunk it holds, takes all that is left at once, and finishes that.
  obtain ⟨u, _, _, _, second, coherent, reading, written'⟩ : ∃ u replied answered unread,
      ReflTransGen (Works P) t u ∧ Coherent P Good u replied answered [] unread chunks ∧
      u.mode = .reading ∧ u.written = t.written := by
    cases mode : t.mode with
    | reading => exact ⟨t, _, _, _, .refl, coherent, mode, rfl⟩
    | scanning =>
      obtain ⟨u, _, _, _, run, coherent, reading, _, _, same⟩ := coherent.scan_all decodes mode
      exact ⟨u, _, _, _, run, coherent, reading, same⟩
    | ended => exact absurd mode coherent.running
  have rest : u.answerPipe = u.answerPipe ++ [] := (List.append_nil _).symm
  obtain ⟨v, _, _, _, third, coherent', reading', requests, answers, written''⟩ :=
    (coherent.deliver rest).scan_all decodes rfl
  refine ⟨v, first.trans (second.trans (.head (.deliver u _ _ reading rest) third)), ?_, ?_⟩
  · exact ⟨requests.trans coherent.requests, answers, reading'⟩
  · exact written''.trans (written'.trans written)

/-- Where the pipes are empty, every request has been replied to. -/
theorem Coherent.drained (decodes : P.textDecoder.Correct)
    (coherent : Coherent P Good s replied answered pending unread chunks) (drained : s.Drained) :
    unread = [] ∧ s.written = replied := by
  have asked := coherent.requests.symm.trans drained.requests
  have stream := coherent.stream
  rw [drained.answers, List.append_nil] at stream
  have whole := coherent.decoded.symm.trans (decodes _ _ coherent.unmarked stream)
  have lines := coherent.lines
  have free : ∀ line ∈ s.parsed ++ unread, '\n' ∉ line := fun line member => (lines line member).1
  obtain ⟨same, _⟩ := Lines.eq_of_unlines (fun line member =>
    free line (List.mem_append_left _ member)) free (coherent.waiting drained.waiting).1 whole
  obtain rfl : unread = [] := by simpa using same
  have noPending : pending = [] := by
    cases pending with
    | nil => rfl
    | cons request later => simp [terminated, Lines.unlines_cons] at asked
  have noAnswered : answered = [] := List.forall₂_nil_right_iff.mp coherent.unechoed
  rw [coherent.written, noPending, noAnswered]
  simp

/-- What the users can rely on in a state. -/
structure System.Faithful (P : Platform σ ω) (s : System σ ω) : Prop where
  /-- Each location is written once, when its acknowledgement arrives. -/
  located : s.located.Perm (s.written ++ s.unacknowledged)
  /-- The lines parsed are the first lines printed. -/
  lines : ∃ unread, s.printed = (s.parsed ++ unread).map lineBytes
  /-- Each line parsed has its own reply. -/
  own : List.Forall₂ (RepliedWith P) s.parsed s.replies
  /-- The replies go to the chats of the first requests written. -/
  replies : s.replies.map Reply.chat = (s.written.take s.parsed.length).map Request.chat
  /-- When nothing is under way, nothing is missing. -/
  complete : s.Drained → s.printed = s.parsed.map lineBytes ∧
    s.replies.map Reply.chat = s.written.map Request.chat

theorem Reachable.faithful (answering : Answering P Good) (decodes : P.textDecoder.Correct)
    (numbers : ∀ x, x.isFinite → Nmea.lineFeed ∉ P.numberText x) (reachable : Reachable P s) :
    s.Faithful P ∧ ∃ t, ReflTransGen (Works P) s t ∧ t.Drained ∧ t.written = s.written := by
  obtain ⟨replied, answered, pending, unread, chunks, coherent⟩ :=
    reachable.coherent answering decodes numbers
  refine ⟨⟨coherent.located, ⟨unread, coherent.printed⟩, coherent.own, ?_, ?_⟩,
    coherent.drains answering decodes numbers⟩
  · rw [coherent.chats, ← coherent.echoed.length_eq, coherent.written, List.append_assoc,
      List.take_left]
  · intro drained
    obtain ⟨rfl, written⟩ := coherent.drained decodes drained
    exact ⟨by simpa using coherent.printed, by rw [coherent.chats, written]⟩

end Runs

end WatershedOracle.TelegramBot
