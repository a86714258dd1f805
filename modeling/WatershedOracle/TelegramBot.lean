import WatershedOracle.LineIterator
import WatershedOracle.Main

set_option autoImplicit false

/-! The Telegram bot of main.js: location messages of many chats, one oracle process
behind two pipes, and the loop over its answer lines. Callbacks run to completion, so
that each step below is one callback, one round of the line iterator, one answer of the
oracle or one chunk of its output. -/

namespace WatershedOracle.TelegramBot

/-- The chat and the location of a message. A message is JSON, whose numbers are finite. -/
structure Request where
  chat : Int
  longitude : F64
  latitude : F64
  finite : longitude.isFinite ∧ latitude.isFinite
  deriving DecidableEq

/-- A chat id that a JavaScript number holds exactly. -/
def Request.Safe (request : Request) : Prop := request.chat.natAbs < 2 ^ 53

/-- What main.js reads of a parsed answer. -/
structure Stack where
  requestId : Int
  pointNotInDataset : Bool
  name : Level → Option Text

/-- A call of bot.sendMessage that answers a location. -/
structure Reply where
  chat : Int
  text : Text
  markdown : Bool

/-- What the bot runs on and talks to. -/
structure Platform (σ ω : Type) where
  textDecoder : Utf8.StreamDecoder σ
  /-- JSON.stringify of a number that is no chat id. -/
  numberText : F64 → Bytes
  /-- JSON.parse; `none` when it throws. -/
  jsonParse : Text → Option Stack
  /-- The oracle process at its start, and what it does with a request line. -/
  oracle : ω
  answer : ω → Bytes → ω × Bytes

/-- JSON.stringify({ requestId, longitude, latitude }). -/
def requestLine (numberText : F64 → Bytes) (request : Request) : Bytes :=
  Zig.ascii "\x7b\"requestId\":" ++ Zig.Json.intText request.chat ++
    Zig.ascii ",\"longitude\":" ++ numberText request.longitude ++
    Zig.ascii ",\"latitude\":" ++ numberText request.latitude ++ Zig.ascii "\x7d"

/-- `Level  2: `, the number filled up to two characters. -/
def levelLabel (level : Level) : Text :=
  let number := Nat.toDigits 10 level.digits
  "Level ".toList ++ List.replicate (2 - number.length) ' ' ++ number ++ ": ".toList

def replyTo (stack : Stack) : Reply :=
  if stack.pointNotInDataset then
    ⟨stack.requestId, "Your point is outside the dataset".toList ++
      " and does not have watershed data available.".toList, false⟩
  else
    let line (level : Level) : Text :=
      match stack.name level with
      | some name => levelLabel level ++ name
      | none => []
    ⟨stack.requestId, "Your point is in the following watersheds:\n```\n".toList ++
      Level.all.flatMap (fun level => line level ++ ['\n']) ++ "```".toList, true⟩

/-! ### States and steps -/

/-- Where the `for await` loop stands: at a read, between two rounds, or at its end. -/
inductive Mode
  | reading | scanning | ended
  deriving DecidableEq

/-- `located`, `written`, `printed` and `parsed` only record what happened. -/
structure System (σ ω : Type) where
  /-- The locations received. -/
  located : List Request := []
  /-- Those whose acknowledgement has not been delivered yet. -/
  unacknowledged : List Request := []
  /-- The requests written to the process. -/
  written : List Request := []
  requestPipe : Bytes := []
  oracle : ω
  /-- What the process wrote for each request. -/
  printed : List Bytes := []
  answerPipe : Bytes := []
  iterator : LineIterator σ
  mode : Mode := .reading
  /-- The lines given to JSON.parse. -/
  parsed : List Text := []
  replies : List Reply := []

section Steps

variable {σ ω : Type}

/-- The bot before its first message, waiting for the first chunk. -/
def System.init (P : Platform σ ω) : System σ ω where
  oracle := P.oracle
  iterator := .init P.textDecoder

/-- The body of the `for await` loop. -/
def System.handle (P : Platform σ ω) (s : System σ ω) (line : Text) : System σ ω :=
  match P.jsonParse line with
  | some stack => { s with parsed := s.parsed ++ [line], replies := s.replies ++ [replyTo stack] }
  | none => { s with parsed := s.parsed ++ [line], mode := .ended }

/-- One round of the line iterator, and the loop body for what it yields. -/
def System.scan (P : Platform σ ω) (s : System σ ω) : System σ ω :=
  match s.iterator.round 1 with
  | (it, .read) => { s with iterator := it, mode := .reading }
  | (it, .again) => { s with iterator := it }
  | (it, .yield line) => { s with iterator := it }.handle P line
  | (it, .finish none) => { s with iterator := it, mode := .ended }
  | (it, .finish (some line)) => { { s with iterator := it }.handle P line with mode := .ended }

/-- The steps that need no user: an answer of the oracle, a chunk of its output cut
anywhere, a round of the iterator. -/
inductive Works (P : Platform σ ω) : System σ ω → System σ ω → Prop
  | answer (s : System σ ω) (line rest : Bytes) (pipe : s.requestPipe = line ++ Nmea.lineFeed :: rest)
      (whole : Nmea.lineFeed ∉ line) :
      Works P s { s with
        requestPipe := rest
        oracle := (P.answer s.oracle line).1
        printed := s.printed ++ [(P.answer s.oracle line).2]
        answerPipe := s.answerPipe ++ (P.answer s.oracle line).2 }
  | deliver (s : System σ ω) (chunk rest : Bytes) (waiting : s.mode = .reading)
      (pipe : s.answerPipe = chunk ++ rest) :
      Works P s { s with
        answerPipe := rest
        iterator := s.iterator.receive P.textDecoder (.value chunk)
        mode := .scanning }
  | scan (s : System σ ω) (awake : s.mode = .scanning) : Works P s (s.scan P)

inductive Step (P : Platform σ ω) : System σ ω → System σ ω → Prop
  /-- A location message: its acknowledgement is sent and not yet delivered. -/
  | location (s : System σ ω) (request : Request) (safe : request.Safe) :
      Step P s { s with
        located := s.located ++ [request]
        unacknowledged := s.unacknowledged ++ [request] }
  /-- Any acknowledgement may be the next to arrive; its callback writes the request. -/
  | acknowledged (s : System σ ω) (before after : List Request) (request : Request)
      (pending : s.unacknowledged = before ++ request :: after) :
      Step P s { s with
        unacknowledged := before ++ after
        written := s.written ++ [request]
        requestPipe := s.requestPipe ++ requestLine P.numberText request ++ [Nmea.lineFeed] }
  | works (s t : System σ ω) (works : Works P s t) : Step P s t

/-- The states that a run from the start can reach. -/
inductive Reachable (P : Platform σ ω) : System σ ω → Prop
  | init : Reachable P (.init P)
  | step (s t : System σ ω) (earlier : Reachable P s) (step : Step P s t) : Reachable P t

/-- Nothing is left in the pipes, and the loop waits for the next chunk. -/
structure System.Drained (s : System σ ω) : Prop where
  requests : s.requestPipe = []
  answers : s.answerPipe = []
  waiting : s.mode = .reading

end Steps

end WatershedOracle.TelegramBot
