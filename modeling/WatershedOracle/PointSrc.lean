import WatershedOracle.Library.Lines
import WatershedOracle.Library.ZigJson
import WatershedOracle.Nmea
import WatershedOracle.WatershedStack

set_option autoImplicit false

/-! The point sources stdin.zig and gpsMock.zig. Both read the standard input line by
line; what stands after its last line feed can never be read. -/

namespace WatershedOracle

/-- The lines that streamUntilDelimiter delivers before it reports the end of the stream. -/
def terminatedLines (input : Bytes) : List Bytes := (input.splitOn Nmea.lineFeed).dropLast

/-- The standard input that delivers the given lines. -/
def terminated (lines : List Bytes) : Bytes := Lines.unlines Nmea.lineFeed lines

theorem terminatedLines_append (lines : List Bytes) {tail : Bytes}
    (whole : ∀ line ∈ lines, Nmea.lineFeed ∉ line) (unfinished : Nmea.lineFeed ∉ tail) :
    terminatedLines (terminated lines ++ tail) = lines := by
  rw [terminatedLines, terminated, Lines.splitOn_unlines lines whole unfinished,
    List.dropLast_concat]

theorem terminatedLines_terminated (lines : List Bytes)
    (whole : ∀ line ∈ lines, Nmea.lineFeed ∉ line) : terminatedLines (terminated lines) = lines := by
  simpa using terminatedLines_append lines whole List.not_mem_nil

/-! ### A request as JSON -/

structure PointJson where
  requestId : Int := 0
  longitude : F64
  latitude : F64
  deriving DecidableEq

inductive PointField
  | requestId | longitude | latitude
  deriving DecidableEq, Repr

def PointField.ofName (name : Bytes) : Option PointField :=
  if name = Zig.ascii "requestId" then some .requestId
  else if name = Zig.ascii "longitude" then some .longitude
  else if name = Zig.ascii "latitude" then some .latitude
  else none

/-- The fields that std.json has filled in so far. -/
structure PointFields where
  requestId : Option Int := none
  longitude : Option F64 := none
  latitude : Option F64 := none

def PointFields.seen (fields : PointFields) : PointField → Bool
  | .requestId => fields.requestId.isSome
  | .longitude => fields.longitude.isSome
  | .latitude => fields.latitude.isSome

def ofParseError : Zig.ParseError → ZigError
  | .InvalidCharacter => .InvalidCharacter
  | .Overflow => .Overflow

def ofScanError : Zig.Json.ScanError → ZigError
  | .SyntaxError => .SyntaxError
  | .UnexpectedEndOfInput => .UnexpectedEndOfInput
  | .UnexpectedToken => .UnexpectedToken

def inI64 (n : Int) : Except ZigError Int :=
  if Zig.i64.Has n then .ok n else .error .Overflow

/-- A float literal that must be a whole number. std.json reads it as an f128 first, whose
rounding is left out: what rounds to a whole number there, as 1e-5000 does to zero, is not
one here. -/
def literalToInt : Zig.FloatLiteral → Except ZigError Int
  | .nan => .error .InvalidNumber
  | .inf _ => .error .Overflow
  | .number negative mantissa radix exponent =>
      let sign : Int := if negative then -1 else 1
      if mantissa = 0 then .ok 0
      else if 0 ≤ exponent then
        -- Already the power alone is out of range.
        if 128 < exponent then .error .Overflow
        else inI64 (sign * (mantissa * radix ^ exponent.toNat : Nat))
      else
        let scale := (-exponent).toNat
        -- A power of the radix larger than the mantissa does not divide it.
        if Nat.log2 mantissa < scale then .error .InvalidNumber
        else if mantissa % radix ^ scale ≠ 0 then .error .InvalidNumber
        else inI64 (sign * (mantissa / radix ^ scale : Nat))

/-- No fraction and no exponent; the negative zero is left to the floats. -/
def isNumberFormattedLikeAnInteger (value : Bytes) : Bool :=
  decide (value ≠ Zig.ascii "-0") && value.all fun c => decide (c ∉ Zig.ascii ".eE")

/-- std.json's sliceToInt: an integer, or a float that is one. -/
def sliceToInt (slice : Bytes) : Except ZigError Int :=
  if isNumberFormattedLikeAnInteger slice then
    (Zig.parseInt Zig.i64 slice 10).mapError ofParseError
  else do
    let literal ← (Zig.parseFloat slice).mapError ofParseError
    literalToInt literal

def PointFields.set (fields : PointFields) (field : PointField) (slice : Bytes) :
    Except ZigError PointFields :=
  match field with
  | .requestId => do
      let n ← sliceToInt slice
      pure { fields with requestId := some n }
  | .longitude => do
      let literal ← (Zig.parseFloat slice).mapError ofParseError
      pure { fields with longitude := some (F64.ofLiteral .f64 literal) }
  | .latitude => do
      let literal ← (Zig.parseFloat slice).mapError ofParseError
      pure { fields with latitude := some (F64.ofLiteral .f64 literal) }

/-- One member: its name, a colon, and a number or a string. -/
def parseMember (fields : PointFields) (s : Bytes) : Except ZigError (PointFields × Bytes) :=
  match Zig.Json.skipWhitespace s with
  | [] => .error .UnexpectedEndOfInput
  | 34 :: rest => do
      let (name, rest) ← (Zig.Json.stringToken rest).mapError ofScanError
      match PointField.ofName name with
      | none => throw .UnknownField
      | some field =>
          if fields.seen field then throw .DuplicateField
          else
            let rest ← (Zig.Json.expect 58 rest).mapError ofScanError
            let (slice, rest) ←
              (Zig.Json.scalarToken (Zig.Json.skipWhitespace rest)).mapError ofScanError
            let fields ← fields.set field slice
            pure (fields, rest)
  | _ => .error .SyntaxError

/-- The members up to the closing brace. Each one accepted fills another of the three
fields, so that the fourth is a duplicate or unknown and the counter never ends the loop. -/
def parseMembers (left : Nat) (fields : PointFields) (s : Bytes) :
    Except ZigError (PointFields × Bytes) := do
  let (fields, rest) ← parseMember fields s
  match Zig.Json.skipWhitespace rest with
  | [] => throw .UnexpectedEndOfInput
  | 44 :: rest =>
      match left with
      | 0 => throw .DuplicateField
      | left + 1 => parseMembers left fields rest
  | 125 :: rest => pure (fields, rest)
  | _ => throw .SyntaxError

def PointFields.fill (fields : PointFields) : Except ZigError PointJson :=
  match fields.longitude, fields.latitude with
  | some longitude, some latitude => .ok ⟨fields.requestId.getD 0, longitude, latitude⟩
  | _, _ => .error .MissingField

/-- std.json.parseFromSlice(PointJson, ...) with the default options. -/
def parsePointJson (slice : Bytes) : Except ZigError PointJson :=
  match Zig.Json.skipWhitespace slice with
  | [] => .error .UnexpectedEndOfInput
  | 123 :: rest => do
      let (fields, rest) ←
        match Zig.Json.skipWhitespace rest with
        | 125 :: rest => pure ({}, rest)
        | _ => parseMembers 3 {} rest
      let point ← fields.fill
      if Zig.Json.skipWhitespace rest = [] then pure point else throw .SyntaxError
  | other => do
      let _ ← (Zig.Json.scalarToken other).mapError ofScanError
      throw .UnexpectedToken

/-- The fields may come in any order, and requestId may be missing. -/
example : parsePointJson (Zig.ascii "\x7b \"latitude\": 4.5e1, \"longitude\":-70 \x7d") =
    .ok ⟨0, .finite (-70), .finite 45⟩ := by decide +kernel

/-! ### The sources -/

inductive PointProvider
  | stdin | gpsMock
  deriving DecidableEq, Repr

/-- stdin.zig. A WKT line is handed on as a C string, which ends at its first zero byte. -/
def stdinNextPoint (json : Bool) : List Bytes → Except Fault (Point × List Bytes)
  | [] => .error (.error .NoMorePoints)
  | line :: rest =>
      if json then
        match parsePointJson line with
        | .ok point => .ok (⟨point.requestId, .xy point.longitude point.latitude⟩, rest)
        | .error e => .error (.error e)
      else .ok (⟨0, .wkt (line.takeWhile (· ≠ 0))⟩, rest)

/-- gpsMock.zig, without a screen to show the satellites on: sentences without a
position are passed over. -/
def gpsMockNextPoint : List Bytes → Except Fault (Point × List Bytes)
  | [] => .error (.error .NoMorePoints)
  | line :: rest =>
      match Nmea.parse line with
      | .error fault => .error fault
      | .ok sentence =>
          match Nmea.extractPoint sentence with
          | some (x, y) => .ok (⟨0, .xy x y⟩, rest)
          | none => gpsMockNextPoint rest

def nextPoint (provider : PointProvider) (json : Bool) (lines : List Bytes) :
    Except Fault (Point × List Bytes) :=
  match provider with
  | .stdin => stdinNextPoint json lines
  | .gpsMock => gpsMockNextPoint lines

theorem stdinNextPoint_shorter {json : Bool} {lines rest : List Bytes} {point : Point}
    (next : stdinNextPoint json lines = .ok (point, rest)) : rest.length < lines.length := by
  cases lines with
  | nil => cases next
  | cons line others =>
    simp only [stdinNextPoint] at next
    cases json with
    | false =>
      cases next
      exact Nat.lt_succ_self _
    | true =>
      cases parsed : parsePointJson line with
      | error e => simp [parsed] at next
      | ok point =>
        simp only [parsed, ↓reduceIte, Except.ok.injEq, Prod.mk.injEq] at next
        rw [← next.2]
        exact Nat.lt_succ_self _

theorem gpsMockNextPoint_shorter {lines rest : List Bytes} {point : Point}
    (next : gpsMockNextPoint lines = .ok (point, rest)) : rest.length < lines.length := by
  induction lines with
  | nil => cases next
  | cons line others ih =>
    unfold gpsMockNextPoint at next
    split at next
    · cases next
    · split at next
      · cases next
        exact Nat.lt_succ_self _
      · exact Nat.lt_succ_of_lt (ih next)

/-- Every point costs at least one line. -/
theorem nextPoint_shorter {provider : PointProvider} {json : Bool} {lines rest : List Bytes}
    {point : Point} (next : nextPoint provider json lines = .ok (point, rest)) :
    rest.length < lines.length := by
  cases provider with
  | stdin => exact stdinNextPoint_shorter next
  | gpsMock => exact gpsMockNextPoint_shorter next

end WatershedOracle
