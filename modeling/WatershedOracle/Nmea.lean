import WatershedOracle.Binary64
import WatershedOracle.Externals
import WatershedOracle.Library.Effect
import WatershedOracle.Library.ZigStd

set_option autoImplicit false

/-! The parser of nmea.zig for the sentences of the L96 GNSS module, in the source's
order. An unchecked slice, index or unwrap that Zig would trap on is a panic. -/

namespace WatershedOracle

def F64.ofLiteral (width : F64.Width) : Zig.FloatLiteral → F64
  | .nan => .nan
  | .inf negative => if negative then .negInf else .posInf
  | .number negative mantissa radix exponent =>
      let sign : ℚ := if negative then -1 else 1
      -- Beyond these exponents every nonzero literal is an infinity or a zero.
      if mantissa = 0 then .finite 0
      else if 5000 < exponent then (if negative then .negInf else .posInf)
      else if exponent < -(5000 + 4 * (Nat.log2 mantissa : Int)) then .finite 0
      else F64.ofRat width (sign * (mantissa : ℚ) * (radix : ℚ) ^ exponent)

namespace Nmea

/-- The separators and framing characters of a sentence. -/
def dollar : UInt8 := 36

def star : UInt8 := 42

def comma : UInt8 := 44

def dot : UInt8 := 46

def lineFeed : UInt8 := 10

def carriageReturn : UInt8 := 13

abbrev Parsed (α : Type) := Except Fault α

def invalidNMEA {α : Type} : Parsed α := .error (.error .invalidNMEA)

def panic {α : Type} (check : SafetyCheck) : Parsed α := .error (.panic check)

def ofParse {α : Type} : Except Zig.ParseError α → Parsed α
  | .ok a => .ok a
  | .error .InvalidCharacter => .error (.error .InvalidCharacter)
  | .error .Overflow => .error (.error .Overflow)

def parseFloat (width : F64.Width) (s : Bytes) : Parsed F64 :=
  ofParse ((Zig.parseFloat s).map (F64.ofLiteral width))

structure UTC where
  hours : Int
  minutes : Int
  seconds : Int
  miliseconds : Int
  deriving DecidableEq

structure Date where
  day : Int
  month : Int
  year : Int
  deriving DecidableEq

structure GGA where
  time : UTC
  latitude : Option F64
  longitude : Option F64
  quality : UInt8
  numSatUsed : Int
  hdop : Option F64
  altitude : Option F64
  seperation : Option F64
  deriving DecidableEq

structure GSV where
  totalNumSat : Int
  deriving DecidableEq

structure RMC where
  time : UTC
  date : Date
  status : UInt8
  navStatus : Option UInt8
  latitude : Option F64
  longitude : Option F64
  speed : F64
  course : F64
  mode : Option UInt8
  deriving DecidableEq

inductive Sentence
  | DTM
  | GBS
  | GGA (gga : GGA)
  | GLL
  | GSA
  | GSV (gsv : GSV)
  | RMC (rmc : RMC)
  | TXT
  | VTG
  deriving DecidableEq

def extractPoint (sentence : Sentence) : Option (F64 × F64) :=
  let position : Option (Option F64 × Option F64) :=
    match sentence with
    | .GGA gga => some (gga.longitude, gga.latitude)
    | .RMC rmc => some (rmc.longitude, rmc.latitude)
    | _ => none
  match position with
  | some (some x, some y) => some (x, y)
  | _ => none

/-! ### Fields -/

/-- A reader over the fields of a message that are left. -/
abbrev Fields (α : Type) := EStateM Fault (List Bytes) α

/-- `splits.next().?`. -/
def next : Fields Bytes := do
  match ← get with
  | [] => throw (.panic .nullUnwrap)
  | first :: rest =>
      set rest
      pure first

def lift {α : Type} : Parsed α → Fields α
  | .ok a => pure a
  | .error fault => throw fault

/-- `slice[0]`. -/
def firstByte : Bytes → Fields UInt8
  | [] => throw (.panic .indexOutOfBounds)
  | byte :: _ => pure byte

def readFields {α : Type} (x : Fields α) (msg : Bytes) : Parsed α :=
  match x.run (msg.splitOn comma) with
  | .ok a _ => .ok a
  | .error fault _ => .error fault

/-- The magnitude and the direction of a coordinate; null if either is empty. -/
def parseLatLon (mag dir : Bytes) : Parsed (Option F64) :=
  if dir.length = 0 then .ok none
  else if mag.length = 0 then .ok none
  else if 1 < dir.length then invalidNMEA
  else if mag.length < 9 then invalidNMEA
  else match mag.findIdx? (· == dot) with
    | none => invalidNMEA
    | some i =>
        if i < 2 then panic .integerOverflow
        else do
          let degrees ← parseFloat .f64 (mag.take (i - 2))
          let minutes ← parseFloat .f64 (mag.drop (i - 2))
          let angle := F64.add degrees (F64.divBy 60 minutes)
          match dir with
          | [78] | [69] => pure (some angle)
          | [83] | [87] => pure (some angle.negate)
          | _ => invalidNMEA

/-- `utc` is in the format "hhmmss.sss". -/
def parseUTC (utc : Bytes) : Parsed UTC :=
  if utc.length ≠ 10 then invalidNMEA
  else do
    let hours ← ofParse (Zig.parseUnsigned Zig.u8 (utc.take 2) 10)
    let minutes ← ofParse (Zig.parseUnsigned Zig.u8 ((utc.drop 2).take 2) 10)
    let seconds ← ofParse (Zig.parseUnsigned Zig.u8 ((utc.drop 4).take 2) 10)
    let miliseconds ← ofParse (Zig.parseUnsigned Zig.u16 (utc.drop 7) 10)
    pure ⟨hours, minutes, seconds, miliseconds⟩

/-- `date` is in the format "ddmmyy". -/
def parseDate (date : Bytes) : Parsed Date :=
  if date.length ≠ 6 then invalidNMEA
  else do
    let day ← ofParse (Zig.parseUnsigned Zig.u8 (date.take 2) 10)
    let month ← ofParse (Zig.parseUnsigned Zig.u8 ((date.drop 2).take 2) 10)
    let year ← ofParse (Zig.parseUnsigned Zig.u8 (date.drop 4) 10)
    pure ⟨day, month, year⟩

/-- `std.fmt.parseFloat(f32, ...) catch null`. -/
def optionalFloat (s : Bytes) : Option F64 := (parseFloat .f32 s).toOption

def readGGA : Fields Sentence := do
  let time ← lift (parseUTC (← next))
  let latitudeMag ← next
  let latitudeDir ← next
  let latitude ← lift (parseLatLon latitudeMag latitudeDir)
  let longitudeMag ← next
  let longitudeDir ← next
  let longitude ← lift (parseLatLon longitudeMag longitudeDir)
  let quality ← next
  let numSatUsed ← lift (ofParse (Zig.parseUnsigned Zig.u8 (← next) 10))
  let hdop := optionalFloat (← next)
  let altitude := optionalFloat (← next)
  let _ ← next
  let seperation := optionalFloat (← next)
  let _ ← next
  let quality ← firstByte quality
  pure (.GGA ⟨time, latitude, longitude, quality, numSatUsed, hdop, altitude, seperation⟩)

def parseGGA (msg : Bytes) : Parsed Sentence := readFields readGGA msg

def readGSV : Fields Sentence := do
  let _ ← next
  let _ ← next
  let totalNumSat ← lift (ofParse (Zig.parseUnsigned Zig.u16 (← next) 10))
  pure (.GSV ⟨totalNumSat⟩)

def parseGSV (msg : Bytes) : Parsed Sentence := readFields readGSV msg

def readRMC : Fields Sentence := do
  let time ← lift (parseUTC (← next))
  let status ← next
  let latitudeMag ← next
  let latitudeDir ← next
  let latitude ← lift (parseLatLon latitudeMag latitudeDir)
  let longitudeMag ← next
  let longitudeDir ← next
  let longitude ← lift (parseLatLon longitudeMag longitudeDir)
  let speed ← lift (parseFloat .f32 (← next))
  let course ← lift (parseFloat .f32 (← next))
  let date ← lift (parseDate (← next))
  let mode ← next
  let navStatus ← next
  let status ← firstByte status
  pure (.RMC ⟨time, date, status, navStatus.head?, latitude, longitude, speed, course, mode.head?⟩)

def parseRMC (msg : Bytes) : Parsed Sentence := readFields readRMC msg

/-! ### Sentences -/

/-- The names of the enum SentenceFormatter. -/
inductive SentenceFormatter
  | DTM | GBS | GGA | GLL | GSA | GSV | RMC | TXT | VTG
  deriving DecidableEq, Repr

/-- The three letters of a formatter. -/
def SentenceFormatter.letters : SentenceFormatter → Bytes
  | .DTM => Zig.ascii "DTM"
  | .GBS => Zig.ascii "GBS"
  | .GGA => Zig.ascii "GGA"
  | .GLL => Zig.ascii "GLL"
  | .GSA => Zig.ascii "GSA"
  | .GSV => Zig.ascii "GSV"
  | .RMC => Zig.ascii "RMC"
  | .TXT => Zig.ascii "TXT"
  | .VTG => Zig.ascii "VTG"

def parseNMEA (input : Bytes) : Parsed Sentence :=
  let code := input.takeWhile (· ≠ comma)
  if code.length ≠ 5 then invalidNMEA
  else
    let sentenceFormatter := code.drop 2
    let msg := input.drop (code.length + 1)
    if sentenceFormatter = SentenceFormatter.DTM.letters then .ok .DTM
    else if sentenceFormatter = SentenceFormatter.GBS.letters then .ok .GBS
    else if sentenceFormatter = SentenceFormatter.GGA.letters then parseGGA msg
    else if sentenceFormatter = SentenceFormatter.GLL.letters then .ok .GLL
    else if sentenceFormatter = SentenceFormatter.GSA.letters then .ok .GSA
    else if sentenceFormatter = SentenceFormatter.GSV.letters then parseGSV msg
    else if sentenceFormatter = SentenceFormatter.RMC.letters then parseRMC msg
    else if sentenceFormatter = SentenceFormatter.TXT.letters then .ok .TXT
    else if sentenceFormatter = SentenceFormatter.VTG.letters then .ok .VTG
    else invalidNMEA

/-- What the dispatch does with the message of a formatter. -/
def SentenceFormatter.parseMessage (msg : Bytes) : SentenceFormatter → Parsed Sentence
  | .DTM => .ok .DTM
  | .GBS => .ok .GBS
  | .GGA => parseGGA msg
  | .GLL => .ok .GLL
  | .GSA => .ok .GSA
  | .GSV => parseGSV msg
  | .RMC => parseRMC msg
  | .TXT => .ok .TXT
  | .VTG => .ok .VTG

/-- A code of another length or without a formatter is rejected, and any other is dispatched. -/
theorem parseNMEA_cases (input : Bytes) :
    let code := input.takeWhile (· ≠ comma)
    (parseNMEA input = invalidNMEA ∧
      (code.length = 5 → ∀ formatter : SentenceFormatter, code.drop 2 ≠ formatter.letters)) ∨
    (code.length = 5 ∧ ∃ formatter : SentenceFormatter, code.drop 2 = formatter.letters ∧
      parseNMEA input = formatter.parseMessage (input.drop (code.length + 1))) := by
  unfold parseNMEA
  dsimp only
  generalize input.takeWhile (· ≠ comma) = code
  by_cases five : code.length = 5
  · rw [if_neg (not_not.mpr five)]
    by_cases known : ∃ formatter : SentenceFormatter, code.drop 2 = formatter.letters
    · obtain ⟨formatter, isLetters⟩ := known
      refine .inr ⟨five, formatter, isLetters, ?_⟩
      rw [isLetters]
      cases formatter <;> rfl
    · have none_ := not_exists.mp known
      rw [if_neg (none_ .DTM), if_neg (none_ .GBS), if_neg (none_ .GGA), if_neg (none_ .GLL),
        if_neg (none_ .GSA), if_neg (none_ .GSV), if_neg (none_ .RMC), if_neg (none_ .TXT),
        if_neg (none_ .VTG)]
      exact .inl ⟨rfl, fun _ => none_⟩
  · rw [if_pos five]
    exact .inl ⟨rfl, fun isFive => absurd isFive five⟩

def pmtkPrefix : Bytes := Zig.ascii "PMTK"

def pqPrefix : Bytes := Zig.ascii "PQ"

def parsePMTK (_input : Bytes) : Parsed Sentence := .ok .TXT

def parsePQ (_input : Bytes) : Parsed Sentence := .ok .TXT

/-- The exclusive or of all bytes. -/
def xorOf (bytes : Bytes) : UInt8 := bytes.foldl (fun sum c => sum ^^^ c) 0

def validateChecksum (input : Bytes) : Parsed Unit :=
  match Zig.splitBackwards star input with
  | [] => invalidNMEA
  | checksumSlice :: before => do
      let checksum ← ofParse
        (Zig.parseInt Zig.u8 (Zig.trim [carriageReturn, lineFeed] checksumSlice) 16)
      match before with
      | [] => invalidNMEA
      | message :: _ =>
          if message.head? ≠ some dollar then invalidNMEA
          else if (xorOf message.tail).toNat ≠ checksum then invalidNMEA
          else .ok ()

/-- What is left of the input without line end, dollar signs and checksum digits. -/
def trimmed (input : Bytes) : Bytes := Zig.trim [dollar, carriageReturn, lineFeed] input

/-- The dispatch of `parse` on the text between the dollar sign and the star. -/
def parseTrimmed (input : Bytes) : Parsed Sentence :=
  if pmtkPrefix <+: input then parsePMTK input
  else if pqPrefix <+: input then parsePQ input
  else parseNMEA input

def parse (input : Bytes) : Parsed Sentence := do
  validateChecksum input
  if (trimmed input).length < 3 then panic .integerOverflow
  else parseTrimmed ((trimmed input).take ((trimmed input).length - 3))

end Nmea

end WatershedOracle
