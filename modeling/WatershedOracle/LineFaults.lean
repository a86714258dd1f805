import WatershedOracle.Main

set_option autoImplicit false

/-! The faults that the readers of a line can raise, function by function. -/

namespace WatershedOracle

open Effect

namespace Nmea

/-- What the parser of nmea.zig raises. -/
inductive Own : Fault → Prop
  | invalidNMEA : Own (.error .invalidNMEA)
  | InvalidCharacter : Own (.error .InvalidCharacter)
  | Overflow : Own (.error .Overflow)
  | panic (check : SafetyCheck) : Own (.panic check)

section Own

variable {α β : Type}

theorem raises_invalidNMEA : Raises Own (invalidNMEA : Parsed α) :=
  (raises_error _).mpr .invalidNMEA

theorem raises_panic (check : SafetyCheck) : Raises Own (panic check : Parsed α) :=
  (raises_error _).mpr (.panic check)

theorem raises_ofParse (x : Except Zig.ParseError α) : Raises Own (ofParse x) := by
  rcases x with (_ | _) | a
  · exact (raises_error _).mpr .InvalidCharacter
  · exact (raises_error _).mpr .Overflow
  · exact raises_ok a

theorem raises_parseUTC (utc : Bytes) : Raises Own (parseUTC utc) := by
  unfold parseUTC
  split
  · exact raises_invalidNMEA
  · refine (raises_ofParse _).bind fun hours => (raises_ofParse _).bind fun minutes => ?_
    exact (raises_ofParse _).bind fun seconds => (raises_ofParse _).bind fun _ => raises_pure _

theorem raises_parseDate (date : Bytes) : Raises Own (parseDate date) := by
  unfold parseDate
  split
  · exact raises_invalidNMEA
  · refine (raises_ofParse _).bind fun day => (raises_ofParse _).bind fun month => ?_
    exact (raises_ofParse _).bind fun _ => raises_pure _

theorem raises_parseLatLon (mag dir : Bytes) : Raises Own (parseLatLon mag dir) := by
  unfold parseLatLon
  split
  · exact raises_ok _
  split
  · exact raises_ok _
  split
  · exact raises_invalidNMEA
  split
  · exact raises_invalidNMEA
  split
  · exact raises_invalidNMEA
  split
  · exact raises_panic _
  · refine (raises_ofParse _).bind fun degrees => (raises_ofParse _).bind fun minutes => ?_
    dsimp only
    split
    · exact raises_pure _
    · exact raises_pure _
    · exact raises_pure _
    · exact raises_pure _
    · exact raises_invalidNMEA

/-- A field reader that fails only with the parser's own faults. -/
def Reads (x : Fields α) : Prop := ∀ fields, Ends x fields (fun _ _ => True) (fun e _ => Own e)

theorem Reads.bind {x : Fields α} {f : α → Fields β} (first : Reads x)
    (second : ∀ a, Reads (f a)) : Reads (x >>= f) := by
  intro fields
  rw [ends_bind]
  exact (first fields).mono (fun a rest _ => second a rest) fun _ _ own => own

theorem reads_pure (a : α) : Reads (pure a) := fun _ => trivial

theorem reads_next : Reads next := by
  intro fields
  cases fields with
  | nil => exact Own.panic _
  | cons first rest => trivial

theorem reads_firstByte (slice : Bytes) : Reads (firstByte slice) := by
  intro fields
  cases slice with
  | nil => exact Own.panic _
  | cons byte rest => trivial

theorem reads_lift {x : Parsed α} (raises : Raises Own x) : Reads (lift x) := by
  intro fields
  cases x with
  | ok a => trivial
  | error fault => exact raises fault rfl

theorem raises_readFields {x : Fields α} (reads : Reads x) (msg : Bytes) :
    Raises Own (readFields x msg) := by
  have ends := reads (msg.splitOn comma)
  unfold readFields
  unfold Ends at ends
  split at ends <;> rename_i run <;> rw [run]
  · exact raises_ok _
  · exact (raises_error _).mpr ends

theorem reads_readGGA : Reads readGGA := by
  unfold readGGA
  refine reads_next.bind fun _ => (reads_lift (raises_parseUTC _)).bind fun time => ?_
  refine reads_next.bind fun _ => reads_next.bind fun _ => ?_
  apply (reads_lift (raises_parseLatLon _ _)).bind
  intro latitude
  refine reads_next.bind fun _ => reads_next.bind fun _ => ?_
  apply (reads_lift (raises_parseLatLon _ _)).bind
  intro longitude
  refine reads_next.bind fun _ => reads_next.bind fun _ => ?_
  apply (reads_lift (raises_ofParse _)).bind
  intro numSatUsed
  refine reads_next.bind fun _ => reads_next.bind fun _ => reads_next.bind fun _ => ?_
  refine reads_next.bind fun _ => reads_next.bind fun _ => ?_
  exact (reads_firstByte _).bind fun quality => reads_pure _

theorem reads_readGSV : Reads readGSV := by
  unfold readGSV
  refine reads_next.bind fun _ => reads_next.bind fun _ => reads_next.bind fun _ => ?_
  exact (reads_lift (raises_ofParse _)).bind fun totalNumSat => reads_pure _

theorem reads_readRMC : Reads readRMC := by
  unfold readRMC
  refine reads_next.bind fun _ => (reads_lift (raises_parseUTC _)).bind fun time => ?_
  refine reads_next.bind fun _ => reads_next.bind fun _ => reads_next.bind fun _ => ?_
  apply (reads_lift (raises_parseLatLon _ _)).bind
  intro latitude
  refine reads_next.bind fun _ => reads_next.bind fun _ => ?_
  apply (reads_lift (raises_parseLatLon _ _)).bind
  intro longitude
  refine reads_next.bind fun _ => (reads_lift (raises_ofParse _)).bind fun speed => ?_
  refine reads_next.bind fun _ => (reads_lift (raises_ofParse _)).bind fun course => ?_
  refine reads_next.bind fun _ => (reads_lift (raises_parseDate _)).bind fun date => ?_
  refine reads_next.bind fun _ => reads_next.bind fun _ => ?_
  exact (reads_firstByte _).bind fun status => reads_pure _

theorem raises_validateChecksum (input : Bytes) : Raises Own (validateChecksum input) := by
  unfold validateChecksum
  split
  · exact raises_invalidNMEA
  · apply (raises_ofParse _).bind
    intro checksum
    split
    · exact raises_invalidNMEA
    split
    · exact raises_invalidNMEA
    split
    · exact raises_invalidNMEA
    · exact raises_ok _

theorem raises_parseNMEA (input : Bytes) : Raises Own (parseNMEA input) := by
  rcases parseNMEA_cases input with ⟨same, _⟩ | ⟨_, formatter, _, same⟩
  · rw [same]
    exact raises_invalidNMEA
  · rw [same]
    cases formatter with
    | GGA => exact raises_readFields reads_readGGA _
    | GSV => exact raises_readFields reads_readGSV _
    | RMC => exact raises_readFields reads_readRMC _
    | _ => exact raises_ok _

theorem raises_parse (input : Bytes) : Raises Own (parse input) := by
  apply (raises_validateChecksum input).bind
  intro _
  split
  · exact raises_panic _
  · unfold parseTrimmed
    split
    · exact raises_ok _
    split
    · exact raises_ok _
    · exact raises_parseNMEA _

end Own

end Nmea

/-- What std.json raises on a request. -/
inductive RequestError : ZigError → Prop
  | ofScan (e : Zig.Json.ScanError) : RequestError (ofScanError e)
  | ofParse (e : Zig.ParseError) : RequestError (ofParseError e)
  | UnknownField : RequestError .UnknownField
  | DuplicateField : RequestError .DuplicateField
  | MissingField : RequestError .MissingField
  | InvalidNumber : RequestError .InvalidNumber

section Request

theorem raises_scan {α : Type} (x : Except Zig.Json.ScanError α) :
    Raises RequestError (x.mapError ofScanError) :=
  raises_mapError .ofScan x

theorem raises_number {α : Type} (x : Except Zig.ParseError α) :
    Raises RequestError (x.mapError ofParseError) :=
  raises_mapError .ofParse x

theorem raises_inI64 (n : Int) : Raises RequestError (inI64 n) := by
  unfold inI64
  split
  · exact raises_ok n
  · exact (raises_error _).mpr (RequestError.ofParse .Overflow)

theorem raises_literalToInt (literal : Zig.FloatLiteral) :
    Raises RequestError (literalToInt literal) := by
  unfold literalToInt
  split
  · exact (raises_error _).mpr .InvalidNumber
  · exact (raises_error _).mpr (RequestError.ofParse .Overflow)
  dsimp only
  repeat' split
  all_goals first
    | exact raises_ok _
    | exact raises_inI64 _
    | exact (raises_error _).mpr .InvalidNumber
    | exact (raises_error _).mpr (RequestError.ofParse .Overflow)

theorem raises_sliceToInt (slice : Bytes) : Raises RequestError (sliceToInt slice) := by
  unfold sliceToInt
  split
  · exact raises_number _
  · exact (raises_number _).bind fun literal => raises_literalToInt literal

theorem raises_set (fields : PointFields) (field : PointField) (slice : Bytes) :
    Raises RequestError (fields.set field slice) := by
  cases field with
  | requestId => exact (raises_sliceToInt slice).bind fun _ => raises_pure _
  | longitude => exact (raises_number _).bind fun _ => raises_pure _
  | latitude => exact (raises_number _).bind fun _ => raises_pure _

theorem raises_syntaxError {α : Type} :
    Raises RequestError (.error .SyntaxError : Except ZigError α) :=
  (raises_error _).mpr (RequestError.ofScan .SyntaxError)

theorem raises_endOfInput {α : Type} :
    Raises RequestError (.error .UnexpectedEndOfInput : Except ZigError α) :=
  (raises_error _).mpr (RequestError.ofScan .UnexpectedEndOfInput)

theorem raises_parseMember (fields : PointFields) (s : Bytes) :
    Raises RequestError (parseMember fields s) := by
  unfold parseMember
  split
  · exact raises_endOfInput
  · apply (raises_scan _).bind
    intro token
    obtain ⟨name, rest⟩ := token
    dsimp only
    split
    · exact (raises_throw _).mpr .UnknownField
    split
    · exact (raises_throw _).mpr .DuplicateField
    refine (raises_scan _).bind fun rest => (raises_scan _).bind fun token => ?_
    exact (raises_set _ _ _).bind fun fields => raises_pure _
  · exact raises_syntaxError

theorem raises_parseMembers (left : Nat) (fields : PointFields) (s : Bytes) :
    Raises RequestError (parseMembers left fields s) := by
  induction left generalizing fields s with
  | zero =>
    rw [parseMembers]
    apply (raises_parseMember fields s).bind
    intro found
    obtain ⟨fields, rest⟩ := found
    dsimp only
    split
    · exact raises_endOfInput
    · exact (raises_throw _).mpr .DuplicateField
    · exact raises_pure _
    · exact raises_syntaxError
  | succ left ih =>
    rw [parseMembers]
    apply (raises_parseMember fields s).bind
    intro found
    obtain ⟨fields, rest⟩ := found
    dsimp only
    split
    · exact raises_endOfInput
    · exact ih fields _
    · exact raises_pure _
    · exact raises_syntaxError

theorem raises_fill (fields : PointFields) : Raises RequestError fields.fill := by
  unfold PointFields.fill
  split
  · exact raises_ok _
  · exact (raises_error _).mpr .MissingField

theorem raises_parsePointJson (slice : Bytes) : Raises RequestError (parsePointJson slice) := by
  have filled : ∀ (fields : PointFields) (rest : Bytes), Raises RequestError (do
      let point ← fields.fill
      if Zig.Json.skipWhitespace rest = [] then pure point else throw .SyntaxError) := by
    intro fields rest
    apply (raises_fill fields).bind
    intro point
    split
    · exact raises_pure _
    · exact raises_syntaxError
  unfold parsePointJson
  split
  · exact raises_endOfInput
  · dsimp only
    split
    · exact (raises_pure _).bind fun _ => filled _ _
    · exact (raises_parseMembers _ _ _).bind fun _ => filled _ _
  · apply (raises_scan _).bind
    intro _
    exact (raises_throw _).mpr (RequestError.ofScan .UnexpectedToken)

end Request

theorem noMorePoints_not_requestError : ¬ RequestError .NoMorePoints := by
  intro own
  generalize same : ZigError.NoMorePoints = error at own
  cases own with
  | ofScan e => cases e <;> cases same
  | ofParse e => cases e <;> cases same
  | _ => cases same

/-- No line makes a point source report that nothing is left. -/
theorem readLine_ne_noMorePoints (provider : PointProvider) (json : Bool) (line : Bytes) :
    readLine provider json line ≠ .error (.error .NoMorePoints) := by
  intro same
  cases provider with
  | stdin =>
    cases json with
    | false => cases same
    | true =>
      cases parsed : parsePointJson line with
      | ok point => simp [readLine, parsed] at same
      | error e =>
        have own := raises_parsePointJson line e parsed
        obtain rfl : e = .NoMorePoints := by simpa [readLine, parsed] using same
        exact noMorePoints_not_requestError own
  | gpsMock =>
    cases parsed : Nmea.parse line with
    | ok sentence => simp [readLine, parsed] at same
    | error fault =>
      have own := Nmea.raises_parse line fault parsed
      obtain rfl : fault = .error .NoMorePoints := by simpa [readLine, parsed] using same
      cases own

end WatershedOracle
