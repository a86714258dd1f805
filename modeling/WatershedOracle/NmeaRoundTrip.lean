import WatershedOracle.NmeaSentences

set_option autoImplicit false

/-! The data of a GGA or an RMC sentence, encoded in the field order of NMEA 0183 and
decoded again. The RMC reader takes its last two values from the wrong fields. -/

namespace WatershedOracle.Nmea

open Zig

/-! ### Positions -/

structure Position where
  latitude : Magnitude
  south : Bool
  longitude : Magnitude
  west : Bool

namespace Position

def x (p : Position) : F64 := .finite (p.longitude.signed p.west)

def y (p : Position) : F64 := .finite (p.latitude.signed p.south)

/-- The four fields of a position, empty without one. -/
def fields : Option Position → List Bytes
  | none => [[], [], [], []]
  | some p =>
      [p.latitude.text, [Axis.latitude.letter p.south], p.longitude.text,
        [Axis.longitude.letter p.west]]

theorem plain_fields (position : Option Position) : ∀ f ∈ fields position, Plain f := by
  cases position with
  | none => simp [fields]
  | some p => simp [fields, -plain_cons, plain_letter]

end Position

section Reading

variable {α : Type}

@[simp] theorem next_run (first : Bytes) (rest : List Bytes) :
    next.run (first :: rest) = .ok first rest := rfl

@[simp] theorem lift_run (a : α) (s : List Bytes) : (lift (.ok a)).run s = .ok a s := rfl

@[simp] theorem firstByte_run (byte : UInt8) (rest : Bytes) (s : List Bytes) :
    (firstByte (byte :: rest)).run s = .ok byte s := rfl

theorem readFields_message (x : Fields α) {fields : List Bytes} (plain : ∀ f ∈ fields, Plain f)
    (some_ : fields ≠ []) {a : α} {rest : List Bytes} (runs : x.run fields = .ok a rest) :
    readFields x (message fields) = .ok a := by
  unfold readFields
  rw [splitOn_message plain some_, runs]

end Reading

/-! ### GGA -/

/-- What a GGA sentence reports. The last two fields are not read. -/
structure Fix where
  talker : Talker
  time : Clock
  position : Option Position
  quality : Digit
  satellites : List Digit
  hdop : Option Decimal
  altitude : Option Decimal
  seperation : Option Decimal
  age : Bytes
  station : Bytes
  counted : satellites ≠ [] ∧ digitsValue satellites ≤ 255
  plain : Plain age ∧ Plain station

namespace Fix

variable (fix : Fix)

def fields : List Bytes :=
  fix.time.text :: (Position.fields fix.position ++
    [[Json.digitByte fix.quality], digitsText fix.satellites, optionalText fix.hdop,
      optionalText fix.altitude, [77], optionalText fix.seperation, [77], fix.age, fix.station])

def body : Bytes := bodyOf fix.talker .GGA fix.fields

/-- The sentence that the source's parser should make of it. -/
def decoded : GGA where
  time := fix.time.utc
  latitude := fix.position.map Position.y
  longitude := fix.position.map Position.x
  quality := Json.digitByte fix.quality
  numSatUsed := digitsValue fix.satellites
  hdop := fix.hdop.map (floatOf .f32)
  altitude := fix.altitude.map (floatOf .f32)
  seperation := fix.seperation.map (floatOf .f32)

theorem plain_fields : ∀ f ∈ fix.fields, Plain f := by
  have unit : Plain [77] := by simp; decide
  have quality : Plain [Json.digitByte fix.quality] := plain_digitsText [fix.quality]
  unfold fields
  rw [List.forall_mem_cons, List.forall_mem_append]
  refine ⟨plain_clock fix.time, Position.plain_fields fix.position, ?_⟩
  simp only [List.forall_mem_cons, plain_digitsText, plain_optionalText, quality, unit, fix.plain,
    true_and]
  simp

theorem parseUnsigned_satellites :
    ofParse (parseUnsigned u8 (digitsText fix.satellites) 10) =
      .ok (digitsValue fix.satellites : Int) := by
  have fits : (digitsValue fix.satellites : Int) ≤ u8.hi := by
    have counted := fix.counted.2
    show (digitsValue fix.satellites : Int) ≤ 2 ^ 8 - 1
    omega
  rw [parseUnsigned_digitsText (by decide) fix.counted.1 fits]
  rfl

theorem readGGA_fields : ∃ rest, readGGA.run fix.fields = .ok (.GGA fix.decoded) rest := by
  have count := fix.parseUnsigned_satellites
  refine ⟨[fix.age, fix.station], ?_⟩
  unfold readGGA fields decoded
  cases fix.position with
  | none =>
    have nowhere : parseLatLon [] [] = .ok none := rfl
    simp only [Position.fields, List.cons_append, List.nil_append, EStateM.run_bind, next_run,
      parseUTC_text, lift_run, nowhere, count, optionalFloat_text, firstByte_run, Option.map_none]
    rfl
  | some p =>
    simp only [Position.fields, List.cons_append, List.nil_append, EStateM.run_bind, next_run,
      parseUTC_text, lift_run, parseLatLon_text, count, optionalFloat_text, firstByte_run,
      Option.map_some]
    rfl

end Fix

/-- Decoding undoes encoding for GGA, up to the point that is emitted. -/
theorem parse_gga (fix : Fix) (frame : Frame fix.body) :
    parse frame.text = .ok (.GGA fix.decoded) ∧
      extractPoint (.GGA fix.decoded) = fix.position.map fun p => (p.x, p.y) := by
  obtain ⟨rest, reads⟩ := fix.readGGA_fields
  have whole := readFields_message readGGA fix.plain_fields (by simp [Fix.fields]) reads
  have framed : parse frame.text = parseTrimmed (bodyOf fix.talker .GGA fix.fields) :=
    parse_body fix.talker .GGA fix.plain_fields frame
  constructor
  · rw [framed, parseTrimmed_body _ _ (by decide), parseNMEA_GGA]
    exact whole
  · unfold Fix.decoded extractPoint
    cases fix.position <;> rfl

theorem letters_gp : ∀ c ∈ Zig.ascii "GP", (65 ≤ c ∧ c ≤ 90) ∨ (97 ≤ c ∧ c ≤ 122) := by
  decide +kernel

/-- A position in the north and the west, with eight satellites. -/
def satelliteFix : Fix where
  talker := ⟨71, 80, letters_gp, by decide⟩
  time := ⟨12, 30, 0, 0⟩
  position := some ⟨⟨[4, 5], 3, 0, [0, 0, 0, 0], by decide, by decide⟩, false,
    ⟨[1, 2, 2], 3, 0, [0, 0, 0, 0], by decide, by decide⟩, true⟩
  quality := 1
  satellites := [0, 8]
  hdop := some ⟨false, [1], some [2], by decide⟩
  altitude := some ⟨false, [1, 0], some [5], by decide⟩
  seperation := some ⟨true, [1, 7], some [0], by decide⟩
  age := []
  station := []
  counted := by decide
  plain := by simp

theorem parse_gga_satellites :
    (Frame.standard satelliteFix.body true).text =
        Zig.ascii "$GPGGA,123000.000,4530.0000,N,12230.0000,W,1,08,1.2,10.5,M,-17.0,M,,*5A\r" ∧
      parse (Frame.standard satelliteFix.body true).text = .ok (.GGA satelliteFix.decoded) ∧
      extractPoint (.GGA satelliteFix.decoded) =
        satelliteFix.position.map fun p => (p.x, p.y) :=
  ⟨by decide +kernel, parse_gga satelliteFix (.standard satelliteFix.body true)⟩

/-! ### RMC -/

/-- What an RMC sentence reports. -/
structure Minimum where
  talker : Talker
  time : Clock
  status : UInt8
  position : Option Position
  speed : Decimal
  course : Decimal
  date : Calendar
  variation : Option (Decimal × Bool)
  mode : UInt8
  navStatus : UInt8
  isStatus : status ∈ Zig.ascii "AVD"
  isMode : mode ∈ Zig.ascii "ADEFMNR"
  isNavStatus : navStatus ∈ Zig.ascii "SCUV"

/-- The magnetic variation and its direction, east or west. -/
def variationText (variation : Option (Decimal × Bool)) : Bytes :=
  optionalText (variation.map Prod.fst)

def variationDir : Option (Decimal × Bool) → Bytes
  | none => []
  | some (_, west) => [Axis.longitude.letter west]

namespace Minimum

variable (r : Minimum)

def fields : List Bytes :=
  r.time.text :: [r.status] :: (Position.fields r.position ++
    [r.speed.text, r.course.text, r.date.text, variationText r.variation,
      variationDir r.variation, [r.mode], [r.navStatus]])

def body : Bytes := bodyOf r.talker .RMC r.fields

/-- The sentence that the source's parser should make of it. -/
def decoded : RMC where
  time := r.time.utc
  date := r.date.date
  status := r.status
  navStatus := some r.navStatus
  latitude := r.position.map Position.y
  longitude := r.position.map Position.x
  speed := floatOf .f32 r.speed
  course := floatOf .f32 r.course
  mode := some r.mode

/-- The sentence that it makes of it. The two fields after the date are those of the
magnetic variation. -/
def misread : RMC :=
  { r.decoded with
    mode := (variationText r.variation).head?
    navStatus := (variationDir r.variation).head? }

theorem plain_variationDir (variation : Option (Decimal × Bool)) :
    Plain (variationDir variation) := by
  match variation with
  | none => exact plain_nil
  | some (_, west) => exact plain_letter .longitude west

theorem plain_of_letter {c : UInt8} (letters : Bytes) (plain : Plain letters) (member : c ∈ letters) :
    Plain [c] := by
  simp only [plain_cons, plain_nil, and_true]
  constructor
  · rintro rfl
    exact plain.1 member
  · rintro rfl
    exact plain.2 member

theorem plain_fields : ∀ f ∈ r.fields, Plain f := by
  have status := plain_of_letter (Zig.ascii "AVD") ⟨by decide, by decide⟩ r.isStatus
  have mode := plain_of_letter (Zig.ascii "ADEFMNR") ⟨by decide, by decide⟩ r.isMode
  have navStatus := plain_of_letter (Zig.ascii "SCUV") ⟨by decide, by decide⟩ r.isNavStatus
  have direction := plain_variationDir r.variation
  unfold fields variationText
  rw [List.forall_mem_cons, List.forall_mem_cons, List.forall_mem_append]
  refine ⟨plain_clock r.time, status, Position.plain_fields r.position, ?_⟩
  simp only [List.forall_mem_cons, plain_decimal, plain_calendar, plain_optionalText, direction,
    mode, navStatus, true_and]
  simp

theorem readRMC_fields : ∃ rest, readRMC.run r.fields = .ok (.RMC r.misread) rest := by
  refine ⟨[[r.mode], [r.navStatus]], ?_⟩
  unfold readRMC fields misread decoded
  cases r.position with
  | none =>
    have nowhere : parseLatLon [] [] = .ok none := rfl
    simp only [Position.fields, List.cons_append, List.nil_append, EStateM.run_bind, next_run,
      parseUTC_text, lift_run, nowhere, parseFloat_text, parseDate_text, firstByte_run,
      Option.map_none]
    rfl
  | some p =>
    simp only [Position.fields, List.cons_append, List.nil_append, EStateM.run_bind, next_run,
      parseUTC_text, lift_run, parseLatLon_text, parseFloat_text, parseDate_text, firstByte_run,
      Option.map_some]
    rfl

/-- No mode letter begins a magnetic variation, and none is missing. -/
theorem mode_ne : r.misread.mode ≠ r.decoded.mode := by
  have letter : ∀ c ∈ Zig.ascii "ADEFMNR", 57 < c := by decide +kernel
  have large := letter r.mode r.isMode
  show (variationText r.variation).head? ≠ some r.mode
  intro same
  have member := List.mem_of_head? same
  unfold variationText at member
  cases isVariation : r.variation with
  | none =>
    rw [isVariation] at member
    cases member
  | some pair =>
    rw [isVariation] at member
    have inText : r.mode ∈ pair.1.text := member
    unfold Decimal.text at inText
    rcases List.mem_append.mp inText with sign | digits
    · split at sign
      · rw [List.mem_singleton.mp sign] at large
        revert large
        decide
      · cases sign
    · exact pair.1.not_mem_unsigned (.inr large) digits

end Minimum

/-- Decoding never undoes encoding for RMC: every sentence is accepted, and the mode and
the navigational status are taken from the fields of the magnetic variation. -/
theorem parse_rmc (r : Minimum) (frame : Frame r.body) :
    parse frame.text = .ok (.RMC r.misread) ∧ parse frame.text ≠ .ok (.RMC r.decoded) := by
  obtain ⟨rest, reads⟩ := r.readRMC_fields
  have whole := readFields_message readRMC r.plain_fields (by simp [Minimum.fields]) reads
  have framed : parse frame.text = parseTrimmed (bodyOf r.talker .RMC r.fields) :=
    parse_body r.talker .RMC r.plain_fields frame
  have accepted : parse frame.text = .ok (.RMC r.misread) := by
    rw [framed, parseTrimmed_body _ _ (by decide), parseNMEA_RMC]
    exact whole
  refine ⟨accepted, ?_⟩
  rw [accepted]
  intro same
  have sentences := Sentence.RMC.inj (Except.ok.inj same)
  exact r.mode_ne (congrArg RMC.mode sentences)

/-- A valid position in autonomous mode, without a magnetic variation. -/
def autonomousFix : Minimum where
  talker := ⟨71, 80, letters_gp, by decide⟩
  time := ⟨12, 30, 0, 0⟩
  status := 65
  position := some ⟨⟨[4, 5], 3, 0, [0, 0, 0, 0], by decide, by decide⟩, false,
    ⟨[1, 2, 2], 3, 0, [0, 0, 0, 0], by decide, by decide⟩, true⟩
  speed := ⟨false, [0], some [0], by decide⟩
  course := ⟨false, [0], some [0], by decide⟩
  date := ⟨1, 1, 24⟩
  variation := none
  mode := 65
  navStatus := 86
  isStatus := by decide
  isMode := by decide
  isNavStatus := by decide

/-- Its mode A and its navigational status V come back as null. -/
theorem parse_rmc_fails :
    parse (Frame.standard autonomousFix.body true).text =
        .ok (.RMC { autonomousFix.decoded with mode := none, navStatus := none }) ∧
      parse (Frame.standard autonomousFix.body true).text ≠ .ok (.RMC autonomousFix.decoded) := by
  decide +kernel

end WatershedOracle.Nmea
