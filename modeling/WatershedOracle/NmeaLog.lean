import WatershedOracle.Library.ZigJson
import WatershedOracle.NmeaPositions

set_option autoImplicit false

/-! The log lines of nmea.zig, and when the log and the lookup agree on an RMC sentence. -/

namespace WatershedOracle.Nmea

open Effect

/-! ### The log -/

section Log

variable (decimalText : F64 → Bytes)

/-- `{:0>2}`. -/
def padded (n : Int) : Bytes :=
  let text := Zig.Json.intText n
  List.replicate (2 - text.length) 48 ++ text

/-- The hours are written twice, and the minutes not at all. -/
def clockText (time : UTC) : Bytes :=
  Zig.Json.intText time.hours ++ Zig.ascii ":" ++ padded time.hours ++ Zig.ascii ":" ++
    Zig.Json.intText time.seconds ++ Zig.ascii "." ++ Zig.Json.intText time.miliseconds

def positionText (longitude latitude : F64) : Bytes :=
  Zig.ascii " : (" ++ decimalText longitude ++ Zig.ascii " " ++ decimalText latitude ++
    Zig.ascii ")"

/-- `.?`. -/
def unwrap {α : Type} : Option α → Parsed α
  | some a => .ok a
  | none => panic .nullUnwrap

def logGGA (gga : GGA) : Parsed Bytes :=
  match gga.longitude, gga.latitude with
  | some lon, some lat =>
      .ok (Zig.ascii "GGA " ++ clockText gga.time ++ positionText decimalText lon lat)
  | _, _ => .ok (Zig.ascii "GGA: no position data.")

def logGSV (gsv : GSV) : Parsed Bytes :=
  .ok (Zig.ascii "GSV: Satilites in view: " ++ Zig.Json.intText gsv.totalNumSat)

def logRMC (rmc : RMC) : Parsed Bytes :=
  if rmc.status = 86 then .ok (Zig.ascii "RMC: no position data.")
  else do
    let longitude ← unwrap rmc.longitude
    let latitude ← unwrap rmc.latitude
    pure (Zig.ascii "RMC: " ++ Zig.Json.intText rmc.date.month ++ Zig.ascii "/" ++
      Zig.Json.intText rmc.date.day ++ Zig.ascii "/" ++ Zig.Json.intText rmc.date.year ++
      Zig.ascii " @ " ++ clockText rmc.time ++ positionText decimalText longitude latitude)

def logTag (formatter : SentenceFormatter) : Parsed Bytes :=
  .ok (formatter.letters ++ Zig.ascii " parsed.")

def logSentence : Sentence → Parsed Bytes
  | .GGA gga => logGGA decimalText gga
  | .GSV gsv => logGSV gsv
  | .RMC rmc => logRMC decimalText rmc
  | .DTM => logTag .DTM
  | .GBS => logTag .GBS
  | .GLL => logTag .GLL
  | .GSA => logTag .GSA
  | .TXT => logTag .TXT
  | .VTG => logTag .VTG

/-- Only a sentence that counts as valid has its coordinates unwrapped. -/
theorem noPanic_logRMC (rmc : RMC) :
    NoPanic (logRMC decimalText rmc) ↔
      (rmc.status ≠ 86 → rmc.latitude.isSome ∧ rmc.longitude.isSome) := by
  unfold logRMC
  by_cases void : rmc.status = 86
  · simp [void]
  · rw [if_neg void]
    cases rmc.longitude <;> cases rmc.latitude <;>
      simp [noPanic_bind, unwrap, void, pure, Except.pure]

theorem noPanic_logGGA (gga : GGA) : NoPanic (logGGA decimalText gga) := by
  unfold logGGA
  split
  · exact noPanic_ok _
  · exact noPanic_ok _

/-- Of all the log lines only that of an RMC sentence can trip a check. -/
theorem noPanic_logSentence (sentence : Sentence) :
    NoPanic (logSentence decimalText sentence) ↔
      ∀ rmc, sentence = .RMC rmc → NoPanic (logRMC decimalText rmc) := by
  cases sentence with
  | RMC rmc => simp [logSentence]
  | GGA gga => simp [logSentence, noPanic_logGGA]
  | _ => simp [logSentence, logTag, logGSV]

end Log

/-! ### The fields that decide -/

/-- The status field of an RMC sentence. -/
def statusOf (input : Bytes) : Bytes := field (fieldsOf (interpreted input)) 1

/-- One of the four coordinate fields is empty. -/
def Coordinates.Missing (c : Coordinates) : Prop :=
  [] ∈ [c.latitudeMag, c.latitudeDir, c.longitudeMag, c.longitudeDir]

instance (c : Coordinates) : Decidable c.Missing :=
  inferInstanceAs (Decidable ([] ∈ _))

theorem readRMC_status (fields : List Bytes) :
    Ends readRMC (fields.drop 0) (fun sentence _ => ∃ rmc, sentence = .RMC rmc ∧
      (field fields 1).head? = some rmc.status) (fun _ _ => True) := by
  simp only [readRMC, ends_bind, returns_next, returns_lift, returns_firstByte, ends_pure]
  intros
  exact ⟨_, rfl, by assumption⟩

/-- Of two fields that are not empty an angle is read, if anything. -/
theorem parseLatLon_present {mag dir : Bytes} (someMag : mag ≠ []) (someDir : dir ≠ []) :
    parseLatLon mag dir ≠ .ok none := by
  intro read
  unfold parseLatLon at read
  rw [if_neg (by simpa using someDir), if_neg (by simpa using someMag)] at read
  -- The checks of the lengths and of the dot only reject.
  iterate 4
    split at read
    · cases read
  rename_i i _ _
  cases degrees : parseFloat .f64 (mag.take (i - 2)) with
  | error fault =>
    rw [degrees] at read
    cases read
  | ok whole =>
    cases minutes : parseFloat .f64 (mag.drop (i - 2)) with
    | error fault =>
      rw [degrees, minutes] at read
      cases read
    | ok part =>
      rw [degrees, minutes] at read
      simp only [Bind.bind, Except.bind] at read
      split at read <;> cases read

theorem parseLatLon_eq_none_iff {mag dir : Bytes} {value : Option F64}
    (read : parseLatLon mag dir = .ok value) : value = none ↔ mag = [] ∨ dir = [] := by
  by_cases noDir : dir = []
  · rw [noDir, parseLatLon, if_pos (by rfl)] at read
    cases read
    simp [noDir]
  by_cases noMag : mag = []
  · rw [noMag, parseLatLon, if_neg (by simpa using noDir), if_pos (by rfl)] at read
    cases read
    simp [noMag]
  have present : value ≠ none := fun none_ => parseLatLon_present noMag noDir (none_ ▸ read)
  simp [noDir, noMag, present]

/-- The status and the coordinates of an RMC sentence are what their fields are read as. -/
theorem parse_rmc_reads {input : Bytes} {rmc : RMC} (parsed : parse input = .ok (.RMC rmc)) :
    (statusOf input).head? = some rmc.status ∧
      ReadAs (coordinatesOf input) rmc.latitude rmc.longitude := by
  have interprets := parse_interprets parsed (by simp)
  obtain ⟨isRMC, read⟩ := (parseNMEA_reader interprets).2 rmc rfl
  obtain ⟨_, same, reads⟩ := parseRMC_reads read
  obtain ⟨_, _, same', status⟩ := readFields_returns (readRMC_status _) read
  cases same
  cases same'
  unfold statusOf coordinatesOf fieldsOf
  dsimp only
  rw [if_pos isRMC]
  exact ⟨status, reads⟩

/-! ### Agreement -/

/-- The log and the lookup tell the same sentences from those without a position. -/
structure Agrees (decimalText : F64 → Bytes) (rmc : RMC) : Prop where
  void : rmc.status = 86 → extractPoint (.RMC rmc) = none
  valid : rmc.status ≠ 86 → (rmc.latitude.isSome ∧ rmc.longitude.isSome) ∧
    NoPanic (logRMC decimalText rmc) ∧ (extractPoint (.RMC rmc)).isSome

theorem extractPoint_eq_none_iff (rmc : RMC) :
    extractPoint (.RMC rmc) = none ↔ rmc.latitude = none ∨ rmc.longitude = none := by
  unfold extractPoint
  dsimp only
  cases rmc.latitude <;> cases rmc.longitude <;> simp

theorem agrees_status_iff (decimalText : F64 → Bytes) (rmc : RMC) :
    Agrees decimalText rmc ↔
      (rmc.status = 86 ↔ rmc.latitude = none ∨ rmc.longitude = none) := by
  have located := extractPoint_eq_none_iff rmc
  constructor
  · intro agrees
    constructor
    · intro void
      exact located.mp (agrees.void void)
    · intro missing
      by_contra valid
      have point := (agrees.valid valid).2.2
      rw [located.mpr missing] at point
      cases point
  · intro same
    constructor
    · intro void
      exact located.mpr (same.mp void)
    · intro valid
      have present : ¬ (rmc.latitude = none ∨ rmc.longitude = none) := fun missing =>
        valid (same.mpr missing)
      have both : rmc.latitude.isSome ∧ rmc.longitude.isSome := by
        rw [Option.isSome_iff_ne_none, Option.isSome_iff_ne_none]
        exact not_or.mp present
      refine ⟨both, (noPanic_logRMC decimalText rmc).mpr fun _ => both, ?_⟩
      exact Option.isSome_iff_ne_none.mpr fun none_ => present (located.mp none_)

/-- Exactly when they agree on an accepted sentence: when its status is V if and only if one
of its coordinate fields is empty. The parser relates the two nowhere. -/
theorem agrees_iff (decimalText : F64 → Bytes) (input : Bytes) (rmc : RMC)
    (parsed : parse input = .ok (.RMC rmc)) :
    Agrees decimalText rmc ↔
      ((statusOf input).head? = some 86 ↔ (coordinatesOf input).Missing) := by
  obtain ⟨status, latitude, longitude⟩ := parse_rmc_reads parsed
  rw [agrees_status_iff, parseLatLon_eq_none_iff latitude, parseLatLon_eq_none_iff longitude,
    status, Option.some_inj]
  simp only [Coordinates.Missing, List.mem_cons, List.not_mem_nil, or_false, or_assoc,
    @eq_comm _ []]

/-- `$GPRMC,123000.000,<status>,<position>,0.0,0.0,010124,,,A` with its checksum. -/
def minimumAt (status position : Bytes) : Bytes :=
  (Frame.standard (Zig.ascii "GPRMC,123000.000," ++ status ++ Zig.ascii "," ++ position ++
    Zig.ascii ",0.0,0.0,010124,,,A") true).text

def minimumOf (status : UInt8) (latitude longitude : Option F64) : RMC :=
  ⟨⟨12, 30, 0, 0⟩, ⟨1, 1, 24⟩, status, none, latitude, longitude, .finite 0, .finite 0, none⟩

/-- A valid position. -/
theorem agrees_valid :
    Agrees (fun _ => []) (minimumOf 65 (some (.finite (91 / 2))) (some (.finite (-(245 / 2))))) :=
  (agrees_iff _ (minimumAt (Zig.ascii "A") (Zig.ascii "4530.0000,N,12230.0000,W")) _
    (by decide +kernel)).mpr (by decide +kernel)

/-- A void sentence with a position is looked up all the same. -/
theorem agrees_fails :
    ¬ ∀ (decimalText : F64 → Bytes) (input : Bytes) (rmc : RMC),
      parse input = .ok (.RMC rmc) → Agrees decimalText rmc := by
  intro all
  have agrees := all (fun _ => [])
    (minimumAt (Zig.ascii "V") (Zig.ascii "4530.0000,N,12230.0000,W"))
    (minimumOf 86 (some (.finite (91 / 2))) (some (.finite (-(245 / 2))))) (by decide +kernel)
  cases agrees.void rfl

/-- A valid sentence without a position trips the unwrap. -/
example : parse (minimumAt (Zig.ascii "A") (Zig.ascii ",,,")) = .ok (.RMC (minimumOf 65 none none)) ∧
    ¬ NoPanic (logRMC (fun _ => []) (minimumOf 65 none none)) := by decide +kernel

end WatershedOracle.Nmea
