import WatershedOracle.NmeaSafety
import WatershedOracle.NmeaSentences

set_option autoImplicit false

/-! Which sentences yield a position on Earth: those whose coordinates are spelled as
the source documents them, which the parser does not check. -/

namespace WatershedOracle.Nmea

open Effect Zig

/-! ### The coordinates of a sentence -/

/-- The four coordinate fields of a sentence. -/
structure Coordinates where
  latitudeMag : Bytes
  latitudeDir : Bytes
  longitudeMag : Bytes
  longitudeDir : Bytes

def coordinatesFrom (fields : List Bytes) (k : Nat) : Coordinates :=
  ⟨field fields k, field fields (k + 1), field fields (k + 2), field fields (k + 3)⟩

/-- They begin at field 2 of an RMC sentence, at field 1 of a GGA sentence. -/
def coordinatesOf (input : Bytes) : Coordinates :=
  let code := (interpreted input).takeWhile (· ≠ comma)
  coordinatesFrom (fieldsOf (interpreted input))
    (if code.drop 2 = SentenceFormatter.RMC.letters then 2 else 1)

/-- The two coordinates are what `parseLatLon` makes of their fields. -/
def ReadAs (c : Coordinates) (latitude longitude : Option F64) : Prop :=
  parseLatLon c.latitudeMag c.latitudeDir = .ok latitude ∧
    parseLatLon c.longitudeMag c.longitudeDir = .ok longitude

section Fields

variable {α : Type} {fields : List Bytes} {k : Nat}

theorem returns_next {Q : Bytes → List Bytes → Prop} :
    Ends next (fields.drop k) Q (fun _ _ => True) ↔
      (k < fields.length → Q (field fields k) (fields.drop (k + 1))) := by
  rw [ends_next_iff]
  by_cases inside : k < fields.length <;> simp [inside]

theorem returns_lift (x : Parsed α) {s : List Bytes} {Q : α → List Bytes → Prop} :
    Ends (lift x) s Q (fun _ _ => True) ↔ ∀ a, x = .ok a → Q a s := by
  cases x <;> simp [lift]

theorem returns_firstByte (bytes : Bytes) {s : List Bytes} {Q : UInt8 → List Bytes → Prop} :
    Ends (firstByte bytes) s Q (fun _ _ => True) ↔ ∀ byte ∈ bytes.head?, Q byte s := by
  cases bytes <;> simp [firstByte]

theorem readGGA_reads (fields : List Bytes) :
    Ends readGGA (fields.drop 0) (fun sentence _ => ∃ gga, sentence = .GGA gga ∧
      ReadAs (coordinatesFrom fields 1) gga.latitude gga.longitude) (fun _ _ => True) := by
  simp only [readGGA, ends_bind, returns_next, returns_lift, returns_firstByte, ends_pure]
  intro _ time _ _ _ latitude isLatitude _ _ longitude isLongitude
  intros
  exact ⟨_, rfl, isLatitude, isLongitude⟩

theorem readGSV_reads (fields : List Bytes) :
    Ends readGSV (fields.drop 0) (fun sentence _ => ∃ gsv, sentence = .GSV gsv)
      (fun _ _ => True) := by
  simp only [readGSV, ends_bind, returns_next, returns_lift, ends_pure]
  intros
  exact ⟨_, rfl⟩

theorem readRMC_reads (fields : List Bytes) :
    Ends readRMC (fields.drop 0) (fun sentence _ => ∃ rmc, sentence = .RMC rmc ∧
      ReadAs (coordinatesFrom fields 2) rmc.latitude rmc.longitude) (fun _ _ => True) := by
  simp only [readRMC, ends_bind, returns_next, returns_lift, returns_firstByte, ends_pure]
  intro _ time _ _ _ _ latitude isLatitude _ _ longitude isLongitude
  intros
  exact ⟨_, rfl, isLatitude, isLongitude⟩

/-- What the reader of the fields of a message returns. -/
theorem readFields_returns {x : Fields α} {msg : Bytes} {a : α} {Q : α → List Bytes → Prop}
    (ends : Ends x ((msg.splitOn comma).drop 0) Q (fun _ _ => True))
    (read : readFields x msg = .ok a) : ∃ left, Q a left := by
  unfold readFields at read
  cases runs : x.run (msg.splitOn comma) with
  | ok b left =>
    rw [runs] at read
    obtain rfl : b = a := Except.ok.inj read
    exact ⟨left, ends.returned runs⟩
  | error fault left =>
    rw [runs] at read
    cases read

end Fields

theorem extractPoint_GGA {gga : GGA} {x y : F64} (at_ : extractPoint (.GGA gga) = some (x, y)) :
    gga.latitude = some y ∧ gga.longitude = some x := by
  unfold extractPoint at at_
  cases isLatitude : gga.latitude <;> cases isLongitude : gga.longitude <;> simp_all

theorem extractPoint_RMC {rmc : RMC} {x y : F64} (at_ : extractPoint (.RMC rmc) = some (x, y)) :
    rmc.latitude = some y ∧ rmc.longitude = some x := by
  unfold extractPoint at at_
  cases isLatitude : rmc.latitude <;> cases isLongitude : rmc.longitude <;> simp_all

theorem parseGGA_reads {msg : Bytes} {sentence : Sentence} (parsed : parseGGA msg = .ok sentence) :
    ∃ gga, sentence = .GGA gga ∧
      ReadAs (coordinatesFrom (msg.splitOn comma) 1) gga.latitude gga.longitude := by
  obtain ⟨_, isGGA⟩ := readFields_returns (readGGA_reads _) parsed
  exact isGGA

theorem parseRMC_reads {msg : Bytes} {sentence : Sentence} (parsed : parseRMC msg = .ok sentence) :
    ∃ rmc, sentence = .RMC rmc ∧
      ReadAs (coordinatesFrom (msg.splitOn comma) 2) rmc.latitude rmc.longitude := by
  obtain ⟨_, isRMC⟩ := readFields_returns (readRMC_reads _) parsed
  exact isRMC

/-- A GGA or an RMC sentence comes from the reader of its formatter. -/
theorem parseNMEA_reader {text : Bytes} {sentence : Sentence}
    (parsed : parseNMEA text = .ok sentence) :
    let code := text.takeWhile (· ≠ comma)
    let msg := text.drop (code.length + 1)
    (∀ gga, sentence = .GGA gga →
      code.drop 2 = SentenceFormatter.GGA.letters ∧ parseGGA msg = .ok sentence) ∧
    (∀ rmc, sentence = .RMC rmc →
      code.drop 2 = SentenceFormatter.RMC.letters ∧ parseRMC msg = .ok sentence) := by
  dsimp only
  rcases parseNMEA_cases text with ⟨same, _⟩ | ⟨_, formatter, isLetters, same⟩
  · rw [same] at parsed
    cases parsed
  rw [same] at parsed
  cases formatter with
  | GGA =>
    obtain ⟨_, rfl, _⟩ := parseGGA_reads parsed
    exact ⟨fun _ _ => ⟨isLetters, parsed⟩, fun _ isRMC => (by cases isRMC)⟩
  | GSV =>
    obtain ⟨_, _, rfl⟩ := readFields_returns (readGSV_reads _) parsed
    exact ⟨fun _ isGGA => (by cases isGGA), fun _ isRMC => (by cases isRMC)⟩
  | RMC =>
    obtain ⟨_, rfl, _⟩ := parseRMC_reads parsed
    exact ⟨fun _ isGGA => (by cases isGGA), fun _ _ => ⟨isLetters, parsed⟩⟩
  | _ =>
    -- The other formatters have sentences without fields.
    cases parsed
    exact ⟨fun _ isGGA => (by cases isGGA), fun _ isRMC => (by cases isRMC)⟩

/-- A sentence with a point is a GGA or an RMC sentence. -/
theorem parseNMEA_located {text : Bytes} {sentence : Sentence} {point : F64 × F64}
    (parsed : parseNMEA text = .ok sentence) (at_ : extractPoint sentence = some point) :
    let code := text.takeWhile (· ≠ comma)
    let msg := text.drop (code.length + 1)
    (code.drop 2 = SentenceFormatter.GGA.letters ∧ parseGGA msg = .ok sentence) ∨
      (code.drop 2 = SentenceFormatter.RMC.letters ∧ parseRMC msg = .ok sentence) := by
  obtain ⟨readGGA, readRMC⟩ := parseNMEA_reader parsed
  cases sentence with
  | GGA gga => exact .inl (readGGA gga rfl)
  | RMC rmc => exact .inr (readRMC rmc rfl)
  | _ => cases at_

/-- Every sentence but a text is one of the dispatch. -/
theorem parse_interprets {input : Bytes} {sentence : Sentence}
    (parsed : parse input = .ok sentence) (other : sentence ≠ .TXT) :
    parseNMEA (interpreted input) = .ok sentence := by
  have interprets := (parse_pieces parsed).2
  unfold parseTrimmed at interprets
  split at interprets
  · cases interprets
    exact absurd rfl other
  split at interprets
  · cases interprets
    exact absurd rfl other
  · exact interprets

/-- The point of a sentence is what its coordinate fields are read as. -/
theorem parse_reads {input : Bytes} {sentence : Sentence} {x y : F64}
    (parsed : parse input = .ok sentence) (at_ : extractPoint sentence = some (x, y)) :
    ReadAs (coordinatesOf input) (some y) (some x) := by
  have other : sentence ≠ .TXT := by
    intro isTXT
    rw [isTXT] at at_
    cases at_
  unfold coordinatesOf fieldsOf
  dsimp only
  rcases parseNMEA_located (parse_interprets parsed other) at_ with ⟨isGGA, read⟩ | ⟨isRMC, read⟩
  · obtain ⟨gga, rfl, reads⟩ := parseGGA_reads read
    rw [isGGA, if_neg (by decide)]
    have fields := extractPoint_GGA at_
    rwa [fields.1, fields.2] at reads
  · obtain ⟨rmc, rfl, reads⟩ := parseRMC_reads read
    rw [isRMC, if_pos rfl]
    have fields := extractPoint_RMC at_
    rwa [fields.1, fields.2] at reads

/-! ### Positions on Earth -/

/-- The greatest angle of an axis, in degrees. -/
def Axis.limit : Axis → Nat
  | .latitude => 90
  | .longitude => 180

/-- A coordinate is spelled as the source documents it: degrees, two digits of minutes
below 60 and their decimals, with a direction of its axis. -/
def Documented (axis : Axis) (mag dir : Bytes) : Prop :=
  ∃ (m : Magnitude) (negative : Bool),
    mag = m.text ∧ dir = [axis.letter negative] ∧ m.wholeMinutes < 60

/-- A coordinate on Earth, negative where its direction says so. -/
structure RealCoordinate (axis : Axis) (mag dir : Bytes) (value : F64) : Prop where
  finite : value.isFinite
  above : F64.le (.finite (-axis.limit)) value
  below : F64.le value (.finite axis.limit)
  sign : value.lt (.finite 0) ↔ dir = [axis.letter true] ∧ value ≠ .finite 0
  documented : Documented axis mag dir

structure RealPosition (c : Coordinates) (x y : F64) : Prop where
  latitude : RealCoordinate .latitude c.latitudeMag c.latitudeDir y
  longitude : RealCoordinate .longitude c.longitudeMag c.longitudeDir x

/-! ### The checks that are missing -/

def beforeDot (mag : Bytes) : Bytes := mag.takeWhile (· ≠ dot)

def afterDot (mag : Bytes) : Bytes := mag.drop ((beforeDot mag).length + 1)

def degreeBytes (mag : Bytes) : Bytes := (beforeDot mag).take ((beforeDot mag).length - 2)

def minuteBytes (mag : Bytes) : Bytes := (beforeDot mag).drop ((beforeDot mag).length - 2)

/-- The number that a text of digits writes. -/
def numeral (text : Bytes) : Nat := Zig.digitsValue (Zig.readDigits text)

/-- What `parseLatLon` would have to check of a magnitude and a direction. -/
structure Checked (axis : Axis) (mag dir : Bytes) : Prop where
  direction : dir = [axis.letter false] ∨ dir = [axis.letter true]
  digits : ∀ byte ∈ beforeDot mag ++ afterDot mag, Json.isDigit byte = true
  wide : (beforeDot mag).length = 4 ∨ (beforeDot mag).length = 5
  fine : 4 ≤ (afterDot mag).length ∧ (afterDot mag).length ≤ 6
  minutes : numeral (minuteBytes mag) < 60
  degrees : numeral (degreeBytes mag) < axis.limit ∨
    numeral (degreeBytes mag) = axis.limit ∧ numeral (minuteBytes mag ++ afterDot mag) = 0

instance (axis : Axis) (mag dir : Bytes) : Decidable (Checked axis mag dir) :=
  decidable_of_iff
    ((dir = [axis.letter false] ∨ dir = [axis.letter true]) ∧
      (beforeDot mag ++ afterDot mag).all Json.isDigit = true ∧
      ((beforeDot mag).length = 4 ∨ (beforeDot mag).length = 5) ∧
      (4 ≤ (afterDot mag).length ∧ (afterDot mag).length ≤ 6) ∧
      numeral (minuteBytes mag) < 60 ∧
      (numeral (degreeBytes mag) < axis.limit ∨
        numeral (degreeBytes mag) = axis.limit ∧ numeral (minuteBytes mag ++ afterDot mag) = 0))
    ⟨fun ⟨a, b, c, d, e, f⟩ => ⟨a, List.all_eq_true.mp b, c, d, e, f⟩,
      fun ⟨a, b, c, d, e, f⟩ => ⟨a, List.all_eq_true.mpr b, c, d, e, f⟩⟩

/-- Both coordinates of a sentence pass. -/
def CoordinatesChecked (c : Coordinates) : Prop :=
  Checked .latitude c.latitudeMag c.latitudeDir ∧ Checked .longitude c.longitudeMag c.longitudeDir

instance (c : Coordinates) : Decidable (CoordinatesChecked c) :=
  inferInstanceAs (Decidable (_ ∧ _))

namespace Magnitude

variable (m : Magnitude)

/-- The angle does not exceed a number of degrees. -/
def Within (limit : Nat) : Prop :=
  digitsValue m.degrees < limit ∨ digitsValue m.degrees = limit ∧ m.fineMinutes = 0

theorem angle_le_iff (small : m.wholeMinutes < 60) (limit : Nat) :
    m.angle ≤ limit ↔ m.Within limit := by
  have nonneg := m.minutes_nonneg
  have belowSixty : m.minutes < 60 := by
    have whole : (m.wholeMinutes : ℚ) + 1 ≤ 60 := by exact_mod_cast small
    have minutes := m.minutes_lt
    linarith
  have belowOne : m.minutes / 60 < 1 := by linarith
  unfold Within angle
  constructor
  · intro bounded
    have whole : (digitsValue m.degrees : ℚ) ≤ limit := by linarith
    have whole : digitsValue m.degrees ≤ limit := by exact_mod_cast whole
    rcases Nat.lt_or_eq_of_le whole with below | same
    · exact .inl below
    · have none_ : m.minutes = 0 := by
        rw [same] at bounded
        linarith
      exact .inr ⟨same, m.minutes_eq_zero.mp none_⟩
  · rintro (below | ⟨same, none_⟩)
    · have below : (digitsValue m.degrees : ℚ) + 1 ≤ limit := by exact_mod_cast below
      linarith
    · rw [same, m.minutes_eq_zero.mpr none_]
      linarith

theorem signed_bounds {limit : ℚ} (bounded : m.angle ≤ limit) (negative : Bool) :
    -limit ≤ m.signed negative ∧ m.signed negative ≤ limit := by
  have nonneg := m.angle_nonneg
  cases negative with
  | false =>
    show -limit ≤ m.angle ∧ m.angle ≤ limit
    constructor <;> linarith
  | true =>
    show -limit ≤ -m.angle ∧ -m.angle ≤ limit
    constructor <;> linarith

/-- A nonzero angle is negative where its letter is that of the negative direction. -/
theorem signed_lt_iff (axis : Axis) (negative : Bool) :
    (F64.finite (m.signed negative)).lt (.finite 0) ↔
      [axis.letter negative] = [axis.letter true] ∧
        F64.finite (m.signed negative) ≠ .finite 0 := by
  have nonneg := m.angle_nonneg
  cases negative with
  | false =>
    have other : axis.letter false ≠ axis.letter true := by cases axis <;> decide
    simp [F64.lt, signed, other, nonneg]
  | true =>
    have positive : 0 < m.angle ↔ m.angle ≠ 0 := by
      constructor
      · exact ne_of_gt
      · intro nonzero
        exact lt_of_le_of_ne nonneg nonzero.symm
    simp [F64.lt, signed, positive]

/-! The pieces of a magnitude as it is written. -/

theorem beforeDot_text : beforeDot m.text = digitsText (m.degrees ++ [m.tens, m.ones]) := by
  have digits : ∀ byte ∈ digitsText (m.degrees ++ [m.tens, m.ones]),
      decide (byte ≠ dot) = true := by
    intro byte member
    apply decide_eq_true
    rintro rfl
    exact not_mem_digitsText (by decide) member
  rw [beforeDot, text_eq, List.takeWhile_append_of_pos digits, List.takeWhile_cons_of_neg (by simp),
    List.append_nil]

theorem afterDot_text : afterDot m.text = digitsText m.fraction := by
  rw [afterDot, beforeDot_text, text_eq, List.drop_append]
  simp

theorem degreeBytes_text : degreeBytes m.text = digitsText m.degrees := by
  rw [degreeBytes, beforeDot_text, length_digitsText, List.length_append, digitsText_append]
  exact List.take_left' (length_digitsText _)

theorem minuteBytes_text : minuteBytes m.text = digitsText [m.tens, m.ones] := by
  rw [minuteBytes, beforeDot_text, length_digitsText, List.length_append, digitsText_append]
  exact List.drop_left' (length_digitsText _)

end Magnitude

theorem numeral_digitsText (digits : List Digit) :
    numeral (digitsText digits) = digitsValue digits := by
  rw [numeral, readDigits_digitsText]

theorem isDigit_digitsText {digits : List Digit} :
    ∀ byte ∈ digitsText digits, Json.isDigit byte = true := by
  intro byte member
  obtain ⟨low, high⟩ := mem_digitsText member
  simp [Json.isDigit, low, high]

/-- On a magnitude of the documented form, what is left to check are its letter and its size. -/
theorem checked_text (axis : Axis) (m : Magnitude) (dir : Bytes) :
    Checked axis m.text dir ↔
      (∃ negative, dir = [axis.letter negative]) ∧ m.wholeMinutes < 60 ∧ m.Within axis.limit := by
  have minutes : numeral (minuteBytes m.text) = m.wholeMinutes := by
    rw [m.minuteBytes_text, numeral_digitsText]
    rfl
  have degrees : numeral (degreeBytes m.text) = digitsValue m.degrees := by
    rw [m.degreeBytes_text, numeral_digitsText]
  have fine : numeral (minuteBytes m.text ++ afterDot m.text) = m.fineMinutes := by
    rw [m.minuteBytes_text, m.afterDot_text, ← digitsText_append, numeral_digitsText]
    rfl
  constructor
  · intro checked
    have bounded := checked.degrees
    rw [degrees, fine] at bounded
    refine ⟨?_, minutes ▸ checked.minutes, bounded⟩
    rcases checked.direction with positive | negative
    · exact ⟨false, positive⟩
    · exact ⟨true, negative⟩
  · rintro ⟨⟨negative, isDir⟩, small, within⟩
    constructor
    case direction => cases negative <;> simp [isDir]
    case digits =>
      rw [m.beforeDot_text, m.afterDot_text, ← digitsText_append]
      exact isDigit_digitsText
    case wide =>
      rw [m.beforeDot_text, length_digitsText, List.length_append]
      have wide := m.wide
      simp only [List.length_cons, List.length_nil]
      omega
    case fine =>
      rw [m.afterDot_text, length_digitsText]
      exact m.fine
    case minutes => rwa [minutes]
    case degrees =>
      rw [degrees, fine]
      exact within

theorem split_dot (mag : Bytes) (some_ : afterDot mag ≠ []) :
    mag = beforeDot mag ++ dot :: afterDot mag := by
  induction mag with
  | nil => exact absurd rfl some_
  | cons c rest ih =>
    by_cases isDot : c = dot
    · rw [isDot]
      rfl
    · have front : beforeDot (c :: rest) = c :: beforeDot rest :=
        List.takeWhile_cons_of_pos (decide_eq_true isDot)
      have back : afterDot (c :: rest) = afterDot rest := by
        rw [afterDot, front]
        rfl
      rw [back] at some_
      rw [front, back, List.cons_append, ← ih some_]

/-- The checked bytes are those of a magnitude. -/
theorem Checked.exists_magnitude {axis : Axis} {mag dir : Bytes} (checked : Checked axis mag dir) :
    ∃ m : Magnitude, mag = m.text := by
  have wide := checked.wide
  have fine := checked.fine
  have split := split_dot mag (List.ne_nil_of_length_pos (by omega))
  have whole : digitsText (readDigits (beforeDot mag)) = beforeDot mag :=
    digitsText_readDigits fun byte member => checked.digits byte (List.mem_append_left _ member)
  have fraction : digitsText (readDigits (afterDot mag)) = afterDot mag :=
    digitsText_readDigits fun byte member => checked.digits byte (List.mem_append_right _ member)
  have sameLength : (readDigits (beforeDot mag)).length = (beforeDot mag).length :=
    List.length_map _
  have sameDecimals : (readDigits (afterDot mag)).length = (afterDot mag).length :=
    List.length_map _
  obtain ⟨degrees, tens, ones, shape⟩ : ∃ degrees tens ones,
      readDigits (beforeDot mag) = degrees ++ [tens, ones] := by
    generalize readDigits (beforeDot mag) = digits at sameLength
    match digits with
    | [] | [_] | [_, _] | [_, _, _] => simp at sameLength; omega
    | [a, b, c, d] => exact ⟨[a, b], c, d, rfl⟩
    | [a, b, c, d, e] => exact ⟨[a, b, c], d, e, rfl⟩
    | _ :: _ :: _ :: _ :: _ :: _ :: _ => simp at sameLength; omega
  have degreesWide : degrees.length = 2 ∨ degrees.length = 3 := by
    rw [shape, List.length_append] at sameLength
    simp only [List.length_cons, List.length_nil] at sameLength
    omega
  refine ⟨⟨degrees, tens, ones, readDigits (afterDot mag), degreesWide, by omega⟩, ?_⟩
  rw [Magnitude.text_eq, ← shape, whole, fraction]
  exact split

/-- A coordinate is on Earth, and spelled as documented, exactly when it passes the checks. -/
theorem realCoordinate_iff {axis : Axis} {mag dir : Bytes} {value : F64}
    (read : parseLatLon mag dir = .ok (some value)) :
    RealCoordinate axis mag dir value ↔ Checked axis mag dir := by
  constructor
  · intro real
    obtain ⟨m, negative, rfl, isDir, small⟩ := real.documented
    rw [isDir, parseLatLon_text] at read
    obtain rfl : F64.finite (m.signed negative) = value := Option.some.inj (Except.ok.inj read)
    have above := real.above
    have below := real.below
    simp only [F64.le, decide_eq_true_eq] at above below
    apply (checked_text axis m dir).mpr
    refine ⟨⟨negative, isDir⟩, small, (m.angle_le_iff small _).mp ?_⟩
    cases negative with
    | false => exact below
    | true => exact neg_le_neg_iff.mp above
  · intro checked
    obtain ⟨m, rfl⟩ := checked.exists_magnitude
    obtain ⟨⟨negative, isDir⟩, small, within⟩ := (checked_text axis m dir).mp checked
    have bounded := (m.angle_le_iff small _).mpr within
    rw [isDir, parseLatLon_text] at read
    obtain rfl : F64.finite (m.signed negative) = value := Option.some.inj (Except.ok.inj read)
    obtain ⟨above, below⟩ := m.signed_bounds bounded negative
    constructor
    case finite => rfl
    case above => exact decide_eq_true above
    case below => exact decide_eq_true below
    case sign =>
      rw [isDir]
      exact m.signed_lt_iff axis negative
    case documented => exact ⟨m, negative, rfl, isDir, small⟩

/-- Exactly when an accepted sentence hands on a position on Earth that is spelled as
documented: when its coordinate fields pass the checks that the parser leaves out. -/
theorem realPosition_iff (input : Bytes) (sentence : Sentence) (x y : F64)
    (parsed : parse input = .ok sentence) (at_ : extractPoint sentence = some (x, y)) :
    RealPosition (coordinatesOf input) x y ↔ CoordinatesChecked (coordinatesOf input) := by
  obtain ⟨latitude, longitude⟩ := parse_reads parsed at_
  constructor
  · intro real
    exact ⟨(realCoordinate_iff latitude).mp real.latitude,
      (realCoordinate_iff longitude).mp real.longitude⟩
  · intro checked
    exact ⟨(realCoordinate_iff latitude).mpr checked.1,
      (realCoordinate_iff longitude).mpr checked.2⟩

/-- `$GPGGA,123000.000,<latitude>,N,12230.0000,W,1,08,,,M,,M` with its checksum. -/
def sentenceAt (latitude : Bytes) : Bytes :=
  (Frame.standard (Zig.ascii "GPGGA,123000.000," ++ latitude ++
    Zig.ascii ",N,12230.0000,W,1,08,,,M,,M") true).text

def locatedAt (latitude : ℚ) : Sentence :=
  .GGA ⟨⟨12, 30, 0, 0⟩, some (.finite latitude), some (.finite (-(245 / 2))), 49, 8,
    none, none, none⟩

/-- 45 degrees and 30 minutes. -/
theorem realPosition_inside :
    RealPosition (coordinatesOf (sentenceAt (Zig.ascii "4530.0000")))
      (.finite (-(245 / 2))) (.finite (91 / 2)) :=
  (realPosition_iff _ (locatedAt (91 / 2)) _ _ (by decide +kernel) rfl).mpr (by decide +kernel)

/-- 91 degrees are handed on. -/
theorem realPosition_fails :
    ¬ ∀ (input : Bytes) (sentence : Sentence) (x y : F64), parse input = .ok sentence →
      extractPoint sentence = some (x, y) → RealPosition (coordinatesOf input) x y := by
  intro all
  have real := all (sentenceAt (Zig.ascii "9100.0000")) (locatedAt 91) _ _ (by decide +kernel) rfl
  have outside : ¬ F64.le (.finite 91) (.finite (Axis.latitude.limit : ℚ)) = true := by decide
  exact outside real.latitude.below

end WatershedOracle.Nmea
