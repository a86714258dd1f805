import WatershedOracle.Nmea

set_option autoImplicit false

/-! Which inputs make the NMEA parser trip a safety check: the ones on which an
unchecked slice, index or unwrap is reached before a check has rejected them. -/

namespace WatershedOracle.Nmea

open Effect

/-- The parser returned a value or an error it raised itself. -/
def NoPanic {α : Type} (x : Parsed α) : Prop := ∀ check, x ≠ .error (.panic check)

instance {α : Type} (x : Parsed α) : Decidable (NoPanic x) :=
  match x with
  | .ok _ => isTrue nofun
  | .error (.error _) => isTrue nofun
  | .error (.panic check) => isFalse fun calm => calm check rfl

def Accepts {α : Type} (x : Parsed α) : Prop := ∃ a, x = .ok a

section NoPanic

variable {α β : Type}

@[simp] theorem noPanic_ok (a : α) : NoPanic (.ok a : Parsed α) := nofun

@[simp] theorem noPanic_invalidNMEA : NoPanic (invalidNMEA : Parsed α) := nofun

@[simp] theorem not_noPanic_panic (check : SafetyCheck) : ¬ NoPanic (panic check : Parsed α) :=
  fun calm => calm check rfl

theorem noPanic_bind (x : Parsed α) (f : α → Parsed β) :
    NoPanic (x >>= f) ↔ NoPanic x ∧ ∀ a, x = .ok a → NoPanic (f a) := by
  cases x with
  | ok a => simp [Bind.bind, Except.bind]
  | error fault => simp [NoPanic, Bind.bind, Except.bind]

@[simp] theorem noPanic_ofParse (x : Except Zig.ParseError α) : NoPanic (ofParse x) := by
  rcases x with (_ | _) | _ <;> nofun

@[simp] theorem noPanic_parseFloat (width : F64.Width) (s : Bytes) :
    NoPanic (parseFloat width s) :=
  noPanic_ofParse _

@[simp] theorem noPanic_parseUTC (utc : Bytes) : NoPanic (parseUTC utc) := by
  unfold parseUTC
  split
  · exact noPanic_invalidNMEA
  · simp only [noPanic_bind, noPanic_ofParse, true_and]
    intros
    exact noPanic_ok _

@[simp] theorem noPanic_parseDate (date : Bytes) : NoPanic (parseDate date) := by
  unfold parseDate
  split
  · exact noPanic_invalidNMEA
  · simp only [noPanic_bind, noPanic_ofParse, true_and]
    intros
    exact noPanic_ok _

/-- A coordinate whose dot is looked at does not have it among its first two bytes. -/
def DotSafe (mag dir : Bytes) : Prop :=
  dir.length = 1 → 9 ≤ mag.length → dot ∉ mag.take 2

instance (mag dir : Bytes) : Decidable (DotSafe mag dir) :=
  inferInstanceAs (Decidable (_ → _ → _))

theorem findIdx_lt_two {mag : Bytes} {i : Nat} (found : mag.findIdx? (· == dot) = some i) :
    i < 2 ↔ dot ∈ mag.take 2 := by
  obtain ⟨inside, isDot, before⟩ := List.findIdx?_eq_some_iff_getElem.mp found
  constructor
  · intro early
    exact List.mem_iff_getElem.mpr ⟨i, by simp; omega, by simpa using isDot⟩
  · intro member
    obtain ⟨j, small, at_⟩ := List.mem_iff_getElem.mp member
    have two : j < 2 ∧ j < mag.length := by simpa using small
    by_contra late
    have other := before j (by omega)
    simp only [List.getElem_take] at at_
    simp [at_] at other

/-- The slice before the minutes underflows exactly where the dot comes too early. -/
theorem noPanic_parseLatLon (mag dir : Bytes) :
    NoPanic (parseLatLon mag dir) ↔ DotSafe mag dir := by
  unfold parseLatLon DotSafe
  split
  · simp_all
  split
  · simp_all
  split
  · simp only [noPanic_invalidNMEA, true_iff]
    omega
  split
  · simp only [noPanic_invalidNMEA, true_iff]
    omega
  have one : dir.length = 1 := by omega
  have long : 9 ≤ mag.length := by omega
  simp only [one, long, forall_const]
  split
  · rename_i absent
    have missing : dot ∉ mag := fun member => by
      simpa using List.findIdx?_eq_none_iff.mp absent dot member
    simp only [noPanic_invalidNMEA, true_iff]
    exact fun member => missing (List.mem_of_mem_take member)
  · rename_i i found
    rw [← findIdx_lt_two found]
    split
    · rename_i early
      simp [early]
    · rename_i late
      simp only [noPanic_bind, noPanic_parseFloat, true_and, late, not_false_eq_true, iff_true]
      intros
      split <;> simp [pure, Except.pure]

end NoPanic

/-! ### Reading fields -/

/-- Field `k` of a message, empty when there is none. -/
def field (fields : List Bytes) (k : Nat) : Bytes := fields.getD k []

/-- A stage of a field reader: how many fields it has asked for, what its unchecked
operations rely on, and when its own checks let the reader go on. -/
structure Stage where
  taken : Nat
  safe : List Bytes → Prop
  accepts : List Bytes → Prop

/-- Every stage that is reached finds its fields and its unchecked operations safe. -/
def Guarded : List Stage → List Bytes → Prop
  | [], _ => True
  | stage :: rest, fields =>
      stage.taken ≤ fields.length ∧ stage.safe fields ∧ (stage.accepts fields → Guarded rest fields)

section Fields

variable {α : Type} {fields : List Bytes} {k : Nat}

/-- A fault other than a safety check. -/
def Raised (fault : Fault) (_ : List Bytes) : Prop := ∀ check, fault ≠ .panic check

/-- Unwrapping the field that is not there trips a safety check. -/
theorem ends_next_iff {Q : Bytes → List Bytes → Prop} {E : Fault → List Bytes → Prop} :
    Ends next (fields.drop k) Q E ↔
      if k < fields.length then Q (field fields k) (fields.drop (k + 1))
      else E (.panic .nullUnwrap) [] := by
  unfold next
  rw [ends_bind, ends_get]
  by_cases inside : k < fields.length
  · rw [List.drop_eq_getElem_cons inside, if_pos inside, field, List.getD_eq_getElem?_getD,
      List.getElem?_eq_getElem inside, Option.getD_some]
    rfl
  · rw [List.drop_eq_nil_of_le (by omega), if_neg inside]
    rfl

theorem ends_next {Q : Bytes → List Bytes → Prop} :
    Ends next (fields.drop k) Q Raised ↔
      k < fields.length ∧ Q (field fields k) (fields.drop (k + 1)) := by
  rw [ends_next_iff]
  by_cases inside : k < fields.length
  · simp [inside]
  · simp [inside, Raised]

theorem ends_lift (x : Parsed α) {s : List Bytes} {Q : α → List Bytes → Prop} :
    Ends (lift x) s Q Raised ↔ NoPanic x ∧ ∀ a, x = .ok a → Q a s := by
  cases x with
  | ok a => simp [lift]
  | error fault => simp [lift, NoPanic, Raised]

theorem ends_firstByte (bytes : Bytes) {s : List Bytes} {Q : UInt8 → List Bytes → Prop} :
    Ends (firstByte bytes) s Q Raised ↔ bytes ≠ [] ∧ ∀ byte ∈ bytes.head?, Q byte s := by
  cases bytes <;> simp [firstByte, Raised]

theorem forall_accepts (x : Parsed α) (P : Prop) :
    (∀ a, x = .ok a → P) ↔ (Accepts x → P) :=
  ⟨fun all ⟨a, isOk⟩ => all a isOk, fun all a isOk => all ⟨a, isOk⟩⟩

theorem noPanic_readFields (x : Fields α) (msg : Bytes) :
    NoPanic (readFields x msg) ↔
      Ends x ((msg.splitOn comma).drop 0) (fun _ _ => True) Raised := by
  unfold readFields Ends
  rw [List.drop_zero]
  cases x.run (msg.splitOn comma) with
  | ok a s => simp
  | error fault s => simp [NoPanic, Raised]

end Fields

/-- Twelve fields; the first byte of the quality is taken at the end. -/
def ggaStages : List Stage :=
  [⟨1, fun _ => True, fun f => Accepts (parseUTC (field f 0))⟩,
    ⟨3, fun f => DotSafe (field f 1) (field f 2),
      fun f => Accepts (parseLatLon (field f 1) (field f 2))⟩,
    ⟨5, fun f => DotSafe (field f 3) (field f 4),
      fun f => Accepts (parseLatLon (field f 3) (field f 4))⟩,
    ⟨7, fun _ => True, fun f => Accepts (ofParse (Zig.parseUnsigned Zig.u8 (field f 6) 10))⟩,
    ⟨12, fun f => field f 5 ≠ [], fun _ => True⟩]

/-- Three fields. -/
def gsvStages : List Stage := [⟨3, fun _ => True, fun _ => True⟩]

/-- Eleven fields; the first byte of the status is taken at the end. -/
def rmcStages : List Stage :=
  [⟨1, fun _ => True, fun f => Accepts (parseUTC (field f 0))⟩,
    ⟨4, fun f => DotSafe (field f 2) (field f 3),
      fun f => Accepts (parseLatLon (field f 2) (field f 3))⟩,
    ⟨6, fun f => DotSafe (field f 4) (field f 5),
      fun f => Accepts (parseLatLon (field f 4) (field f 5))⟩,
    ⟨7, fun _ => True, fun f => Accepts (parseFloat .f32 (field f 6))⟩,
    ⟨8, fun _ => True, fun f => Accepts (parseFloat .f32 (field f 7))⟩,
    ⟨9, fun _ => True, fun f => Accepts (parseDate (field f 8))⟩,
    ⟨11, fun f => field f 1 ≠ [], fun _ => True⟩]

/-! In each of the three proofs the reader unfolds into the chain of its fields; what
is left compares two bounds on their number under the same accepted checks. -/

theorem noPanic_parseGGA (msg : Bytes) :
    NoPanic (parseGGA msg) ↔ Guarded ggaStages (msg.splitOn comma) := by
  simp only [parseGGA, noPanic_readFields, readGGA, ends_bind, ends_next, ends_lift, ends_pure,
    ends_firstByte, forall_accepts, noPanic_ofParse, noPanic_parseUTC, noPanic_parseLatLon,
    Guarded, ggaStages]
  grind

theorem noPanic_parseGSV (msg : Bytes) :
    NoPanic (parseGSV msg) ↔ Guarded gsvStages (msg.splitOn comma) := by
  simp only [parseGSV, noPanic_readFields, readGSV, ends_bind, ends_next, ends_lift, ends_pure,
    forall_accepts, noPanic_ofParse, Guarded, gsvStages]
  grind

theorem noPanic_parseRMC (msg : Bytes) :
    NoPanic (parseRMC msg) ↔ Guarded rmcStages (msg.splitOn comma) := by
  simp only [parseRMC, noPanic_readFields, readRMC, ends_bind, ends_next, ends_lift, ends_pure,
    ends_firstByte, forall_accepts, noPanic_parseFloat, noPanic_parseUTC, noPanic_parseDate,
    noPanic_parseLatLon, Guarded, rmcStages]
  grind

/-! ### Sentences -/

theorem SentenceFormatter.letters_inj (a b : SentenceFormatter) :
    a.letters = b.letters ↔ a = b := by
  cases a <;> cases b <;> decide

/-- The stages of the sentences whose fields are read; the others have none. -/
def SentenceFormatter.stages : SentenceFormatter → List Stage
  | .GGA => ggaStages
  | .GSV => gsvStages
  | .RMC => rmcStages
  | _ => []

/-- The fields after the code of a sentence. -/
def fieldsOf (input : Bytes) : List Bytes :=
  (input.drop ((input.takeWhile (· ≠ comma)).length + 1)).splitOn comma

/-- A proprietary sentence, a code of another length, or a guarded sentence. -/
def SentenceSafe (input : Bytes) : Prop :=
  ¬ pmtkPrefix <+: input → ¬ pqPrefix <+: input →
    (input.takeWhile (· ≠ comma)).length = 5 →
      ∀ formatter : SentenceFormatter,
        (input.takeWhile (· ≠ comma)).drop 2 = formatter.letters →
          Guarded formatter.stages (fieldsOf input)

theorem noPanic_parseMessage (formatter : SentenceFormatter) (msg : Bytes) :
    NoPanic (formatter.parseMessage msg) ↔ Guarded formatter.stages (msg.splitOn comma) := by
  cases formatter with
  | GGA => exact noPanic_parseGGA msg
  | GSV => exact noPanic_parseGSV msg
  | RMC => exact noPanic_parseRMC msg
  | _ => exact iff_of_true (noPanic_ok _) trivial

theorem noPanic_parseNMEA (input : Bytes) :
    NoPanic (parseNMEA input) ↔ ((input.takeWhile (· ≠ comma)).length = 5 →
      ∀ formatter : SentenceFormatter,
        (input.takeWhile (· ≠ comma)).drop 2 = formatter.letters →
          Guarded formatter.stages (fieldsOf input)) := by
  rcases parseNMEA_cases input with ⟨same, none_⟩ | ⟨five, formatter, isLetters, same⟩
  · rw [same]
    simp only [noPanic_invalidNMEA, true_iff]
    intro five formatter isLetters
    exact absurd isLetters (none_ five formatter)
  · rw [same, noPanic_parseMessage, ← fieldsOf]
    constructor
    · intro guarded _ other isOther
      rwa [← (formatter.letters_inj other).mp (isLetters.symm.trans isOther)]
    · intro guarded
      exact guarded five formatter isLetters

theorem noPanic_parseTrimmed (input : Bytes) :
    NoPanic (parseTrimmed input) ↔ SentenceSafe input := by
  unfold parseTrimmed SentenceSafe
  split
  · rename_i isPMTK
    simp [isPMTK, parsePMTK]
  · split
    · rename_i isPQ
      simp [isPQ, parsePQ]
    · rename_i notPMTK notPQ
      simp only [notPMTK, notPQ, not_false_eq_true, forall_const]
      exact noPanic_parseNMEA input

theorem noPanic_validateChecksum (input : Bytes) : NoPanic (validateChecksum input) := by
  unfold validateChecksum
  split
  · exact noPanic_invalidNMEA
  · simp only [noPanic_bind, noPanic_ofParse, true_and]
    intro checksum _
    split
    · exact noPanic_invalidNMEA
    · split
      · exact noPanic_invalidNMEA
      · split <;> simp

/-- The checksum is rejected, or the trimmed text holds at least the star and two
characters, and its sentence reaches no unsafe operation. -/
def Safe (input : Bytes) : Prop :=
  Accepts (validateChecksum input) → 3 ≤ (trimmed input).length ∧
    SentenceSafe ((trimmed input).take ((trimmed input).length - 3))

/-- Exactly when `parse` returns a sentence or an error on a byte string. -/
theorem parse_noPanic_iff (input : Bytes) : NoPanic (parse input) ↔ Safe input := by
  unfold parse Safe
  rw [noPanic_bind, forall_accepts]
  simp only [noPanic_validateChecksum, true_and]
  split
  · rename_i short
    simp only [not_noPanic_panic, imp_false, not_le_of_gt short, false_and]
  · rename_i long
    simp only [noPanic_parseTrimmed, Nat.le_of_not_lt long, true_and]

/-- `$*0`: its checksum is right, and two characters are left to cut three from. -/
theorem parse_panics : ¬ NoPanic (parse [dollar, star, 48]) := by
  have overflow : parse [dollar, star, 48] = panic .integerOverflow := by decide +kernel
  exact fun calm => calm _ overflow

end WatershedOracle.Nmea
