import WatershedOracle.Boxes
import WatershedOracle.PlainSearch

set_option autoImplicit false

/-! Which table contents make `search` trip a safety check: the ones whose rows hold a
NULL text, a blob that is no WKB, or a code too long, before the search has ended. -/

namespace WatershedOracle

open Effect

variable {γ : Type}

/-- The same tables and the same GEOS, under other outcomes of SQLite and the allocator. -/
def Externals.under (env : Externals γ) (sqliteFails : Nat → Option FailureCode)
    (allocates : Nat → Bool) : Externals γ :=
  { env with sqliteFails, allocates }

/-- Whatever SQLite and the allocator do, the search trips no safety check. -/
def NeverTrips (env : Externals γ) (hucLevel tableName : String) (likePattern : Bytes)
    (m : Machine γ) : Prop :=
  ∀ sqliteFails allocates check m',
    (search (env.under sqliteFails allocates) hucLevel tableName likePattern).run m ≠
      .error (.panic check) m'

/-- The geometry of the row covers the query geometry. -/
def Row.covering (env : Externals γ) (point : γ) (row : Row) : Bool :=
  (env.wkbReader (row.shape.drop headerSize)).any fun geom => env.covers 0 geom point == 1

theorem covering_iff {env : Externals γ} {point geom : γ} {row : Row}
    (parsed : env.wkbReader (row.shape.drop headerSize) = some geom) :
    row.covering env point = true ↔ env.covers 0 geom point = 1 := by
  simp [Row.covering, parsed]

section Rows

variable (env : Externals γ) (point : γ) (bounds : Bounds)

/-- The envelope of the row lets the query geometry through. -/
def Row.Meets (row : Row) : Prop :=
  headerSize ≤ row.shape.length ∧ (EnvelopeXY.ofShape row.shape).misses bounds = false

/-- The search goes on after this row when no call fails. -/
structure Row.PassedOver (row : Row) : Prop where
  header : headerSize ≤ row.shape.length
  outside : row.Meets bounds → ∀ geom,
    env.wkbReader (row.shape.drop headerSize) = some geom → env.covers 0 geom point ≠ 1

/-- What the search asks of a row that it comes to. -/
structure Row.Harmless (row : Row) : Prop where
  huc : row.huc ≠ none
  name : row.name ≠ none
  wkb : row.Meets bounds → env.wkbReader (row.shape.drop headerSize) ≠ none
  fits : row.Meets bounds → ∀ geom, env.wkbReader (row.shape.drop headerSize) = some geom →
    env.covers 0 geom point = 1 → ∀ code, row.huc = some code → code.length ≤ 16

/-- Every row that the search comes to is harmless. -/
def HarmlessRows (rows : List Row) : Prop :=
  ∀ before row rest, rows = before ++ row :: rest →
    (∀ other ∈ before, other.PassedOver env point bounds) → row.Harmless env point bounds

end Rows

section Answer

variable {env : Externals γ} {point : γ} {bounds : Bounds} {row : Row} {rest : List Row}

theorem harmlessRows_nil : HarmlessRows env point bounds [] := by
  intro before row rest split
  simp at split

theorem harmlessRows_cons : HarmlessRows env point bounds (row :: rest) ↔
    row.Harmless env point bounds ∧
      (row.PassedOver env point bounds → HarmlessRows env point bounds rest) := by
  constructor
  · intro harmless
    refine ⟨harmless [] row rest rfl (by simp), ?_⟩
    intro passed before other back split earlier
    apply harmless (row :: before) other back (by rw [split]; rfl)
    exact List.forall_mem_cons.mpr ⟨passed, earlier⟩
  · rintro ⟨first, later⟩ before other back split earlier
    cases before with
    | nil =>
      obtain ⟨rfl, rfl⟩ := List.cons.inj split
      exact first
    | cons head before =>
      obtain ⟨rfl, rfl⟩ := List.cons.inj split
      obtain ⟨passed, others⟩ := List.forall_mem_cons.mp earlier
      exact later passed before other back rfl others

/-- A fault that is an error. -/
def Calm (fault : Fault) : Prop := ∀ check, fault ≠ .panic check

@[simp] theorem calm_error (e : ZigError) : Calm (.error e) := nofun

@[simp] theorem not_calm_panic (check : SafetyCheck) : ¬ Calm (.panic check) :=
  fun calm => calm check rfl

/-- A harmless row is read without tripping a check, and stored if it is found. -/
theorem judge_harmless_iff :
    ((∀ fault, row.judge env point bounds = .error fault → Calm fault) ∧
      (∀ geom, row.judge env point bounds = .ok (some geom) → row.region? env ≠ none)) ↔
      row.Harmless env point bounds := by
  constructor
  · rintro ⟨calm, stored⟩
    have huc : row.huc ≠ none := fun missing =>
      not_calm_panic _ (calm _ (judge_nameless (.inl missing)))
    have name : row.name ≠ none := fun missing =>
      not_calm_panic _ (calm _ (judge_nameless (.inr missing)))
    refine ⟨huc, name, ?_, ?_⟩
    · intro meets unparsed
      exact not_calm_panic _ (calm _ (judge_unparsed huc name meets.1 meets.2 unparsed))
    · intro meets geom parsed covers code isCode
      have judged := judge_parsed point huc name meets.1 meets.2 parsed
      rw [if_pos covers] at judged
      obtain ⟨text, isText⟩ := Option.ne_none_iff_exists'.mp name
      have region := stored geom judged
      simp only [Row.region?, isCode, isText, parsed] at region
      by_contra long
      exact region (dif_neg long)
  · intro harmless
    constructor
    · intro fault same
      unfold Row.judge at same
      split at same
      · rename_i missing
        rcases missing with missing | missing
        · exact absurd missing harmless.huc
        · exact absurd missing harmless.name
      · split at same
        · cases same
          exact calm_error _
        · rename_i long
          split at same
          · cases same
          · rename_i meets
            split at same
            · rename_i unparsed
              exact absurd unparsed
                (harmless.wkb ⟨Nat.le_of_not_lt long, by simpa using meets⟩)
            · cases same
    · intro geom judged
      have found := judge_some judged
      obtain ⟨code, isCode⟩ := Option.ne_none_iff_exists'.mp found.huc
      obtain ⟨text, isText⟩ := Option.ne_none_iff_exists'.mp found.name
      have fits := harmless.fits ⟨found.header, found.meets⟩ geom found.parsed found.covers
        code isCode
      simp [Row.region?, isCode, isText, found.parsed, fits]

/-- A harmless row is passed over where it is too far away, or read and found apart. -/
theorem judge_none_iff (harmless : row.Harmless env point bounds) :
    row.judge env point bounds = .ok none ↔ row.PassedOver env point bounds := by
  by_cases long : headerSize ≤ row.shape.length
  · cases misses : (EnvelopeXY.ofShape row.shape).misses bounds with
    | true =>
      have far : ¬ row.Meets bounds := fun meets => by
        rw [meets.2] at misses
        cases misses
      simp only [judge_misses harmless.huc harmless.name long misses, true_iff]
      exact ⟨long, fun meets => absurd meets far⟩
    | false =>
      obtain ⟨geom, parsed⟩ := Option.ne_none_iff_exists'.mp (harmless.wkb ⟨long, misses⟩)
      rw [judge_parsed _ harmless.huc harmless.name long misses parsed]
      constructor
      · intro apart
        refine ⟨long, fun _ other isParsed covers => ?_⟩
        obtain rfl : geom = other := Option.some.inj (parsed.symm.trans isParsed)
        rw [if_pos covers] at apart
        cases apart
      · intro passed
        rw [if_neg (passed.outside ⟨long, misses⟩ geom parsed)]
  · rw [judge_short harmless.huc harmless.name (Nat.lt_of_not_le long)]
    constructor
    · intro impossible
      cases impossible
    · intro passed
      exact absurd passed.header long

/-- A row from which the answer trips no check, whatever follows it. -/
theorem answerOf_cons_calm :
    (∀ fault, answerOf env point bounds (row :: rest) = .error fault → Calm fault) ↔
      row.Harmless env point bounds ∧ (row.PassedOver env point bounds →
        ∀ fault, answerOf env point bounds rest = .error fault → Calm fault) := by
  constructor
  · intro calm
    have harmless : row.Harmless env point bounds := by
      apply judge_harmless_iff.mp
      constructor
      · intro fault judged
        exact calm fault (by rw [answerOf, judged])
      · intro geom judged absent
        exact not_calm_panic _ (calm (.panic .indexOutOfBounds) (by rw [answerOf, judged, absent]))
    refine ⟨harmless, fun passed => ?_⟩
    rwa [answerOf, (judge_none_iff harmless).mpr passed] at calm
  · rintro ⟨harmless, later⟩ fault same
    obtain ⟨calm, stored⟩ := judge_harmless_iff.mpr harmless
    rw [answerOf] at same
    split at same
    · rename_i judged
      cases same
      exact calm _ judged
    · rename_i judged
      exact later ((judge_none_iff harmless).mp judged) fault same
    · rename_i geom judged
      split at same
      · cases same
      · rename_i absent
        exact absurd absent (stored geom judged)

/-- The rows decide whether the answer trips a check. -/
theorem answerOf_calm_iff (rows : List Row) :
    (∀ fault, answerOf env point bounds rows = .error fault → Calm fault) ↔
      HarmlessRows env point bounds rows := by
  induction rows with
  | nil =>
    refine ⟨fun _ => harmlessRows_nil, fun _ fault same => ?_⟩
    cases same
    exact calm_error _
  | cons row rest ih => rw [answerOf_cons_calm, harmlessRows_cons, ih]

end Answer

section Calm

variable {env : Externals γ} {m : Machine γ} {point : GeomPtr γ}

theorem Refused.calm {fault : Fault} (refused : Refused env fault) : Calm fault := by
  rcases refused.kind with rfl | ⟨e, rfl⟩
  · exact calm_error _
  · exact calm_error _

/-- Over harmless rows `search` returns a watershed or an error, whatever fails. -/
theorem search_calm (steady : env.Steady) (ordered : env.Ordered) (hucLevel tableName : String)
    (likePattern : Bytes) (harmless : HarmlessRows env point.geom m.stack.pointBounds
      (env.rows 0 ⟨hucLevel, tableName, likePattern⟩))
    (at_ : m.stack.point = some point) :
    Ends (search env hucLevel tableName likePattern) m (fun _ _ => True)
      (fun fault _ => Calm fault) := by
  apply (search_answers steady hucLevel tableName likePattern at_).mono
  · exact fun _ _ _ => trivial
  · rintro fault m' (refused | answered)
    · exact refused.calm
    · rw [ordered] at answered
      exact (answerOf_calm_iff _).mpr harmless fault answered

end Calm

/-- Over some rows `search` trips no safety check, whatever SQLite and the allocator do,
exactly when every row that it comes to is harmless. -/
theorem neverTrips_iff {env : Externals γ} (steady : env.Steady) (ordered : env.Ordered)
    (hucLevel tableName : String) (likePattern : Bytes) (m : Machine γ) (point : GeomPtr γ)
    (at_ : m.stack.point = some point) :
    NeverTrips env hucLevel tableName likePattern m ↔
      HarmlessRows env point.geom m.stack.pointBounds
        (env.rows 0 ⟨hucLevel, tableName, likePattern⟩) := by
  constructor
  · intro never
    -- No call fails, so the search comes to every row that any search comes to.
    let calmest := env.under (fun _ => none) (fun _ => true)
    have faultless : calmest.Faultless := ⟨fun _ => rfl, fun _ => rfl⟩
    have ends := search_answer faultless steady hucLevel tableName likePattern at_
    have rows : calmest.rows (m.calls + 2) ⟨hucLevel, tableName, likePattern⟩ =
        env.rows 0 ⟨hucLevel, tableName, likePattern⟩ := ordered _ _
    rw [rows] at ends
    have same : ∀ rows, HarmlessRows calmest point.geom m.stack.pointBounds rows →
        HarmlessRows env point.geom m.stack.pointBounds rows := by
      intro rows harmless before row rest split passed
      obtain ⟨huc, name, wkb, fits⟩ := harmless before row rest split fun other member =>
        ⟨(passed other member).header, (passed other member).outside⟩
      exact ⟨huc, name, wkb, fits⟩
    apply same
    apply (answerOf_calm_iff _).mp
    intro fault answered check panicked
    cases run : (search calmest hucLevel tableName likePattern).run m with
    | ok w m' =>
      cases answered.symm.trans (ends.returned run)
    | error raised m' =>
      cases answered.symm.trans (ends.failed run)
      exact never (fun _ => none) (fun _ => true) check m' (by rw [← panicked]; exact run)
  · intro harmless sqliteFails allocates check m' panicked
    have same : HarmlessRows (env.under sqliteFails allocates) point.geom m.stack.pointBounds
        (env.rows 0 ⟨hucLevel, tableName, likePattern⟩) := by
      intro before row rest split passed
      obtain ⟨huc, name, wkb, fits⟩ := harmless before row rest split fun other member =>
        ⟨(passed other member).header, (passed other member).outside⟩
      exact ⟨huc, name, wkb, fits⟩
    have steady' : (env.under sqliteFails allocates).Steady := steady
    have ordered' : (env.under sqliteFails allocates).Ordered := ordered
    have calm := search_calm steady' ordered' hucLevel tableName likePattern same at_
    exact calm.failed panicked check rfl

/-- A fresh stack under the center of the square, as the first search finds it. -/
def centerMachine : Machine Box :=
  { stack := { skipHuc14and16 := false, point := some ⟨0, center⟩, pointBounds := center.bounds },
    calls := 1 }

theorem squareRow_harmless (d : Dataset) (level : Level) (bounds : Bounds) :
    (squareRow level).Harmless (d.serve boxes) center bounds where
  huc := by simp [squareRow]
  name := by simp [squareRow]
  wkb _ := by
    have read : (d.serve boxes).wkbReader ((squareRow level).shape.drop headerSize) =
        some square := square_read
    simp [read]
  fits _ geom _ _ code isCode := by
    obtain rfl := Option.some.inj isCode
    exact (squareCode_isCode level).fits

theorem neverTrips_iff_squares :
    NeverTrips (squareWorld 8) "huc2" "WBDHU2" [] centerMachine ∧
      HarmlessRows (squareWorld 8) center center.bounds
        ((squareWorld 8).rows 0 ⟨"huc2", "WBDHU2", []⟩) := by
  have rows : (squareWorld 8).rows 0 ⟨"huc2", "WBDHU2", []⟩ = [squareRow .huc2] := by
    decide +kernel
  have harmless : HarmlessRows (squareWorld 8) center center.bounds
      ((squareWorld 8).rows 0 ⟨"huc2", "WBDHU2", []⟩) := by
    rw [rows, harmlessRows_cons]
    exact ⟨squareRow_harmless _ _ _, fun _ => harmlessRows_nil⟩
  refine ⟨?_, harmless⟩
  exact (neverTrips_iff (serve_steady _ _) (serve_hosts (squares 8) boxes).order "huc2" "WBDHU2" []
    centerMachine ⟨0, center⟩ rfl).mpr harmless

/-- The table of level 2 holds the square, with NULL for its name. -/
def namelessSquares : Dataset where
  table level := if level = .huc2 then [{ squareRow .huc2 with name := none }] else []
  coded level row member := by
    split at member
    · rename_i isLevel
      obtain rfl := List.mem_singleton.mp member
      exact ⟨_, rfl, isLevel ▸ squareCode_isCode .huc2⟩
    · cases member

/-- How a run failed, if it did. -/
def raisedBy {σ α : Type} : EStateM.Result Fault σ α → Option Fault
  | .ok _ _ => none
  | .error fault _ => some fault

theorem raisedBy_eq_some {σ α : Type} {result : EStateM.Result Fault σ α} {fault : Fault}
    (raised : raisedBy result = some fault) : ∃ s, result = .error fault s := by
  cases result with
  | ok a s => cases raised
  | error other s =>
    cases raised
    exact ⟨s, rfl⟩

/-- The search trips over the NULL name, in the line that only logs the row. -/
theorem neverTrips_fails :
    ¬ NeverTrips (namelessSquares.serve boxes) "huc2" "WBDHU2" [] centerMachine := by
  intro never
  have tripped : raisedBy ((search ((namelessSquares.serve boxes).under (fun _ => none)
      (fun _ => true)) "huc2" "WBDHU2" []).run centerMachine) =
        some (.panic .unreachableReached) := by decide +kernel
  obtain ⟨m', run⟩ := raisedBy_eq_some tripped
  exact never _ _ _ m' run

end WatershedOracle
