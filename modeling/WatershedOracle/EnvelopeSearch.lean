import WatershedOracle.TableFaults

set_option autoImplicit false

/-! The envelope comparison and the order of the row loop change nothing: `search`
answers with the first row of its statement that covers the query geometry. -/

namespace WatershedOracle

open Effect

variable {γ : Type}

/-- The LIKE of the statement, for a pattern of digits. -/
def Row.startsWith (likePattern : Bytes) (row : Row) : Bool := row.huc.any likePattern.isPrefixOf

/-- The search without envelopes: the first row in the order of the scan. -/
def plainSearch (env : Externals γ) (table : List Row) (likePattern : Bytes) (point : γ) :
    Option Row :=
  table.find? fun row => row.startsWith likePattern && row.covering env point

/-- Every shape is a header, an envelope and WKB; the envelope contains the box of the
geometry; the bounds of a geometry can be read or it is empty; what is covered has its
box within the box of what covers it. -/
structure Enveloped (env : Externals γ) (table : List Row) : Prop where
  whole : ∀ row ∈ table, headerSize ≤ row.shape.length ∧
    env.wkbReader (row.shape.drop headerSize) ≠ none
  envelope : ∀ row ∈ table, ∀ geom box, env.wkbReader (row.shape.drop headerSize) = some geom →
    env.box? geom = some box → box.Within (EnvelopeXY.ofShape row.shape).bounds
  bounds : ∀ geom, (env.box? geom).isSome ∨ (env.getXMin geom = none ∧ env.getXMax geom = none ∧
    env.getYMin geom = none ∧ env.getYMax geom = none)
  covered : ∀ geom point, env.covers 0 geom point = 1 → ∃ outer inner,
    env.box? geom = some outer ∧ env.box? point = some inner ∧ inner.Proper ∧ inner.Within outer

/-- `while (true)` of `search`, given up after `fuel` steps. -/
def searchWhile (env : Externals γ) : Nat → List Row → Zig γ (Option (Row × GeomPtr γ))
  | 0, _ => pure none
  | _ + 1, [] => do
      let _ ← searchStep env none
      panic .unreachableReached
  | fuel + 1, row :: rest => do
      match ← searchStep env (some row) with
      | some geometry => pure (some (row, geometry))
      | none => searchWhile env fuel rest

/-- One step more than there are rows is enough. -/
theorem searchWhile_eq (env : Externals γ) {fuel : Nat} {rows : List Row}
    (enough : rows.length < fuel) :
    searchWhile env fuel rows = (do return some (← searchLoop env rows)) := by
  induction rows generalizing fuel with
  | nil =>
    obtain ⟨fuel, rfl⟩ := Nat.exists_eq_succ_of_ne_zero (Nat.ne_of_gt enough)
    simp only [searchWhile, searchLoop, bind_assoc]
    rfl
  | cons row rest ih =>
    obtain ⟨fuel, rfl⟩ := Nat.exists_eq_succ_of_ne_zero (Nat.ne_of_gt (Nat.zero_lt_of_lt enough))
    simp only [searchWhile, searchLoop, bind_assoc]
    congr 1
    funext found
    cases found with
    | none => exact ih (by simpa using enough)
    | some geometry => simp

/-- `search` agrees with the plain search, and its loop ends in time. -/
structure SearchesPlainly (env : Externals γ) (level : Level) (table : List Row)
    (likePattern : Bytes) (point : γ) (m : Machine γ) : Prop where
  found : ∀ row, plainSearch env table likePattern point = some row → ∃ w m',
    (search env level.hucLevel level.tableName likePattern).run m = .ok w m' ∧ BuiltFrom row w ∧
      env.wkbReader (row.shape.drop headerSize) = some w.geom.geom
  absent : (∃ m', (search env level.hucLevel level.tableName likePattern).run m =
      .error (.error .pointNotInDataset) m') ↔ plainSearch env table likePattern point = none
  bounded : ∀ now, searchWhile env ((env.rows now (level.query likePattern)).length + 1)
      (env.rows now (level.query likePattern)) =
    (do return some (← searchLoop env (env.rows now (level.query likePattern))))

/-- Up to and including the first row that covers the query geometry no name is NULL,
and the code of that row fits into sixteen bytes. -/
def Storable (env : Externals γ) (point : γ) (rows : List Row) : Prop :=
  ∀ before row rest, rows = before ++ row :: rest →
    (∀ other ∈ before, other.covering env point = false) →
      row.name ≠ none ∧ (row.covering env point = true →
        ∀ code, row.huc = some code → code.length ≤ 16)

section Enveloped

variable {env : Externals γ} {table : List Row} {point : γ} {row : Row}

/-- The envelope comparison never skips a row that covers the query geometry. -/
theorem Enveloped.meets (enveloped : Enveloped env table) (member : row ∈ table)
    (covers : row.covering env point = true) : row.Meets (env.boundsOf point) := by
  obtain ⟨long, readable⟩ := enveloped.whole row member
  obtain ⟨geom, parsed⟩ := Option.ne_none_iff_exists'.mp readable
  obtain ⟨outer, inner, isOuter, isInner, proper, within⟩ :=
    enveloped.covered geom point ((covering_iff parsed).mp covers)
  refine ⟨long, ?_⟩
  rw [Externals.boundsOf_of_box isInner]
  exact EnvelopeXY.meets proper
    (within.trans (enveloped.envelope row member geom outer parsed isOuter))

theorem Enveloped.passedOver_iff (enveloped : Enveloped env table) (member : row ∈ table) :
    row.PassedOver env point (env.boundsOf point) ↔ row.covering env point = false := by
  obtain ⟨long, readable⟩ := enveloped.whole row member
  obtain ⟨geom, parsed⟩ := Option.ne_none_iff_exists'.mp readable
  rw [← Bool.not_eq_true, covering_iff parsed]
  constructor
  · intro passed covers
    have meets := enveloped.meets member ((covering_iff parsed).mpr covers)
    exact passed.outside meets geom parsed covers
  · intro apart
    refine ⟨long, fun _ other isParsed => ?_⟩
    obtain rfl : geom = other := Option.some.inj (parsed.symm.trans isParsed)
    exact apart

theorem Enveloped.harmless_iff (enveloped : Enveloped env table) (member : row ∈ table)
    (huc : row.huc ≠ none) :
    row.Harmless env point (env.boundsOf point) ↔
      row.name ≠ none ∧ (row.covering env point = true →
        ∀ code, row.huc = some code → code.length ≤ 16) := by
  obtain ⟨long, readable⟩ := enveloped.whole row member
  obtain ⟨geom, parsed⟩ := Option.ne_none_iff_exists'.mp readable
  constructor
  · intro harmless
    refine ⟨harmless.name, fun covers => ?_⟩
    have meets := enveloped.meets member covers
    exact harmless.fits meets geom parsed ((covering_iff parsed).mp covers)
  · rintro ⟨name, fits⟩
    refine ⟨huc, name, fun _ => readable, fun _ other isParsed covers => ?_⟩
    exact fits ((covering_iff isParsed).mpr covers)

/-- Where the envelopes can be trusted, harmless rows are those that can be stored. -/
theorem Enveloped.harmlessRows_iff (enveloped : Enveloped env table) {rows : List Row}
    (listed : ∀ row ∈ rows, row ∈ table ∧ row.huc ≠ none) :
    HarmlessRows env point (env.boundsOf point) rows ↔ Storable env point rows := by
  have passed : ∀ before row rest, rows = before ++ row :: rest →
      ((∀ other ∈ before, other.PassedOver env point (env.boundsOf point)) ↔
        ∀ other ∈ before, other.covering env point = false) := by
    intro before row rest split
    constructor
    · intro all other member
      have inTable := (listed other (by simp [split, member])).1
      exact (enveloped.passedOver_iff inTable).mp (all other member)
    · intro all other member
      have inTable := (listed other (by simp [split, member])).1
      exact (enveloped.passedOver_iff inTable).mpr (all other member)
  constructor
  · intro harmless before row rest split apart
    obtain ⟨inTable, huc⟩ := listed row (by simp [split])
    exact (enveloped.harmless_iff inTable huc).mp
      (harmless before row rest split ((passed before row rest split).mpr apart))
  · intro storable before row rest split earlier
    obtain ⟨inTable, huc⟩ := listed row (by simp [split])
    exact (enveloped.harmless_iff inTable huc).mpr
      (storable before row rest split ((passed before row rest split).mp earlier))

/-- Over harmless rows the answer is the first row that covers the query geometry. -/
theorem Enveloped.answerOf_eq (enveloped : Enveloped env table) {rows : List Row}
    (listed : ∀ row ∈ rows, row ∈ table)
    (harmless : HarmlessRows env point (env.boundsOf point) rows) :
    (rows.find? (Row.covering env point) = none →
      answerOf env point (env.boundsOf point) rows = .error (.error .pointNotInDataset)) ∧
    (∀ row, rows.find? (Row.covering env point) = some row → ∃ region,
      answerOf env point (env.boundsOf point) rows = .ok region ∧
        row.region? env = some region) := by
  induction rows with
  | nil => exact ⟨fun _ => rfl, by simp⟩
  | cons row rest ih =>
    obtain ⟨first, later⟩ := harmlessRows_cons.mp harmless
    obtain ⟨member, others⟩ := List.forall_mem_cons.mp listed
    cases covers : row.covering env point with
    | false =>
      have passed := (enveloped.passedOver_iff member).mpr covers
      rw [List.find?_cons_of_neg (by simp [covers]), answerOf, (judge_none_iff first).mpr passed]
      exact ih others (later passed)
    | true =>
      obtain ⟨long, readable⟩ := enveloped.whole row member
      obtain ⟨geom, parsed⟩ := Option.ne_none_iff_exists'.mp readable
      have judged := judge_parsed point first.huc first.name long
        (enveloped.meets member covers).2 parsed
      rw [if_pos ((covering_iff parsed).mp covers)] at judged
      have stored := (judge_harmless_iff.mpr first).2 geom judged
      obtain ⟨region, isRegion⟩ := Option.ne_none_iff_exists'.mp stored
      rw [List.find?_cons_of_pos covers, answerOf, judged]
      refine ⟨by simp, fun other same => ⟨region, ?_, ?_⟩⟩
      · simp only [isRegion]
      · rw [← Option.some.inj same, isRegion]

end Enveloped

/-- What describes a region was read off its row. -/
theorem region_builtFrom {env : Externals γ} {row : Row} {w : Watershed γ}
    (isRegion : row.region? env = some w.region) :
    BuiltFrom row w ∧ env.wkbReader (row.shape.drop headerSize) = some w.geom.geom := by
  refine ⟨?_, region_row_geom isRegion⟩
  unfold Row.region? at isRegion
  split at isRegion
  · rename_i code name geom isCode isName _
    split at isRegion
    · rename_i fits
      have same := Option.some.inj isRegion
      have huc : padHuc code fits = w.huc := congrArg Region.huc same
      have text : name = w.name.bytes := congrArg Region.name same
      exact ⟨⟨code, fits, isCode, huc.symm⟩, by rw [isName, text]⟩
    · cases isRegion
  · cases isRegion

section PlainAnswer

variable {env : Externals γ} {level : Level} {table : List Row} {likePattern : Bytes} {point : γ}
variable {m : Machine γ} {answer : Except Fault (Region γ)}

theorem plainSearch_eq (env : Externals γ) (table : List Row) (likePattern : Bytes) (point : γ) :
    plainSearch env table likePattern point =
      (table.filter (Row.startsWith likePattern)).find? (Row.covering env point) := by
  simp only [plainSearch, List.find?_filter, Bool.decide_and, Bool.decide_eq_true]

/-- The statement returns rows of its table, with a code. -/
theorem startsWith_listed : ∀ row ∈ table.filter (Row.startsWith likePattern),
    row ∈ table ∧ row.huc ≠ none := by
  intro row member
  obtain ⟨inTable, begins⟩ := List.mem_filter.mp member
  refine ⟨inTable, fun missing => ?_⟩
  simp [Row.startsWith, missing] at begins

/-- A search that agrees with the plain search trips no safety check. -/
theorem SearchesPlainly.calm (plainly : SearchesPlainly env level table likePattern point m)
    (answered : Ends (search env level.hucLevel level.tableName likePattern) m
      (fun w _ => answer = .ok w.region) (fun fault _ => answer = .error fault))
    {fault : Fault} (isFault : answer = .error fault) : Calm fault := by
  intro check tripped
  cases run : (search env level.hucLevel level.tableName likePattern).run m with
  | ok w m' =>
    cases isFault.symm.trans (answered.returned run)
  | error raised m' =>
    obtain rfl : fault = raised := Except.error.inj (isFault.symm.trans (answered.failed run))
    cases hit : plainSearch env table likePattern point with
    | some row =>
      obtain ⟨w, m'', returned, _⟩ := plainly.found row hit
      cases run.symm.trans returned
    | none =>
      obtain ⟨m'', failed⟩ := plainly.absent.mpr hit
      rw [tripped] at run
      cases run.symm.trans failed

/-- A search agrees with the plain search when its answer does. -/
theorem searchesPlainly_of_answer
    (answered : Ends (search env level.hucLevel level.tableName likePattern) m
      (fun w _ => answer = .ok w.region) (fun fault _ => answer = .error fault))
    (absent : plainSearch env table likePattern point = none →
      answer = .error (.error .pointNotInDataset))
    (found : ∀ row, plainSearch env table likePattern point = some row →
      ∃ region, answer = .ok region ∧ row.region? env = some region) :
    SearchesPlainly env level table likePattern point m := by
  have bounded := fun now =>
    searchWhile_eq env (Nat.lt_succ_self (env.rows now (level.query likePattern)).length)
  cases run : (search env level.hucLevel level.tableName likePattern).run m with
  | ok w m' =>
    have isAnswer := answered.returned run
    refine ⟨fun row hit => ?_, ?_, bounded⟩
    · obtain ⟨region, same, isRegion⟩ := found row hit
      obtain rfl : region = w.region := Except.ok.inj (same.symm.trans isAnswer)
      exact ⟨w, m', run, region_builtFrom isRegion⟩
    · rw [run]
      constructor
      · rintro ⟨m'', impossible⟩
        cases impossible
      · intro none_
        cases isAnswer.symm.trans (absent none_)
  | error fault m' =>
    have isAnswer := answered.failed run
    refine ⟨fun row hit => ?_, ?_, bounded⟩
    · obtain ⟨region, same, _⟩ := found row hit
      cases isAnswer.symm.trans same
    · cases hit : plainSearch env table likePattern point with
      | some row =>
        obtain ⟨region, same, _⟩ := found row hit
        cases isAnswer.symm.trans same
      | none =>
        obtain rfl : fault = .error .pointNotInDataset :=
          Except.error.inj (isAnswer.symm.trans (absent hit))
        exact ⟨fun _ => rfl, fun _ => ⟨m', run⟩⟩

end PlainAnswer

/-- `search` is the plain search over its table exactly when the rows that it comes to
can be stored. -/
theorem searchesPlainly_iff {env : Externals γ} (faultless : env.Faultless) (steady : env.Steady)
    (level : Level) (table : List Row) (enveloped : Enveloped env table) (likePattern : Bytes)
    (served : ∀ now, env.rows now (level.query likePattern) =
      table.filter (Row.startsWith likePattern))
    (point : γ) (m : Machine γ) (asks : m.stack.Asks env point) :
    SearchesPlainly env level table likePattern point m ↔
      Storable env point (table.filter (Row.startsWith likePattern)) := by
  obtain ⟨addr, at_⟩ := asks.at_
  have answered := search_answer faultless steady level.hucLevel level.tableName likePattern at_
  rw [asks.bounds] at answered
  have rows : env.rows (m.calls + 2) ⟨level.hucLevel, level.tableName, likePattern⟩ =
      table.filter (Row.startsWith likePattern) := served _
  rw [rows] at answered
  rw [← enveloped.harmlessRows_iff startsWith_listed, ← answerOf_calm_iff]
  constructor
  · intro plainly fault isFault
    exact plainly.calm answered isFault
  · intro calm
    obtain ⟨absent, found⟩ :=
      enveloped.answerOf_eq (fun row member => (startsWith_listed row member).1)
        ((answerOf_calm_iff _).mp calm)
    rw [← plainSearch_eq] at absent found
    exact searchesPlainly_of_answer answered absent found

/-- A table of boxes meets the assumptions when every row holds the square. -/
theorem squares_enveloped (d : Dataset) (table : List Row)
    (same : ∀ row ∈ table, row.shape = squareShape) : Enveloped (d.serve boxes) table := by
  have read : (d.serve boxes).wkbReader (squareShape.drop headerSize) = some square := square_read
  refine ⟨fun row member => ?_, fun row member geom box parsed isBox => ?_, fun geom => .inl rfl, ?_⟩
  · rw [same row member, read]
    exact ⟨show 40 ≤ squareShape.length by decide +kernel, by simp⟩
  · rw [same row member] at parsed ⊢
    obtain rfl : square = geom := Option.some.inj (read.symm.trans parsed)
    cases isBox
    show square.bounds.Within (EnvelopeXY.ofShape squareShape).bounds
    decide +kernel
  · intro geom point covers
    have within := of_decide_eq_true ((serve_covers d boxes 0 geom point).mp covers)
    exact ⟨geom.bounds, point.bounds, rfl, rfl, point.proper, within⟩

theorem searchesPlainly_iff_squares :
    SearchesPlainly (squareWorld 8) .huc4 ((squares 8).table .huc4) [48, 52] center centerMachine ∧
      Storable (squareWorld 8) center
        (((squares 8).table .huc4).filter (Row.startsWith [48, 52])) := by
  have storable : Storable (squareWorld 8) center
      (((squares 8).table .huc4).filter (Row.startsWith [48, 52])) := by
    intro before row rest split _
    have member : row ∈ ((squares 8).table .huc4).filter (Row.startsWith [48, 52]) := by
      simp [split]
    obtain ⟨_, rfl⟩ := squares_listed (List.mem_filter.mp member).1
    refine ⟨by simp [squareRow], fun _ code isCode => ?_⟩
    obtain rfl := Option.some.inj isCode
    exact (squareCode_isCode .huc4).fits
  refine ⟨?_, storable⟩
  exact (searchesPlainly_iff (serve_faultless _ _) (serve_steady _ _) .huc4 _
    (squares_enveloped _ _ fun row member => by rw [(squares_listed member).2]; rfl) [48, 52]
    (fun now => serve_rows (squares 8) boxes now .huc4 [48, 52]) center centerMachine
    ⟨⟨0, rfl⟩, rfl⟩).mpr storable

/-- The one row of the table covers the center, and the search trips over its name. -/
theorem searchesPlainly_fails :
    Enveloped (namelessSquares.serve boxes) (namelessSquares.table .huc2) ∧
      ¬ SearchesPlainly (namelessSquares.serve boxes) .huc2 (namelessSquares.table .huc2) []
        center centerMachine := by
  refine ⟨squares_enveloped _ _ fun row member => ?_, fun plainly => ?_⟩
  · have listed : row ∈ [{ squareRow .huc2 with name := none }] := member
    rw [List.mem_singleton.mp listed]
    rfl
  · have hit : plainSearch (namelessSquares.serve boxes) (namelessSquares.table .huc2) [] center =
        some { squareRow .huc2 with name := none } := by decide +kernel
    have tripped : raisedBy ((search (namelessSquares.serve boxes) "huc2" "WBDHU2" []).run
        centerMachine) = some (.panic .unreachableReached) := by decide +kernel
    obtain ⟨w, m', returned, _⟩ := plainly.found _ hit
    obtain ⟨m'', failed⟩ := raisedBy_eq_some tripped
    cases returned.symm.trans failed

end WatershedOracle
