import WatershedOracle.Regions

set_option autoImplicit false

/-! The tables behind the externals, and what is asked of SQLite and GEOS for a
lookup to be a function of the tables and the point. -/

namespace WatershedOracle

variable {γ : Type}

/-- The tables of the watershed boundary dataset, read in the order of a scan. -/
structure Dataset where
  table : Level → List Row
  coded : ∀ level, ∀ row ∈ table level, ∃ code, row.huc = some code ∧ IsCode level code

/-- Membership in a table, as the theorems on linked stacks take it. -/
def Dataset.listed (d : Dataset) (level : Level) (row : Row) : Prop := row ∈ d.table level

/-- GEOSCovers as a fixed function of a geometry and a point. -/
def Externals.Steady (env : Externals γ) : Prop :=
  ∀ now geom point, env.covers now geom point = env.covers 0 geom point

/-- SQLite returns the rows of one query in a fixed order. -/
def Externals.Ordered (env : Externals γ) : Prop :=
  ∀ now query, env.rows now query = env.rows 0 query

/-- SQLite returns the rows of a table that match the pattern of a digit string, in
a fixed order. -/
structure Hosts (env : Externals γ) (d : Dataset) : Prop where
  mem : ∀ (now : Nat) (level : Level) (likePattern : Bytes) (row : Row),
    IsDigits likePattern → row ∈ env.rows now (level.query likePattern) → row ∈ d.table level
  like : ∀ (now : Nat) (level : Level) (likePattern : Bytes) (row : Row) (code : Bytes),
    IsDigits likePattern → row ∈ d.table level → row.huc = some code →
      (row ∈ env.rows now (level.query likePattern) ↔ likePattern <+: code)
  order : env.Ordered

theorem Hosts.serves {env : Externals γ} {d : Dataset} (hosts : Hosts env d) :
    Serves env d.listed where
  mem := hosts.mem
  code level row member := d.coded level row member
  like now level likePattern row code digits member isCode :=
    (hosts.like now level likePattern row code digits (hosts.mem _ _ _ _ digits member)
      isCode).mp member

/-! Bounding boxes. -/

/-- `inner` lies in `outer`, edges included. -/
structure Bounds.Within (inner outer : Bounds) : Prop where
  minX : F64.le outer.minX inner.minX = true
  maxX : F64.le inner.maxX outer.maxX = true
  minY : F64.le outer.minY inner.minY = true
  maxY : F64.le inner.maxY outer.maxY = true

/-- The lower edges are not above the upper ones. -/
structure Bounds.Proper (bounds : Bounds) : Prop where
  alongX : F64.le bounds.minX bounds.maxX = true
  alongY : F64.le bounds.minY bounds.maxY = true

theorem Bounds.Within.trans {a b c : Bounds} (first : a.Within b) (second : b.Within c) :
    a.Within c where
  minX := F64.le_trans second.minX first.minX
  maxX := F64.le_trans first.maxX second.maxX
  minY := F64.le_trans second.minY first.minY
  maxY := F64.le_trans first.maxY second.maxY

def EnvelopeXY.bounds (envelope : EnvelopeXY) : Bounds :=
  ⟨envelope.minx, envelope.maxx, envelope.miny, envelope.maxy⟩

/-- The header comparison lets a box through that lies in the envelope. -/
theorem EnvelopeXY.meets {envelope : EnvelopeXY} {bounds : Bounds} (proper : bounds.Proper)
    (within : bounds.Within envelope.bounds) : envelope.misses bounds = false := by
  have right := F64.not_gt_of_le (F64.le_trans within.minX proper.alongX)
  have left := F64.not_lt_of_le (F64.le_trans proper.alongX within.maxX)
  have top := F64.not_gt_of_le (F64.le_trans within.minY proper.alongY)
  have bottom := F64.not_lt_of_le (F64.le_trans proper.alongY within.maxY)
  simp only [EnvelopeXY.bounds] at right left top bottom
  simp only [EnvelopeXY.misses, right, left, top, bottom, Bool.or_self]

/-- The bounding box of a geometry whose four bounds can all be read. -/
def Externals.box? (env : Externals γ) (geom : γ) : Option Bounds :=
  match env.getXMin geom, env.getXMax geom, env.getYMin geom, env.getYMax geom with
  | some minX, some maxX, some minY, some maxY => some ⟨minX, maxX, minY, maxY⟩
  | _, _, _, _ => none

theorem Externals.boundsOf_of_box {env : Externals γ} {geom : γ} {box : Bounds}
    (isBox : env.box? geom = some box) : env.boundsOf geom = box := by
  unfold box? at isBox
  split at isBox
  · rename_i one two three four
    cases isBox
    simp only [boundsOf, one, two, three, four, Option.getD_some]
  · cases isBox

/-- What GEOS covers lies in its box, and what a row holds lies in its envelope. -/
structure Boxed (env : Externals γ) (d : Dataset) : Prop where
  covered : ∀ geom point, env.covers 0 geom point = 1 → ∃ outer inner,
    env.box? geom = some outer ∧ env.box? point = some inner ∧ inner.Proper ∧ inner.Within outer
  envelope : ∀ level, ∀ row ∈ d.table level, ∀ geom box,
    env.wkbReader (row.shape.drop headerSize) = some geom → env.box? geom = some box →
      box.Within (EnvelopeXY.ofShape row.shape).bounds

/-- No row is skipped whose geometry covers the point. -/
theorem Boxed.meets {env : Externals γ} {d : Dataset} (boxed : Boxed env d) {level : Level}
    {row : Row} (member : row ∈ d.table level) {geom point : γ}
    (read : env.wkbReader (row.shape.drop headerSize) = some geom)
    (covers : env.covers 0 geom point = 1) :
    (EnvelopeXY.ofShape row.shape).misses (env.boundsOf point) = false := by
  obtain ⟨outer, inner, isOuter, isInner, proper, within⟩ := boxed.covered geom point covers
  rw [Externals.boundsOf_of_box isInner]
  exact EnvelopeXY.meets proper
    (within.trans (boxed.envelope level row member geom outer read isOuter))

/-! Runs without failures. -/

/-- No SQLite call and no allocation fails. -/
structure Externals.Faultless (env : Externals γ) : Prop where
  sqlite : ∀ now, env.sqliteFails now = none
  memory : ∀ now, env.allocates now = true

/-- `search` can read everything the row holds. -/
structure Row.Readable (env : Externals γ) (row : Row) : Prop where
  region : (row.region? env).isSome
  header : headerSize ≤ row.shape.length

theorem Row.Readable.columns {env : Externals γ} {row : Row} (readable : row.Readable env) :
    ∃ code name geom, row.huc = some code ∧ code.length ≤ 16 ∧ row.name = some name ∧
      env.wkbReader (row.shape.drop headerSize) = some geom := by
  have region := readable.region
  unfold Row.region? at region
  split at region
  · rename_i code name geom isCode isName read
    refine ⟨code, name, geom, isCode, ?_, isName, read⟩
    by_contra long
    simp [long] at region
  · cases region

def Dataset.Readable (d : Dataset) (env : Externals γ) : Prop :=
  ∀ level, ∀ row ∈ d.table level, row.Readable env

/-- An update that tripped no safety check and met no error of SQLite, GEOS or the
allocator. -/
inductive Clean {σ : Type} : EStateM.Result Fault σ Unit → Prop
  | success (s : σ) : Clean (.ok () s)
  | outside (s : σ) : Clean (.error (.error .pointNotInDataset) s)

/-- A return that is not an error. -/
inductive Succeeds {σ : Type} : EStateM.Result Fault σ Unit → Prop
  | intro (s : σ) : Succeeds (.ok () s)

@[simp] theorem succeeds_ok {σ : Type} (s : σ) :
    Succeeds (.ok () s : EStateM.Result Fault σ Unit) ↔ True :=
  ⟨fun _ => trivial, fun _ => .intro s⟩

@[simp] theorem succeeds_error {σ : Type} (fault : Fault) (s : σ) :
    Succeeds (.error fault s : EStateM.Result Fault σ Unit) ↔ False :=
  ⟨nofun, False.elim⟩

@[simp] theorem clean_error {σ : Type} (fault : Fault) (s : σ) :
    Clean (.error fault s : EStateM.Result Fault σ Unit) ↔ fault = .error .pointNotInDataset :=
  ⟨fun clean => by cases clean; rfl, fun absent => absent ▸ .outside s⟩

theorem not_clean {σ : Type} {result : EStateM.Result Fault σ Unit} (unclean : ¬ Clean result) :
    ∃ fault s, result = .error fault s ∧ fault ≠ .error .pointNotInDataset := by
  cases result with
  | ok _ s => exact absurd (.success s) unclean
  | error fault s => exact ⟨fault, s, rfl, fun same => unclean ((clean_error fault s).mpr same)⟩

end WatershedOracle
