import WatershedOracle.Dataset

set_option autoImplicit false

/-! Externals that never fail over a given dataset, and a GEOS that knows
axis-parallel boxes and points: the smallest world in which the assumptions on
the externals all hold. -/

namespace WatershedOracle

variable {γ : Type}

/-- GEOS as fixed functions of geometries. -/
structure Geos (γ : Type) where
  wktReader : Bytes → Option γ
  createPointFromXY : F64 → F64 → Option γ
  wkbReader : Bytes → Option γ
  wktWriter : γ → Bytes
  bounds : γ → Bounds
  covers : γ → γ → Bool

/-- SQLite scans the table of the query, GEOS answers at once, nothing fails. -/
def Dataset.serve (d : Dataset) (geos : Geos γ) : Externals γ where
  wktReader := geos.wktReader
  createPointFromXY := geos.createPointFromXY
  wkbReader := geos.wkbReader
  wktWriter := geos.wktWriter
  getXMin geom := some (geos.bounds geom).minX
  getXMax geom := some (geos.bounds geom).maxX
  getYMin geom := some (geos.bounds geom).minY
  getYMax geom := some (geos.bounds geom).maxY
  covers _ geom point := if geos.covers geom point then 1 else 0
  rows _ query :=
    match Level.all.find? fun level =>
      level.hucLevel == query.hucLevel && level.tableName == query.tableName with
    | some level => (d.table level).filter fun row => row.huc.any query.likePattern.isPrefixOf
    | none => []
  sqliteFails _ := none
  allocates _ := true

section Serve

variable (d : Dataset) (geos : Geos γ)

theorem serve_rows (now : Nat) (level : Level) (likePattern : Bytes) :
    (d.serve geos).rows now (level.query likePattern) =
      (d.table level).filter fun row => row.huc.any likePattern.isPrefixOf := by
  cases level <;> rfl

theorem serve_hosts : Hosts (d.serve geos) d where
  mem now level likePattern row _ member := by
    rw [serve_rows] at member
    exact (List.mem_filter.mp member).1
  like now level likePattern row code digits listed isCode := by
    rw [serve_rows, List.mem_filter]
    simp [listed, isCode]
  order now query := rfl

theorem serve_steady : (d.serve geos).Steady := fun _ _ _ => rfl

theorem serve_faultless : (d.serve geos).Faultless := ⟨fun _ => rfl, fun _ => rfl⟩

theorem serve_covers (now : Nat) (geom point : γ) :
    (d.serve geos).covers now geom point = 1 ↔ geos.covers geom point = true := by
  cases h : geos.covers geom point <;> simp [Dataset.serve, h]

end Serve

/-! A plane of boxes. -/

/-- A closed axis-parallel rectangle, possibly a single point. -/
structure Box where
  bounds : Bounds
  proper : bounds.Proper
  deriving DecidableEq

instance (bounds : Bounds) : Decidable bounds.Proper :=
  decidable_of_iff (F64.le bounds.minX bounds.maxX = true ∧ F64.le bounds.minY bounds.maxY = true)
    ⟨fun both => ⟨both.1, both.2⟩, fun proper => ⟨proper.alongX, proper.alongY⟩⟩

instance (inner outer : Bounds) : Decidable (inner.Within outer) :=
  decidable_of_iff ((F64.le outer.minX inner.minX = true ∧ F64.le inner.maxX outer.maxX = true) ∧
      F64.le outer.minY inner.minY = true ∧ F64.le inner.maxY outer.maxY = true)
    ⟨fun all => ⟨all.1.1, all.1.2, all.2.1, all.2.2⟩,
      fun within => ⟨⟨within.minX, within.maxX⟩, within.minY, within.maxY⟩⟩

def Box.ofBounds (bounds : Bounds) : Option Box :=
  if proper : bounds.Proper then some ⟨bounds, proper⟩ else none

def Box.at_ (x y : F64) : Option Box := Box.ofBounds ⟨x, x, y, y⟩

/-- `POINT(x y)` with one-digit coordinates. -/
def Box.ofWkt : Bytes → Option Box
  | [80, 79, 73, 78, 84, 40, x, 32, y, 41] =>
      Box.at_ (.finite (x.toNat - 48 : Nat)) (.finite (y.toNat - 48 : Nat))
  | _ => none

/-- A little-endian WKB polygon of one ring with five vertices; the first and the
third are opposite corners. -/
def Box.ofWkb (wkb : Bytes) : Option Box :=
  if wkb.length = 93 ∧ wkb.take 13 = [1, 3, 0, 0, 0, 1, 0, 0, 0, 5, 0, 0, 0] then
    Box.ofBounds ⟨doubleAt wkb 13, doubleAt wkb 45, doubleAt wkb 21, doubleAt wkb 53⟩
  else none

def Box.digit : F64 → UInt8
  | .finite value => 48 + UInt8.ofNat value.num.natAbs
  | _ => 48

/-- `POINT (x y)` with one-digit coordinates. -/
def Box.toWkt (box : Box) : Bytes :=
  [80, 79, 73, 78, 84, 32, 40, Box.digit box.bounds.minX, 32, Box.digit box.bounds.minY, 41]

def boxes : Geos Box where
  wktReader := Box.ofWkt
  createPointFromXY := Box.at_
  wkbReader := Box.ofWkb
  wktWriter := Box.toWkt
  bounds box := box.bounds
  covers outer inner := decide (inner.bounds.Within outer.bounds)

/-- Boxes meet the assumptions on bounding boxes when the envelopes do. -/
theorem boxes_boxed (d : Dataset)
    (envelope : ∀ level, ∀ row ∈ d.table level, ∀ box,
      Box.ofWkb (row.shape.drop headerSize) = some box →
        box.bounds.Within (EnvelopeXY.ofShape row.shape).bounds) :
    Boxed (d.serve boxes) d where
  covered geom point covers := by
    have within := of_decide_eq_true ((serve_covers d boxes 0 geom point).mp covers)
    exact ⟨geom.bounds, point.bounds, rfl, rfl, point.proper, within⟩
  envelope level row member geom box read isBox := by
    cases isBox
    exact envelope level row member geom read

/-- Boxes nest when every region lies in those that it is registered under. -/
theorem boxes_nested (d : Dataset)
    (inside : ∀ level fine coarse, (regions (d.serve boxes) d.listed).region (level + 1) fine →
      (regions (d.serve boxes) d.listed).region level coarse → coarse.code <+: fine.code →
        fine.geom.bounds.Within coarse.geom.bounds) :
    (regions (d.serve boxes) d.listed).Nested := by
  intro level fine coarse point isFine isCoarse under covers
  have within := of_decide_eq_true ((serve_covers d boxes 0 fine.geom point).mp covers)
  exact (serve_covers d boxes 0 coarse.geom point).mpr
    (decide_eq_true (within.trans (inside level fine coarse isFine isCoarse under)))

/-! One square at every level down to a chosen one. -/

def zeroBytes : Bytes := [0, 0, 0, 0, 0, 0, 0, 0]

/-- 2.0 as a little-endian double. -/
def twoBytes : Bytes := [0, 0, 0, 0, 0, 0, 0, 64]

/-- The GeoPackage header and envelope, then the ring of the square. -/
def squareShape : Bytes :=
  [71, 80, 0, 3, 230, 16, 0, 0] ++ zeroBytes ++ twoBytes ++ zeroBytes ++ twoBytes ++
    [1, 3, 0, 0, 0, 1, 0, 0, 0, 5, 0, 0, 0] ++ zeroBytes ++ zeroBytes ++ twoBytes ++ zeroBytes ++
    twoBytes ++ twoBytes ++ zeroBytes ++ twoBytes ++ zeroBytes ++ zeroBytes

/-- The code 0401020304050607, cut to the digits of the level. -/
def squareCode (level : Level) : Bytes :=
  [48, 52, 48, 49, 48, 50, 48, 51, 48, 52, 48, 53, 48, 54, 48, 55].take level.digits

def squareRow (level : Level) : Row := ⟨some (squareCode level), some [83, 113], squareShape⟩

theorem squareCode_isCode (level : Level) : IsCode level (squareCode level) := by
  cases level <;> exact ⟨by decide, by decide⟩

def squares (deepest : Nat) : Dataset where
  table level := if level.index < deepest then [squareRow level] else []
  coded level row member := by
    split at member
    · obtain rfl := List.mem_singleton.mp member
      exact ⟨_, rfl, squareCode_isCode level⟩
    · cases member

abbrev squareWorld (deepest : Nat) : Externals Box := (squares deepest).serve boxes

def square : Box := ⟨⟨.finite 0, .finite 2, .finite 0, .finite 2⟩, by decide⟩

/-- The point (1, 1). -/
def center : Box := ⟨⟨.finite 1, .finite 1, .finite 1, .finite 1⟩, by decide⟩

/-- A request for the point in the middle of the square. -/
def centerPoint (requestId : Int) : Point := ⟨requestId, .xy (.finite 1) (.finite 1)⟩

/-- A request inside the square, one that is no WKT, one outside, and one for a corner
of the square. -/
def strayHistory : List Point :=
  [⟨1, .wkt [80, 79, 73, 78, 84, 40, 49, 32, 49, 41]⟩, ⟨2, .wkt [66, 65, 68]⟩,
    ⟨3, .xy (.finite 3) (.finite 1)⟩, ⟨4, .xy (.finite 2) (.finite 0)⟩]

theorem centerPoint_made (deepest : Nat) (requestId : Int) :
    (squareWorld deepest).geometryOf (centerPoint requestId).location = some center :=
  show Box.at_ (.finite 1) (.finite 1) = some center by decide

theorem square_read : Box.ofWkb (squareShape.drop headerSize) = some square := by decide +kernel

theorem squares_listed {deepest : Nat} {level : Level} {row : Row}
    (member : row ∈ (squares deepest).table level) :
    level.index < deepest ∧ row = squareRow level := by
  simp only [squares] at member
  split at member
  · rename_i inside
    exact ⟨inside, List.mem_singleton.mp member⟩
  · cases member

def squareRegion (level : Level) : Region Box :=
  ⟨padHuc (squareCode level) (squareCode_isCode level).fits, [83, 113], square⟩

theorem squareRegion_code (level : Level) : (squareRegion level).code = squareCode level :=
  padHuc_code (squareCode_isCode level).fits (squareCode_isCode level).digits

theorem squareRow_region (deepest : Nat) (level : Level) :
    (squareRow level).region? (squareWorld deepest) = some (squareRegion level) := by
  have read : (squareWorld deepest).wkbReader (squareShape.drop headerSize) = some square :=
    square_read
  simp only [Row.region?, read, squareRow, (squareCode_isCode level).fits, ↓reduceDIte,
    squareRegion]

theorem squares_region {deepest n : Nat} {r : Region Box}
    (isRegion : (regions (squareWorld deepest) (squares deepest).listed).region n r) :
    ∃ level : Level, level.index = n ∧ r = squareRegion level := by
  obtain ⟨level, row, at_, member, read⟩ := isRegion
  obtain ⟨_, rfl⟩ := squares_listed member
  rw [squareRow_region] at read
  exact ⟨level, at_, (Option.some.inj read).symm⟩

/-- What few levels link, more levels link. -/
theorem squares_linked {few many : Nat} (grows : few ≤ many) {stack : List (Region Box)}
    (linked : (regions (squareWorld few) (squares few).listed).Linked stack) :
    (regions (squareWorld many) (squares many).listed).Linked stack := by
  apply linked.mono
  · rintro n r ⟨level, row, at_, member, read⟩
    obtain ⟨inside, rfl⟩ := squares_listed member
    rw [squareRow_region] at read
    refine ⟨level, squareRow level, at_, ?_, by rw [squareRow_region, read]⟩
    simp [Dataset.listed, squares, Nat.lt_of_lt_of_le inside grows]
  · exact fun _ _ begins => begins

theorem squares_boxed (deepest : Nat) : Boxed (squareWorld deepest) (squares deepest) := by
  apply boxes_boxed
  intro level row member box read
  obtain ⟨_, rfl⟩ := squares_listed member
  obtain rfl := Option.some.inj (square_read.symm.trans read)
  change square.bounds.Within (EnvelopeXY.ofShape squareShape).bounds
  decide +kernel

theorem squares_nested (deepest : Nat) :
    (regions (squareWorld deepest) (squares deepest).listed).Nested := by
  apply boxes_nested
  intro level fine coarse isFine isCoarse _
  obtain ⟨_, _, rfl⟩ := squares_region isFine
  obtain ⟨_, _, rfl⟩ := squares_region isCoarse
  change square.bounds.Within square.bounds
  decide

theorem squares_unique (deepest : Nat) (point : Box) :
    (regions (squareWorld deepest) (squares deepest).listed).UniqueAt point := by
  intro level a b isA isB _ _
  obtain ⟨one, at_, rfl⟩ := squares_region isA
  obtain ⟨two, at', rfl⟩ := squares_region isB
  obtain rfl := Level.index_injective (at_.trans at'.symm)
  rfl

theorem squares_readable (deepest : Nat) :
    (squares deepest).Readable (squareWorld deepest) := by
  intro level row member
  obtain ⟨_, rfl⟩ := squares_listed member
  exact ⟨by rw [squareRow_region]; rfl, show 40 ≤ squareShape.length by decide +kernel⟩

theorem squareRegion_covers (deepest : Nat) (level : Level) :
    (regions (squareWorld deepest) (squares deepest).listed).covers (squareRegion level) center :=
  (serve_covers _ _ _ _ _).mpr (show boxes.covers square center = true by decide)

/-- Every level of the squares covers the center. -/
theorem squares_tiled {deepest depth : Nat} (present : depth ≤ deepest) (small : depth ≤ 8)
    (some_ : 0 < depth) :
    (regions (squareWorld deepest) (squares deepest).listed).Tiled depth center := by
  have exists_ : ∀ level : Level, level.index < depth →
      (regions (squareWorld deepest) (squares deepest).listed).region level.index
        (squareRegion level) := by
    intro level inside
    refine ⟨level, squareRow level, rfl, ?_, squareRow_region deepest level⟩
    simp [Dataset.listed, squares, Nat.lt_of_lt_of_le inside present]
  refine ⟨⟨_, exists_ .huc2 some_, squareRegion_covers deepest _⟩, ?_⟩
  intro n r inside isRegion _
  obtain ⟨coarse, rfl, rfl⟩ := squares_region isRegion
  obtain ⟨fine, next⟩ := Level.exists_index (Nat.lt_of_lt_of_le inside small)
  refine ⟨_, next ▸ exists_ fine (next ▸ inside), ?_, squareRegion_covers deepest _⟩
  change (squareRegion coarse).code <+: (squareRegion fine).code
  rw [squareRegion_code, squareRegion_code]
  exact List.take_prefix_take_left (by simp only [Level.digits]; omega)

end WatershedOracle
