import WatershedOracle.Binary64
import WatershedOracle.Faults

set_option autoImplicit false

/-! What the oracle calls and does not contain: the GEOS, SQLite and allocator
entry points of watershed.zig. Each is a function the theorems quantify over. -/

namespace WatershedOracle

abbrev Bytes := List UInt8

/-- The texts `search` puts into
`SELECT rowid,{s},name FROM "{s}" WHERE "{s}" LIKE '{s}%';`. -/
structure Query where
  hucLevel : String
  tableName : String
  likePattern : Bytes
  deriving DecidableEq

/-- One row of the answer: its two text columns, `none` for NULL, as C strings,
and the shape blob that its rowid opens. -/
structure Row where
  huc : Option Bytes
  name : Option Bytes
  shape : Bytes
  deriving DecidableEq

/-- `γ` stands for the geometry behind a GEOSGeometry pointer. What may differ
from one call to the next is indexed by the number of calls made before it. -/
structure Externals (γ : Type) where
  wktReader : Bytes → Option γ
  createPointFromXY : F64 → F64 → Option γ
  wkbReader : Bytes → Option γ
  wktWriter : γ → Bytes
  getXMin : γ → Option F64
  getXMax : γ → Option F64
  getYMin : γ → Option F64
  getYMax : γ → Option F64
  /-- GEOSCovers_r: 1 for true, 0 for false, 2 on exception. -/
  covers : Nat → γ → γ → Nat
  /-- The rows a statement prepared at that call steps through, in order. -/
  rows : Nat → Query → List Row
  sqliteFails : Nat → Option FailureCode
  allocates : Nat → Bool

/-- A GEOSGeometry pointer together with the geometry it points to. -/
structure GeomPtr (γ : Type) where
  addr : Nat
  geom : γ

/-- A buffer owned by the stack's allocator. -/
structure NameBuf where
  addr : Nat
  bytes : Bytes

structure Watershed (γ : Type) where
  huc : Vector UInt8 16
  name : NameBuf
  geom : GeomPtr γ

structure Bounds where
  minX : F64
  maxX : F64
  minY : F64
  maxY : F64
  deriving DecidableEq

/-- The bounds of no point: nothing lies inside them. -/
def Bounds.unset : Bounds := ⟨F64.floatMax, F64.floatMin, F64.floatMax, F64.floatMin⟩

structure EnvelopeXY where
  minx : F64
  maxx : F64
  miny : F64
  maxy : F64

/-- @sizeOf(HeaderAndEnvelopeXY). -/
def headerSize : Nat := 40

def littleEndian (bytes : Bytes) : Nat :=
  bytes.foldr (fun byte rest => byte.toNat + 256 * rest) 0

def doubleAt (shape : Bytes) (offset : Nat) : F64 :=
  F64.ofBits (littleEndian ((shape.drop offset).take 8))

/-- The envelope that follows the eight header bytes of a GeoPackage blob. -/
def EnvelopeXY.ofShape (shape : Bytes) : EnvelopeXY :=
  ⟨doubleAt shape 8, doubleAt shape 16, doubleAt shape 24, doubleAt shape 32⟩

/-- The header comparison of `searchStep`: true when the row is skipped unread. -/
def EnvelopeXY.misses (envelope : EnvelopeXY) (bounds : Bounds) : Bool :=
  F64.gt envelope.minx bounds.maxX || F64.lt envelope.maxx bounds.minX ||
    F64.gt envelope.miny bounds.maxY || F64.lt envelope.maxy bounds.minY

/-- The four bounds of a geometry; GEOS returns zero if there was an exception. -/
def Externals.boundsOf {γ : Type} (env : Externals γ) (geom : γ) : Bounds where
  minX := (env.getXMin geom).getD F64.floatMax
  maxX := (env.getXMax geom).getD F64.floatMin
  minY := (env.getYMin geom).getD F64.floatMax
  maxY := (env.getYMax geom).getD F64.floatMin

end WatershedOracle
