import WatershedOracle.Externals

set_option autoImplicit false

/-! The eight cached watersheds of watershed.zig and the functions that revise
them, in the source's order and under its names. -/

namespace WatershedOracle

variable {γ : Type}

/-- The levels of the hydrologic unit code, coarse to fine. -/
inductive Level
  | huc2 | huc4 | huc6 | huc8 | huc10 | huc12 | huc14 | huc16
  deriving DecidableEq, Repr

structure WatershedStack (γ : Type) where
  skipHuc14and16 : Bool
  point : Option (GeomPtr γ) := none
  pointBounds : Bounds := .unset
  requestId : Int := 0
  huc2 : Option (Watershed γ) := none
  huc4 : Option (Watershed γ) := none
  huc6 : Option (Watershed γ) := none
  huc8 : Option (Watershed γ) := none
  huc10 : Option (Watershed γ) := none
  huc12 : Option (Watershed γ) := none
  huc14 : Option (Watershed γ) := none
  huc16 : Option (Watershed γ) := none

namespace WatershedStack

def slot (stack : WatershedStack γ) : Level → Option (Watershed γ)
  | .huc2 => stack.huc2
  | .huc4 => stack.huc4
  | .huc6 => stack.huc6
  | .huc8 => stack.huc8
  | .huc10 => stack.huc10
  | .huc12 => stack.huc12
  | .huc14 => stack.huc14
  | .huc16 => stack.huc16

def setSlot (stack : WatershedStack γ) (value : Option (Watershed γ)) :
    Level → WatershedStack γ
  | .huc2 => { stack with huc2 := value }
  | .huc4 => { stack with huc4 := value }
  | .huc6 => { stack with huc6 := value }
  | .huc8 => { stack with huc8 := value }
  | .huc10 => { stack with huc10 := value }
  | .huc12 => { stack with huc12 := value }
  | .huc14 => { stack with huc14 := value }
  | .huc16 => { stack with huc16 := value }

def valid (stack : WatershedStack γ) : Bool :=
  stack.huc2.isSome || stack.huc4.isSome || stack.huc6.isSome || stack.huc8.isSome ||
    stack.huc10.isSome || stack.huc12.isSome || stack.huc14.isSome || stack.huc16.isSome

end WatershedStack

/-- What the resource discipline can see of a run, newest first in `Machine.events`. -/
inductive Event
  | geomCreated (addr : Nat)
  | geomDestroyed (addr : Nat)
  | nameAllocated (addr : Nat)
  | nameFreed (addr : Nat)
  | coversCalled (geom point : Nat)
  | searched (query : Query)
  | slotWritten (level : Level) (old : Option (Nat × Nat))

/-- The stack, the number of external calls made so far, and their record.
The call counter also serves as the address of what a call creates. -/
structure Machine (γ : Type) where
  stack : WatershedStack γ
  calls : Nat := 0
  events : List Event := []

/-- A method of WatershedStack. What it changed before failing stays changed. -/
abbrev Zig (γ α : Type) := EStateM Fault (Machine γ) α

def raise {α : Type} (e : ZigError) : Zig γ α := throw (.error e)

def panic {α : Type} (check : SafetyCheck) : Zig γ α := throw (.panic check)

def ofExcept {α : Type} : Except ZigError α → Zig γ α
  | .ok a => pure a
  | .error e => raise e

/-- The number of the external call that is now being made. -/
def tick : Zig γ Nat :=
  modifyGet fun m => (m.calls, { m with calls := m.calls + 1 })

def record (event : Event) : Zig γ Unit :=
  modify fun m => { m with events := event :: m.events }

def modifyStack (f : WatershedStack γ → WatershedStack γ) : Zig γ Unit :=
  modify fun m => { m with stack := f m.stack }

def storeSlot (level : Level) (value : Option (Watershed γ)) : Zig γ Unit := do
  let m ← get
  record (.slotWritten level ((m.stack.slot level).map fun w => (w.geom.addr, w.name.addr)))
  modifyStack fun stack => stack.setSlot value level

/-- An SQLite call whose result code goes through `check`. -/
def sqliteCall (env : Externals γ) : Zig γ Unit := do
  let now ← tick
  match env.sqliteFails now with
  | some code => ofExcept (check code.val)
  | none => ofExcept (check .SQLITE_OK)

/-- allocator.alloc(u8, size): a request for no bytes cannot fail. -/
def alloc (env : Externals γ) (size : Nat) : Zig γ Nat := do
  let now ← tick
  if size ≠ 0 ∧ env.allocates now = false then raise .OutOfMemory else pure now

def destroyGeom (geom : GeomPtr γ) : Zig γ Unit := record (.geomDestroyed geom.addr)

def freeName (name : NameBuf) : Zig γ Unit := record (.nameFreed name.addr)

/-- `GEOSCovers_r(handle, geom, self.point) == 1`; GEOS dereferences both pointers. -/
def pointCoveredBy (env : Externals γ) (geom : GeomPtr γ) : Zig γ Bool := do
  let m ← get
  match m.stack.point with
  | none => panic .nullUnwrap
  | some point =>
      let now ← tick
      record (.coversCalled geom.addr point.addr)
      pure (env.covers now geom.geom point.geom == 1)

/-- std.mem.span on a text column, which asserts that the pointer is not null. -/
def columnText (text : Option Bytes) : Zig γ Bytes :=
  match text with
  | some bytes => pure bytes
  | none => panic .unreachableReached

/-- sqlite3_blob_read fails when asked for more bytes than the blob has. -/
def blobRead (env : Externals γ) (shape : Bytes) (size offset : Nat) : Zig γ Unit :=
  if shape.length < offset + size then raise (.sqlite .SQLITE_ERROR) else sqliteCall env

/-- The step from one row to the next. `next` is the row sqlite3_step() lands on,
`none` when the statement is done; the result is a geometry covering the point. -/
def searchStep (env : Externals γ) (next : Option Row) : Zig γ (Option (GeomPtr γ)) := do
  let now ← tick
  let _ ← ofExcept (stepCheck (match env.sqliteFails now with
    | some code => code.val
    | none => if next.isSome then .SQLITE_ROW else .SQLITE_DONE))
  match next with
  | none => raise .pointNotInDataset
  | some row =>
      -- The debug line measures both texts before anything else is read.
      let _ ← columnText row.huc
      let _ ← columnText row.name
      sqliteCall env
      blobRead env row.shape headerSize 0
      let m ← get
      if (EnvelopeXY.ofShape row.shape).misses m.stack.pointBounds then
        pure none
      else
        if row.shape.length < headerSize then panic .integerOverflow else
        let _ ← alloc env (row.shape.length - headerSize)
        blobRead env row.shape (row.shape.length - headerSize) headerSize
        match env.wkbReader (row.shape.drop headerSize) with
        | none => panic .nullUnwrap
        | some geom =>
            let addr ← tick
            let geometry : GeomPtr γ := ⟨addr, geom⟩
            record (.geomCreated addr)
            let covered ← pointCoveredBy env geometry
            if covered then
              pure (some geometry)
            else
              destroyGeom geometry
              pure none

/-- The `while (true)` of `search` over the rows of its statement: the row on
which the statement rests when it ends, and the geometry found there. -/
def searchLoop (env : Externals γ) : List Row → Zig γ (Row × GeomPtr γ)
  | [] => do
      let _ ← searchStep env none
      panic .unreachableReached
  | row :: rest => do
      match ← searchStep env (some row) with
      | some geometry => pure (row, geometry)
      | none => searchLoop env rest

/-- Sixteen bytes holding the code, filled up with spaces. -/
def padHuc (code : Bytes) (fits : code.length ≤ 16) : Vector UInt8 16 :=
  ⟨(code ++ List.replicate (16 - code.length) 32).toArray, by simp; omega⟩

def search (env : Externals γ) (hucLevel tableName : String) (likePattern : Bytes) :
    Zig γ (Watershed γ) := do
  let query : Query := ⟨hucLevel, tableName, likePattern⟩
  record (.searched query)
  -- The query text is never empty, so its allocation may fail whatever it says.
  let _ ← alloc env (likePattern.length + 1)
  sqliteCall env
  let now ← tick
  let (row, newGeom) ← searchLoop env (env.rows now query)
  let hucSpan ← columnText row.huc
  if fits : hucSpan.length ≤ 16 then
    let nameSpan ← columnText row.name
    let addr ← alloc env nameSpan.length
    record (.nameAllocated addr)
    pure ⟨padHuc hucSpan fits, ⟨addr, nameSpan⟩, newGeom⟩
  else
    panic .indexOutOfBounds

/-- The first `digits` bytes of the stored code. -/
def Watershed.hucPrefix (w : Watershed γ) (digits : Nat) : Bytes := w.huc.toList.take digits

/-! Updates propagate down the stack to smaller regions. -/

/-- The common body of updateHUC4 to updateHUC12: search below the parent, store,
go on with the next finer level. -/
def updateBelow (env : Externals γ) (parent level : Level) (hucLevel tableName : String)
    (digits : Nat) (next : Zig γ Unit) : Zig γ Unit := do
  let m ← get
  match m.stack.slot parent with
  | none => pure ()
  | some huc =>
      let found ← search env hucLevel tableName (huc.hucPrefix digits)
      storeSlot level (some found)
      next

def updateHUC16 (env : Externals γ) : Zig γ Unit := do
  let m ← get
  if m.stack.skipHuc14and16 then pure ()
  else match m.stack.huc14 with
    | none => pure ()
    | some huc14 =>
        let found ← search env "huc16" "WBDHU16" (huc14.hucPrefix 14)
        storeSlot .huc16 (some found)

/-- The `catch` of updateHUC14: being outside the dataset is no error there. -/
def unlessNotInDataset {α : Type} (x : Zig γ α) : Zig γ (Option α) :=
  tryCatch (some <$> x) fun
    | .error .pointNotInDataset => pure none
    | fault => throw fault

/-- Unlike every other level, a HUC14 that is not found ends the descent in success. -/
def updateHUC14 (env : Externals γ) : Zig γ Unit := do
  let m ← get
  if m.stack.skipHuc14and16 then pure ()
  else match m.stack.huc12 with
    | none => pure ()
    | some huc12 =>
        match ← unlessNotInDataset (search env "huc14" "WBDHU14" (huc12.hucPrefix 12)) with
        | none => pure ()
        | some found =>
            storeSlot .huc14 (some found)
            updateHUC16 env

def updateHUC12 (env : Externals γ) : Zig γ Unit :=
  updateBelow env .huc10 .huc12 "huc12" "WBDHU12" 10 (updateHUC14 env)

def updateHUC10 (env : Externals γ) : Zig γ Unit :=
  updateBelow env .huc8 .huc10 "huc10" "WBDHU10" 8 (updateHUC12 env)

def updateHUC8 (env : Externals γ) : Zig γ Unit :=
  updateBelow env .huc6 .huc8 "huc8" "WBDHU8" 6 (updateHUC10 env)

def updateHUC6 (env : Externals γ) : Zig γ Unit :=
  updateBelow env .huc4 .huc6 "huc6" "WBDHU6" 4 (updateHUC8 env)

def updateHUC4 (env : Externals γ) : Zig γ Unit :=
  updateBelow env .huc2 .huc4 "huc4" "WBDHU4" 2 (updateHUC6 env)

def updateHUC2 (env : Externals γ) : Zig γ Unit := do
  let found ← search env "huc2" "WBDHU2" []
  storeSlot .huc2 (some found)
  updateHUC4 env

/-! Checks propagate up the stack to larger geographic regions. -/

/-- The common body of the eight checks: a cached region that covers the point is
kept and the descent starts below it; any other is released before going up. -/
def checkLevel (env : Externals γ) (level : Level) (down up : Zig γ Unit) : Zig γ Unit := do
  let m ← get
  match m.stack.slot level with
  | some huc =>
      let covered ← pointCoveredBy env huc.geom
      if covered then
        down
      else
        destroyGeom huc.geom
        freeName huc.name
        storeSlot level none
        up
  | none =>
      storeSlot level none
      up

def checkHUC2 (env : Externals γ) : Zig γ Unit :=
  checkLevel env .huc2 (updateHUC4 env) (updateHUC2 env)

def checkHUC4 (env : Externals γ) : Zig γ Unit :=
  checkLevel env .huc4 (updateHUC6 env) (checkHUC2 env)

def checkHUC6 (env : Externals γ) : Zig γ Unit :=
  checkLevel env .huc6 (updateHUC8 env) (checkHUC4 env)

def checkHUC8 (env : Externals γ) : Zig γ Unit :=
  checkLevel env .huc8 (updateHUC10 env) (checkHUC6 env)

def checkHUC10 (env : Externals γ) : Zig γ Unit :=
  checkLevel env .huc10 (updateHUC12 env) (checkHUC8 env)

def checkHUC12 (env : Externals γ) : Zig γ Unit :=
  checkLevel env .huc12 (updateHUC14 env) (checkHUC10 env)

def checkHUC14 (env : Externals γ) : Zig γ Unit :=
  checkLevel env .huc14 (updateHUC16 env) (checkHUC12 env)

def checkHUC16 (env : Externals γ) : Zig γ Unit :=
  checkLevel env .huc16 (pure ()) (checkHUC14 env)

/-! The point under which the stack is valid. -/

inductive PointLocation
  | wkt (text : Bytes)
  | xy (x y : F64)
  deriving DecidableEq

structure Point where
  requestId : Int := 0
  location : PointLocation
  deriving DecidableEq

def clearPoint : Zig γ Unit := do
  let m ← get
  match m.stack.point with
  | some point => destroyGeom point
  | none => pure ()
  modifyStack fun stack => { stack with point := none, pointBounds := .unset }

/-- The assignment of a freshly made geometry to `self.point`. -/
def setPoint (geom : γ) : Zig γ Unit := do
  let addr ← tick
  record (.geomCreated addr)
  modifyStack fun stack => { stack with point := some ⟨addr, geom⟩ }

def updateStack (env : Externals γ) : Zig γ Unit := do
  let m ← get
  match m.stack.point with
  | none => raise .updateNullPoint
  | some point =>
      modifyStack fun stack => { stack with pointBounds := env.boundsOf point.geom }
      if m.stack.skipHuc14and16 then checkHUC12 env else checkHUC16 env

/-- The common body of updateWKT and updateXY. -/
def updateTo (env : Externals γ) (made : Option γ) (failure : ZigError) : Zig γ Unit := do
  clearPoint
  match made with
  | none => raise failure
  | some geom =>
      setPoint geom
      updateStack env

def updateWKT (env : Externals γ) (newPoint : Bytes) : Zig γ Unit :=
  updateTo env (env.wktReader newPoint) .updateWKT

def updateXY (env : Externals γ) (x y : F64) : Zig γ Unit :=
  updateTo env (env.createPointFromXY x y) .updateXY

def update (env : Externals γ) (newPoint : Point) : Zig γ Unit := do
  modifyStack fun stack => { stack with requestId := newPoint.requestId }
  match newPoint.location with
  | .wkt text => updateWKT env text
  | .xy x y => updateXY env x y

/-- The value of `WatershedStack.init` once the database is open. -/
def WatershedStack.init (skipHuc14and16 : Bool) : WatershedStack γ :=
  { skipHuc14and16 }

/-- What `deinit` gives up of one slot, which it leaves in place. -/
def releaseSlot (level : Level) : Zig γ Unit := do
  let m ← get
  match m.stack.slot level with
  | some huc =>
      freeName huc.name
      destroyGeom huc.geom
  | none => pure ()

/-- The GEOS and SQLite contexts that end here own no geometry and no name. -/
def deinit : Zig γ Unit := do
  clearPoint
  releaseSlot .huc2
  releaseSlot .huc4
  releaseSlot .huc6
  releaseSlot .huc8
  releaseSlot .huc10
  releaseSlot .huc12
  releaseSlot .huc14
  releaseSlot .huc16
  storeSlot .huc2 none
  storeSlot .huc4 none
  storeSlot .huc6 none
  storeSlot .huc8 none
  storeSlot .huc10 none
  storeSlot .huc12 none
  storeSlot .huc14 none
  storeSlot .huc16 none

end WatershedOracle
