import WatershedOracle.Dataset
import WatershedOracle.PointSrc

set_option autoImplicit false

/-! The main loop, and what it prints after each update. -/

namespace WatershedOracle

open Effect

variable {γ : Type}

/-- std.fmt's text of a float, which is left open. -/
abbrev FloatText := F64 → Bytes

/-! ### The printers of watershed.zig -/

def hucMember (level : Level) (w : Watershed γ) : String × Zig.Json.Node F64 :=
  (level.hucLevel,
    .object [("name", .slice w.name.bytes), ("huc", .slice (w.hucPrefix level.digits))])

def pointMember (env : Externals γ) (stack : WatershedStack γ) (point : GeomPtr γ) :
    String × Zig.Json.Node F64 :=
  ("point", .object [("WKT", .slice (env.wktWriter point.geom)),
    ("longitude", .float stack.pointBounds.minX), ("latitude", .float stack.pointBounds.minY)])

/-- The object that `printJSON` writes, member by member. -/
def document (env : Externals γ) (stack : WatershedStack γ) : Zig.Json.Document F64 :=
  [("requestId", .scalar (.integer stack.requestId))] ++
    (if stack.valid then [] else [("pointNotInDataset", .scalar (.bool true))]) ++
    (stack.point.map (pointMember env stack)).toList ++
    Level.all.filterMap fun level => (stack.slot level).map (hucMember level)

def printJSON (env : Externals γ) (floatText : FloatText) (stack : WatershedStack γ) : Bytes :=
  Zig.Json.render floatText (document env stack) ++ [Nmea.lineFeed]

def printPoint (env : Externals γ) (stack : WatershedStack γ) : Bytes :=
  match stack.point with
  | some point => Zig.ascii "Point of interest: " ++ env.wktWriter point.geom ++ [Nmea.lineFeed]
  | none => Zig.ascii "Point of interest not set.\n"

/-- The code is printed with the spaces that fill it up. -/
def printStack (stack : WatershedStack γ) : Bytes :=
  Zig.ascii "Watershed stack:\n" ++ Level.all.flatMap fun level =>
    match stack.slot level with
    | some w => w.huc.toList ++ Zig.ascii " : " ++ w.name.bytes ++ [Nmea.lineFeed]
    | none => []

/-- What the loop prints once an update is over. -/
def answer (env : Externals γ) (floatText : FloatText) (json : Bool)
    (stack : WatershedStack γ) : Bytes :=
  if json then printJSON env floatText stack
  else if stack.valid then printPoint env stack ++ printStack stack
  else []

/-! ### The loop -/

/-- All that was printed, how the run ended, and the machine it left. -/
structure Run (γ : Type) where
  output : Bytes
  result : Except Fault Unit
  machine : Machine γ

def Run.after (printed : Bytes) (run : Run γ) : Run γ :=
  { run with output := printed ++ run.output }

@[simp] theorem Run.after_output (printed : Bytes) (run : Run γ) :
    (run.after printed).output = printed ++ run.output := rfl

@[simp] theorem Run.after_result (printed : Bytes) (run : Run γ) :
    (run.after printed).result = run.result := rfl

section Loop

variable (env : Externals γ) (floatText : FloatText) (provider : PointProvider) (json : Bool)

/-- The `while (true)` of main over the lines not yet read. -/
def mainLoop (m : Machine γ) (lines : List Bytes) : Run γ :=
  match _next : nextPoint provider json lines with
  | .error (.error .NoMorePoints) => ⟨[], .ok (), m⟩
  | .error fault => ⟨[], .error fault, m⟩
  | .ok (point, rest) =>
      match (update env point).run m with
      | .ok () m' => (mainLoop m' rest).after (answer env floatText json m'.stack)
      | .error (.error .pointNotInDataset) m' =>
          -- Logged, and printed like any other answer.
          (mainLoop m' rest).after (answer env floatText json m'.stack)
      | .error fault m' => ⟨[], .error fault, m'⟩
termination_by lines.length
decreasing_by all_goals exact nextPoint_shorter _next

/-- main, once the arguments are read and the database is open. -/
def main (skipHuc14and16 : Bool) (input : Bytes) : Run γ :=
  mainLoop env floatText provider json { stack := .init skipHuc14and16 } (terminatedLines input)

end Loop

section Lines

variable (env : Externals γ) (floatText : FloatText) (provider : PointProvider) (json : Bool)

/-- What one line is to the point source: a fault, a point, or a sentence without one. -/
def readLine (line : Bytes) : Except Fault (Option Point) :=
  match provider with
  | .stdin =>
      if json then
        match parsePointJson line with
        | .ok point => .ok (some ⟨point.requestId, .xy point.longitude point.latitude⟩)
        | .error e => .error (.error e)
      else .ok (some ⟨0, .wkt (line.takeWhile (· ≠ 0))⟩)
  | .gpsMock =>
      match Nmea.parse line with
      | .error fault => .error fault
      | .ok sentence => .ok ((Nmea.extractPoint sentence).map fun (x, y) => ⟨0, .xy x y⟩)

@[simp] theorem nextPoint_nil : nextPoint provider json [] = .error (.error .NoMorePoints) := by
  cases provider <;> rfl

/-- The point sources look at one line after the other. -/
theorem nextPoint_cons (line : Bytes) (rest : List Bytes) :
    nextPoint provider json (line :: rest) =
      match readLine provider json line with
      | .error fault => .error fault
      | .ok none => nextPoint provider json rest
      | .ok (some point) => .ok (point, rest) := by
  cases provider with
  | stdin =>
    cases json with
    | false => rfl
    | true =>
      simp only [nextPoint, stdinNextPoint, readLine, ↓reduceIte]
      cases parsePointJson line <;> rfl
  | gpsMock =>
    simp only [nextPoint, readLine]
    rw [gpsMockNextPoint]
    cases Nmea.parse line with
    | error fault => rfl
    | ok sentence =>
      dsimp only
      cases Nmea.extractPoint sentence <;> rfl

/-- The loop, without the proof that it ends. -/
theorem mainLoop_eq (m : Machine γ) (lines : List Bytes) :
    mainLoop env floatText provider json m lines =
      match nextPoint provider json lines with
      | .error (.error .NoMorePoints) => ⟨[], .ok (), m⟩
      | .error fault => ⟨[], .error fault, m⟩
      | .ok (point, rest) =>
          match (update env point).run m with
          | .ok () m' =>
              (mainLoop env floatText provider json m' rest).after (answer env floatText json m'.stack)
          | .error (.error .pointNotInDataset) m' =>
              (mainLoop env floatText provider json m' rest).after (answer env floatText json m'.stack)
          | .error fault m' => ⟨[], .error fault, m'⟩ := by
  rw [mainLoop]
  split <;> rename_i next <;> simp only [next]

@[simp] theorem mainLoop_nil (m : Machine γ) :
    mainLoop env floatText provider json m [] = ⟨[], .ok (), m⟩ := by
  rw [mainLoop_eq, nextPoint_nil]

variable {env floatText provider json} {m : Machine γ} {line : Bytes} (rest : List Bytes)

/-- A line that the point source passes over. -/
theorem mainLoop_pass (none_ : readLine provider json line = .ok none) :
    mainLoop env floatText provider json m (line :: rest) =
      mainLoop env floatText provider json m rest := by
  rw [mainLoop_eq, nextPoint_cons, none_, ← mainLoop_eq]

/-- A line that the point source rejects. -/
theorem mainLoop_reject {fault : Fault} (rejected : readLine provider json line = .error fault)
    (ends : fault ≠ .error .NoMorePoints) :
    mainLoop env floatText provider json m (line :: rest) = ⟨[], .error fault, m⟩ := by
  rw [mainLoop_eq, nextPoint_cons, rejected]
  split <;> simp_all

/-- A line whose point is looked up and answered. -/
theorem mainLoop_answer {point : Point} (read : readLine provider json line = .ok (some point))
    (clean : Clean ((update env point).run m)) :
    mainLoop env floatText provider json m (line :: rest) =
      (mainLoop env floatText provider json (endState ((update env point).run m)) rest).after
        (answer env floatText json (endState ((update env point).run m)).stack) := by
  rw [mainLoop_eq, nextPoint_cons, read]
  dsimp only
  generalize (update env point).run m = result at clean ⊢
  cases clean <;> rfl

/-- A line whose point cannot be looked up. -/
theorem mainLoop_fail {point : Point} (read : readLine provider json line = .ok (some point))
    {fault : Fault} {m' : Machine γ} (failed : (update env point).run m = .error fault m')
    (ends : fault ≠ .error .pointNotInDataset) :
    mainLoop env floatText provider json m (line :: rest) = ⟨[], .error fault, m'⟩ := by
  rw [mainLoop_eq, nextPoint_cons, read]
  simp only [failed]

end Lines

end WatershedOracle
