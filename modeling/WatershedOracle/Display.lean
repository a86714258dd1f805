import WatershedOracle.Main

set_option autoImplicit false

/-! The screen of DisplayRaylib.zig, and the main loop that draws on it: the splash
until a position was found, then the watersheds of the stack. -/

namespace WatershedOracle

open Effect

variable {γ : Type}

namespace Display

def screenWidth : Int := 400

inductive Color
  | RAYWHITE | BLACK
  deriving DecidableEq

/-- The calls of raylib that make a frame. -/
inductive Call
  | BeginDrawing
  | ClearBackground (color : Color)
  | DrawText (text : Bytes) (posX posY fontSize : Int) (color : Color)
  | DrawLine (startPosX startPosY endPosX endPosY : Int) (color : Color)
  | EndDrawing
  deriving DecidableEq

inductive State
  | splash | watersheds
  deriving DecidableEq

/-- What can be seen of a run from outside. -/
inductive Moment
  | asked (point : Point)
  | printed (text : Bytes)
  | frame (calls : List Call)

end Display

structure Display where
  satilites : Int := 0
  state : Display.State := .splash
  textBuffer : Bytes := []
  /-- How many texts were put into the buffer. -/
  texts : Nat := 0
  /-- The calls since the buffers were last swapped. -/
  pending : List Display.Call := []
  moments : List Display.Moment := []

abbrev Draw := EStateM Fault Display

namespace Display

def call (c : Call) : Draw Unit := modify fun dsp => { dsp with pending := dsp.pending ++ [c] }

def record (moment : Moment) : Draw Unit :=
  modify fun dsp => { dsp with moments := dsp.moments ++ [moment] }

/-- raylib is built to show a frame here only, and not already at EndDrawing. -/
def SwapScreenBuffer : Draw Unit :=
  modify fun dsp => { dsp with pending := [], moments := dsp.moments ++ [.frame dsp.pending] }

/-- A C string ends at its first zero byte. -/
def cString (bytes : Bytes) : Bytes := bytes.takeWhile (· ≠ 0)

section Drawing

-- Whether the text buffer finds the memory for the text of this number.
variable (room : Nat → Bool)

/-- `clearRetainingCapacity`, and a `print` of the text with a zero byte after it. -/
def print (text : Bytes) : Draw Unit := do
  let dsp ← get
  set { dsp with textBuffer := [], texts := dsp.texts + 1 }
  if room dsp.texts then modify fun dsp => { dsp with textBuffer := text ++ [0] }
  else throw (.error .OutOfMemory)

/-- A text goes to raylib through the buffer. -/
def drawText (text : Bytes) (posX posY fontSize : Int) : Draw Unit := do
  print room text
  let dsp ← get
  call (.DrawText (cString dsp.textBuffer) posX posY fontSize .BLACK)

def drawSplashScreen : Draw Unit :=
  call (.DrawText (Zig.ascii "Watershed Oracle") 20 100 40 .BLACK)

/-- `{:2}`, which fills a short number up from the left. -/
def padded (n : Int) : Bytes :=
  List.replicate (2 - (Zig.Json.intText n).length) 32 ++ Zig.Json.intText n

def drawSatilitesInView : Draw Unit := do
  let dsp ← get
  drawText room (padded dsp.satilites) 350 10 25

def drawWatershed (wshed : Watershed γ) (posY : Int) : Draw Unit := do
  drawText room wshed.huc.toList 10 posY 10
  drawText room wshed.name.bytes 20 (posY + 10) 20

/-- The slots that have a place on the screen, and where it is. -/
def dispArray (stack : WatershedStack γ) : List (Option (Watershed γ) × Int) :=
  [(stack.huc2, 40), (stack.huc4, 70), (stack.huc6, 100), (stack.huc8, 130), (stack.huc10, 160),
    (stack.huc12, 190)]

def drawRows : List (Option (Watershed γ) × Int) → Draw Unit
  | [] => pure ()
  | (w, posY) :: rest => do
      match w with
      | some w => drawWatershed room w posY
      | none => pure ()
      drawRows rest

def drawWatersheds (stack : WatershedStack γ) : Draw Unit := do
  call (.DrawText (Zig.ascii "Your watershed stack:") 20 10 25 .BLACK)
  call (.DrawLine 18 35 (screenWidth - 18) 35 .BLACK)
  drawRows room (dispArray stack)

/-- The `switch` of draw. -/
def drawState (stack : WatershedStack γ) : Draw Unit := do
  let dsp ← get
  match dsp.state with
  | .splash => drawSplashScreen
  | .watersheds => drawWatersheds room stack

def draw (stack : WatershedStack γ) : Draw Unit := do
  call .BeginDrawing
  call (.ClearBackground .RAYWHITE)
  drawState room stack
  drawSatilitesInView room
  call .EndDrawing
  SwapScreenBuffer

def setSatilitesInView (stack : WatershedStack γ) (totalNumSat : Int) : Draw Unit := do
  modify fun dsp => { dsp with satilites := totalNumSat }
  draw room stack

def drawSplash (stack : WatershedStack γ) : Draw Unit := do
  modify fun dsp => { dsp with state := .splash }
  draw room stack

def drawWatershedStack (stack : WatershedStack γ) : Draw Unit := do
  modify fun dsp => { dsp with state := .watersheds }
  draw room stack

/-! ### The main loop -/

def showSentence (stack : WatershedStack γ) : Nmea.Sentence → Draw Unit
  | .GSV gsv => setSatilitesInView room stack gsv.totalNumSat
  | _ => pure ()

/-- gpsMock.zig with a screen, on which every GSV sentence is shown. -/
def gpsMockNextPoint (stack : WatershedStack γ) : List Bytes → Draw (Point × List Bytes)
  | [] => throw (.error .NoMorePoints)
  | line :: rest => do
      match Nmea.parse line with
      | .error fault => throw fault
      | .ok sentence =>
          showSentence room stack sentence
          match Nmea.extractPoint sentence with
          | some (x, y) => pure (⟨0, .xy x y⟩, rest)
          | none => gpsMockNextPoint stack rest

/-- stdin.zig has no use for the screen. -/
def nextPoint (provider : PointProvider) (json : Bool) (stack : WatershedStack γ)
    (lines : List Bytes) : Draw (Point × List Bytes) :=
  match provider with
  | .stdin =>
      match stdinNextPoint json lines with
      | .ok found => pure found
      | .error fault => throw fault
  | .gpsMock => gpsMockNextPoint room stack lines

/-- What the loop does once an update is over. -/
def show_ (env : Externals γ) (floatText : FloatText) (json : Bool) (stack : WatershedStack γ) :
    Draw Unit := do
  record (.printed (answer env floatText json stack))
  if stack.valid then drawWatershedStack room stack

end Drawing

/-- How a run ended, and what it left. -/
structure Shown (γ : Type) where
  result : Except Fault Unit
  machine : Machine γ
  display : Display

/-- One round of the loop ends it or leaves the lines not yet read. -/
inductive Round (γ : Type)
  | stops (shown : Shown γ)
  | goes (m : Machine γ) (dsp : Display) (rest : List Bytes)

section Loop

variable (room : Nat → Bool) (env : Externals γ) (floatText : FloatText)
  (provider : PointProvider) (json : Bool)

def showAnd (m : Machine γ) (dsp : Display) (rest : List Bytes) : Round γ :=
  match (show_ room env floatText json m.stack).run dsp with
  | .ok () dsp' => .goes m dsp' rest
  | .error fault dsp' => .stops ⟨.error fault, m, dsp'⟩

def round (m : Machine γ) (dsp : Display) (lines : List Bytes) : Round γ :=
  match (nextPoint room provider json m.stack lines).run dsp with
  | .error (.error .NoMorePoints) dsp' => .stops ⟨.ok (), m, dsp'⟩
  | .error fault dsp' => .stops ⟨.error fault, m, dsp'⟩
  | .ok (point, rest) dsp' =>
      let asked := { dsp' with moments := dsp'.moments ++ [.asked point] }
      match (update env point).run m with
      | .ok () m' => showAnd room env floatText json m' asked rest
      | .error (.error .pointNotInDataset) m' => showAnd room env floatText json m' asked rest
      | .error fault m' => .stops ⟨.error fault, m', asked⟩

variable {room env floatText provider json} {m : Machine γ} {dsp : Display}

theorem gpsMockNextPoint_shorter {stack : WatershedStack γ} {lines rest : List Bytes}
    {point : Point} {dsp' : Display}
    (next : (gpsMockNextPoint room stack lines).run dsp = .ok (point, rest) dsp') :
    rest.length < lines.length := by
  induction lines generalizing dsp with
  | nil => cases next
  | cons line others ih =>
    unfold gpsMockNextPoint at next
    split at next
    · cases next
    · rw [EStateM.run_bind] at next
      split at next
      · split at next
        · cases next
          exact Nat.lt_succ_self _
        · exact Nat.lt_succ_of_lt (ih next)
      · cases next

theorem nextPoint_shorter {stack : WatershedStack γ} {lines rest : List Bytes} {point : Point}
    {dsp' : Display}
    (next : (nextPoint room provider json stack lines).run dsp = .ok (point, rest) dsp') :
    rest.length < lines.length := by
  cases provider with
  | gpsMock => exact gpsMockNextPoint_shorter next
  | stdin =>
    simp only [nextPoint] at next
    split at next
    · rename_i found
      cases next
      exact stdinNextPoint_shorter found
    · cases next

theorem showAnd_rest {m' : Machine γ} {dsp' : Display} {lines rest : List Bytes}
    (goes : showAnd room env floatText json m dsp lines = .goes m' dsp' rest) : rest = lines := by
  unfold showAnd at goes
  split at goes <;> cases goes
  rfl

theorem round_shorter {m' : Machine γ} {dsp' : Display} {lines rest : List Bytes}
    (goes : round room env floatText provider json m dsp lines = .goes m' dsp' rest) :
    rest.length < lines.length := by
  unfold round at goes
  split at goes
  · cases goes
  · cases goes
  · rename_i found
    have shorter := nextPoint_shorter found
    split at goes
    · rwa [showAnd_rest goes]
    · rwa [showAnd_rest goes]
    · cases goes

variable (room env floatText provider json)

/-- The `while (true)` of main, with a screen. -/
def loop (m : Machine γ) (dsp : Display) (lines : List Bytes) : Shown γ :=
  match _round : round room env floatText provider json m dsp lines with
  | .stops shown => shown
  | .goes m' dsp' rest => loop m' dsp' rest
termination_by lines.length
decreasing_by exact round_shorter _round

def main (skipHuc14and16 : Bool) (input : Bytes) : Shown γ :=
  let m : Machine γ := { stack := .init skipHuc14and16 }
  match (drawSplash room m.stack).run {} with
  | .ok () dsp => loop room env floatText provider json m dsp (terminatedLines input)
  | .error fault dsp => ⟨.error fault, m, dsp⟩

end Loop

/-! ### What is drawn -/

def textAt (text : Bytes) (posX posY fontSize : Int) : Call :=
  .DrawText (cString text) posX posY fontSize .BLACK

def rowCalls : Option (Watershed γ) × Int → List Call
  | (some w, posY) => [textAt w.huc.toList 10 posY 10, textAt w.name.bytes 20 (posY + 10) 20]
  | (none, _) => []

def stateCalls (stack : WatershedStack γ) : State → List Call
  | .splash => [.DrawText (Zig.ascii "Watershed Oracle") 20 100 40 .BLACK]
  | .watersheds =>
      [.DrawText (Zig.ascii "Your watershed stack:") 20 10 25 .BLACK] ++
        ([.DrawLine 18 35 (screenWidth - 18) 35 .BLACK] ++ (dispArray stack).flatMap rowCalls)

/-- The calls of one frame. -/
def frame (state : State) (satilites : Int) (stack : WatershedStack γ) : List Call :=
  [.BeginDrawing] ++ ([.ClearBackground .RAYWHITE] ++ (stateCalls stack state ++
    ([textAt (padded satilites) 350 10 25] ++ [.EndDrawing])))

/-- The screen is the same but for what was drawn since. -/
structure Beside (dsp dsp' : Display) (calls : List Call) : Prop where
  satilites : dsp'.satilites = dsp.satilites
  state : dsp'.state = dsp.state
  moments : dsp'.moments = dsp.moments
  pending : dsp'.pending = dsp.pending ++ calls

/-- No frame comes of it, for want of memory. -/
structure Starved (room : Nat → Bool) (dsp : Display) (fault : Fault) (dsp' : Display) : Prop where
  fault : fault = .error .OutOfMemory
  moments : dsp'.moments = dsp.moments
  full : ∃ n, room n = false

section Drawn

variable {room : Nat → Bool}

def Draws (room : Nat → Bool) (x : Draw Unit) (dsp : Display) (calls : List Call) : Prop :=
  Ends x dsp (fun _ dsp' => Beside dsp dsp' calls) (Starved room dsp)

theorem Beside.trans {dsp dsp' dsp'' : Display} {first second : List Call}
    (one : Beside dsp dsp' first) (two : Beside dsp' dsp'' second) :
    Beside dsp dsp'' (first ++ second) where
  satilites := two.satilites.trans one.satilites
  state := two.state.trans one.state
  moments := two.moments.trans one.moments
  pending := by rw [two.pending, one.pending, List.append_assoc]

theorem Draws.bind {x y : Draw Unit} {dsp : Display} {first second : List Call}
    (one : Draws room x dsp first)
    (two : ∀ dsp', Beside dsp dsp' first → Draws room y dsp' second) :
    Draws room (do x; y) dsp (first ++ second) := by
  unfold Draws
  rw [ends_bind]
  apply Ends.mono one
  · intro _ dsp' beside
    apply Ends.mono (two dsp' beside)
    · intro _ dsp'' further
      exact beside.trans further
    · intro fault dsp'' starved
      exact ⟨starved.fault, starved.moments.trans beside.moments, starved.full⟩
  · intro fault dsp' starved
    exact starved

variable (room) in
theorem draws_call (c : Call) (dsp : Display) : Draws room (call c) dsp [c] :=
  ⟨rfl, rfl, rfl, rfl⟩

theorem cString_zero (text : Bytes) : cString (text ++ [0]) = cString text := by
  unfold cString
  rw [List.takeWhile_append]
  split
  · rename_i whole
    rw [List.takeWhile_cons_of_neg (by simp), List.append_nil]
    exact ((List.takeWhile_prefix _).eq_of_length whole).symm
  · rfl

theorem draws_text (text : Bytes) (posX posY fontSize : Int) (dsp : Display) :
    Draws room (drawText room text posX posY fontSize) dsp
      [textAt text posX posY fontSize] := by
  have run : (drawText room text posX posY fontSize).run dsp =
      if room dsp.texts = true then
        .ok () { dsp with
          textBuffer := text ++ [0], texts := dsp.texts + 1
          pending := dsp.pending ++
            [.DrawText (cString (text ++ [0])) posX posY fontSize .BLACK] }
      else .error (.error .OutOfMemory) { dsp with textBuffer := [], texts := dsp.texts + 1 } := by
    unfold drawText print
    simp only [EStateM.run_bind, EStateM.run_get, EStateM.run_set]
    cases room dsp.texts <;> rfl
  unfold Draws Ends
  rw [run, cString_zero]
  cases full : room dsp.texts with
  | true => exact ⟨rfl, rfl, rfl, rfl⟩
  | false => exact ⟨rfl, rfl, dsp.texts, full⟩

theorem draws_watershed (w : Watershed γ) (posY : Int) (dsp : Display) :
    Draws room (drawWatershed room w posY) dsp (rowCalls (some w, posY)) :=
  (draws_text _ _ _ _ dsp).bind fun _ _ => draws_text _ _ _ _ _

theorem draws_rows (slots : List (Option (Watershed γ) × Int)) (dsp : Display) :
    Draws room (drawRows room slots) dsp (slots.flatMap rowCalls) := by
  induction slots generalizing dsp with
  | nil => exact ⟨rfl, rfl, rfl, (List.append_nil _).symm⟩
  | cons slot rest ih =>
    obtain ⟨w, posY⟩ := slot
    cases w with
    | some w => exact (draws_watershed w posY dsp).bind fun dsp' _ => ih dsp'
    | none => exact ih dsp

theorem draws_state (stack : WatershedStack γ) {state : State} {dsp : Display}
    (shows : dsp.state = state) :
    Draws room (drawState room stack) dsp (stateCalls stack state) := by
  have run : (drawState room stack).run dsp =
      (match dsp.state with
        | .splash => drawSplashScreen
        | .watersheds => drawWatersheds room stack).run dsp := rfl
  unfold Draws Ends
  rw [run, shows]
  cases state with
  | splash => exact draws_call room _ dsp
  | watersheds =>
    exact (draws_call room _ dsp).bind fun _ _ =>
      (draws_call room _ _).bind fun _ _ => draws_rows _ _

theorem draws_satilites {n : Int} {dsp : Display} (counted : dsp.satilites = n) :
    Draws room (drawSatilitesInView room) dsp [textAt (padded n) 350 10 25] := by
  have run : (drawSatilitesInView room).run dsp =
      (drawText room (padded dsp.satilites) 350 10 25).run dsp := rfl
  unfold Draws Ends
  rw [run, counted]
  exact draws_text (padded n) 350 10 25 dsp

/-- One more frame is shown, of the state and the count that the screen had. -/
structure Drawn (stack : WatershedStack γ) (dsp dsp' : Display) : Prop where
  satilites : dsp'.satilites = dsp.satilites
  state : dsp'.state = dsp.state
  moments : dsp'.moments = dsp.moments ++ [.frame (frame dsp.state dsp.satilites stack)]
  pending : dsp'.pending = []

theorem draw_ends (stack : WatershedStack γ) {dsp : Display} (fresh : dsp.pending = []) :
    Ends (draw room stack) dsp (fun _ dsp' => Drawn stack dsp dsp') (Starved room dsp) := by
  have regroup : draw room stack = (do
      (do
        call .BeginDrawing
        call (.ClearBackground .RAYWHITE)
        drawState room stack
        drawSatilitesInView room
        call .EndDrawing)
      SwapScreenBuffer) := by
    simp only [draw, bind_assoc]
  have calls : Draws room (do
      call .BeginDrawing
      call (.ClearBackground .RAYWHITE)
      drawState room stack
      drawSatilitesInView room
      call .EndDrawing) dsp (frame dsp.state dsp.satilites stack) := by
    apply (draws_call room _ dsp).bind
    intro dsp₁ began
    apply (draws_call room _ dsp₁).bind
    intro dsp₂ cleared
    have beside := began.trans cleared
    apply (draws_state stack beside.state).bind
    intro dsp₃ shown
    apply (draws_satilites (beside.trans shown).satilites).bind
    intro dsp₄ _
    exact draws_call room _ dsp₄
  rw [regroup, ends_bind]
  apply Ends.mono calls
  · intro _ dsp' beside
    have whole : dsp'.pending = frame dsp.state dsp.satilites stack := by
      rw [beside.pending, fresh, List.nil_append]
    exact ⟨beside.satilites, beside.state, by rw [← whole, ← beside.moments], rfl⟩
  · intro fault dsp' starved
    exact starved

/-- One more frame after the count, the state or neither was changed. -/
theorem drawn_after (change : Display → Display) {stack : WatershedStack γ} {dsp : Display}
    (same : (change dsp).moments = dsp.moments) (fresh : (change dsp).pending = []) :
    Ends (do modify change; draw room stack) dsp
      (fun _ dsp' => Drawn stack (change dsp) dsp') (Starved room dsp) := by
  have run : (do modify change; draw room stack : Draw Unit).run dsp =
      (draw room stack).run (change dsp) := rfl
  unfold Ends
  rw [run]
  apply Ends.mono (draw_ends stack fresh)
  · intro _ dsp' drawn
    exact drawn
  · intro fault dsp' starved
    exact ⟨starved.fault, starved.moments.trans same, starved.full⟩

end Drawn

end Display

end WatershedOracle
