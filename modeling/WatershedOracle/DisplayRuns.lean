import WatershedOracle.Display
import WatershedOracle.LineFaults

set_option autoImplicit false

/-! Runs of the main loop with a screen, line by line: what each line adds to what is
seen, and how such a run compares to one without a screen. -/

namespace WatershedOracle

open Effect

variable {γ : Type}

namespace Display

/-- What later frames depend on, and all that was seen. -/
structure Panel where
  satilites : Int := 0
  state : State := .splash
  moments : List Moment := []

def panel (dsp : Display) : Panel := ⟨dsp.satilites, dsp.state, dsp.moments⟩

namespace Panel

def seen (panel : Panel) (moments : List Moment) : Panel :=
  { panel with moments := panel.moments ++ moments }

/-- A frame with the count of a GSV sentence. -/
def counted (panel : Panel) (n : Int) (stack : WatershedStack γ) : Panel :=
  { panel with
    satilites := n, moments := panel.moments ++ [.frame (frame panel.state n stack)] }

/-- A frame with the watersheds of a stack. -/
def switched (panel : Panel) (stack : WatershedStack γ) : Panel :=
  { panel with
    state := .watersheds
    moments := panel.moments ++ [.frame (frame .watersheds panel.satilites stack)] }

/-- An answer, and its watersheds where it has some. -/
def answered (panel : Panel) (point : Point) (text : Bytes) (stack : WatershedStack γ) : Panel :=
  let printed := panel.seen [.asked point, .printed text]
  if stack.valid then printed.switched stack else printed

end Panel

/-- The count that a line of gpsMock brings. -/
def countOf (provider : PointProvider) (line : Bytes) : Option Int :=
  match provider with
  | .stdin => none
  | .gpsMock =>
      match Nmea.parse line with
      | .ok (.GSV gsv) => some gsv.totalNumSat
      | _ => none

section Watched

variable (room : Nat → Bool) (env : Externals γ) (floatText : FloatText)
  (provider : PointProvider) (json : Bool)

/-- A run over the lines that starts with the one panel and ends with the other. -/
inductive Watched : Machine γ → Panel → List Bytes → Except Fault Unit → Machine γ → Panel → Prop
  | ended (m : Machine γ) (panel : Panel) : Watched m panel [] (.ok ()) m panel
  | passed {m m' : Machine γ} {panel panel' : Panel} {line : Bytes} {rest : List Bytes}
      {result : Except Fault Unit} (none_ : readLine provider json line = .ok none)
      (uncounted : countOf provider line = none)
      (later : Watched m panel rest result m' panel') :
      Watched m panel (line :: rest) result m' panel'
  | counted {m m' : Machine γ} {panel panel' : Panel} {line : Bytes} {rest : List Bytes}
      {result : Except Fault Unit} {n : Int} (none_ : readLine provider json line = .ok none)
      (counts : countOf provider line = some n)
      (later : Watched m (panel.counted n m.stack) rest result m' panel') :
      Watched m panel (line :: rest) result m' panel'
  | uncounted {m : Machine γ} {panel panel' : Panel} {line : Bytes} {rest : List Bytes}
      (none_ : readLine provider json line = .ok none) (full : ∃ k, room k = false)
      (kept : panel'.moments = panel.moments) :
      Watched m panel (line :: rest) (.error (.error .OutOfMemory)) m panel'
  | rejected {m : Machine γ} {panel : Panel} {line : Bytes} {rest : List Bytes} {fault : Fault}
      (refused : readLine provider json line = .error fault) :
      Watched m panel (line :: rest) (.error fault) m panel
  | answered {m m' : Machine γ} {panel panel' : Panel} {line : Bytes} {rest : List Bytes}
      {result : Except Fault Unit} {point : Point} {stack : WatershedStack γ}
      (read : readLine provider json line = .ok (some point))
      (clean : Clean ((update env point).run m))
      (reached : (endState ((update env point).run m)).stack = stack)
      (later : Watched (endState ((update env point).run m))
        (panel.answered point (answer env floatText json stack) stack) rest result m' panel') :
      Watched m panel (line :: rest) result m' panel'
  | unanswered {m : Machine γ} {panel panel' : Panel} {line : Bytes} {rest : List Bytes}
      {point : Point} {stack : WatershedStack γ}
      (read : readLine provider json line = .ok (some point))
      (clean : Clean ((update env point).run m))
      (reached : (endState ((update env point).run m)).stack = stack) (full : ∃ k, room k = false)
      (kept : panel'.moments =
        panel.moments ++ [.asked point, .printed (answer env floatText json stack)]) :
      Watched m panel (line :: rest) (.error (.error .OutOfMemory))
        (endState ((update env point).run m)) panel'
  | failed {m m' : Machine γ} {panel : Panel} {line : Bytes} {rest : List Bytes} {point : Point}
      {fault : Fault} (read : readLine provider json line = .ok (some point))
      (failed : (update env point).run m = .error fault m')
      (own : fault ≠ .error .pointNotInDataset) :
      Watched m panel (line :: rest) (.error fault) m' (panel.seen [.asked point])

end Watched

section Loop

variable {room : Nat → Bool} {env : Externals γ} {floatText : FloatText}
  {provider : PointProvider} {json : Bool} {m : Machine γ} {dsp : Display}

/-- The loop, without the proof that it ends. -/
theorem loop_eq (lines : List Bytes) :
    loop room env floatText provider json m dsp lines =
      match round room env floatText provider json m dsp lines with
      | .stops shown => shown
      | .goes m' dsp' rest => loop room env floatText provider json m' dsp' rest := by
  rw [loop]
  split <;> rename_i next <;> simp only [next]

theorem loop_of_round {lines lines' : List Bytes} {dsp' : Display}
    (same : round room env floatText provider json m dsp lines =
      round room env floatText provider json m dsp' lines') :
    loop room env floatText provider json m dsp lines =
      loop room env floatText provider json m dsp' lines' := by
  rw [loop_eq, same, ← loop_eq]

variable (room) in
/-- How the next point is looked for, where the first line has none. -/
theorem nextPoint_pass (stack : WatershedStack γ) {line : Bytes} (rest : List Bytes)
    (none_ : readLine provider json line = .ok none) :
    ∃ sentence, provider = .gpsMock ∧ Nmea.parse line = .ok sentence ∧
      nextPoint room provider json stack (line :: rest) =
        (do showSentence room stack sentence; nextPoint room provider json stack rest) := by
  cases provider with
  | stdin =>
    exfalso
    unfold readLine at none_
    cases json with
    | false => cases none_
    | true =>
      simp only [↓reduceIte] at none_
      split at none_ <;> cases none_
  | gpsMock =>
    unfold readLine at none_
    simp only at none_
    cases parsed : Nmea.parse line with
    | error fault =>
      rw [parsed] at none_
      cases none_
    | ok sentence =>
      rw [parsed] at none_
      have nowhere : Nmea.extractPoint sentence = none := by simpa using none_
      refine ⟨sentence, rfl, rfl, ?_⟩
      simp only [nextPoint]
      rw [gpsMockNextPoint, parsed]
      simp only [nowhere]

theorem showSentence_of_point {stack : WatershedStack γ} {sentence : Nmea.Sentence} {x y : F64}
    (located : Nmea.extractPoint sentence = some (x, y)) :
    showSentence room stack sentence = pure () := by
  cases sentence with
  | GSV gsv => cases located
  | _ => rfl

theorem nextPoint_found {stack : WatershedStack γ} {line : Bytes} (rest : List Bytes)
    {point : Point} (read : readLine provider json line = .ok (some point)) :
    (nextPoint room provider json stack (line :: rest)).run dsp = .ok (point, rest) dsp := by
  cases provider with
  | stdin =>
    unfold readLine at read
    cases json with
    | false =>
      cases read
      rfl
    | true =>
      simp only [↓reduceIte] at read
      simp only [nextPoint, stdinNextPoint, ↓reduceIte]
      cases parsed : parsePointJson line with
      | error e =>
        rw [parsed] at read
        cases read
      | ok request =>
        rw [parsed] at read
        cases read
        rfl
  | gpsMock =>
    unfold readLine at read
    simp only at read
    simp only [nextPoint]
    rw [gpsMockNextPoint]
    cases parsed : Nmea.parse line with
    | error fault =>
      rw [parsed] at read
      cases read
    | ok sentence =>
      rw [parsed] at read
      cases located : Nmea.extractPoint sentence with
      | none =>
        simp only [located] at read
        cases read
      | some at_ =>
        obtain ⟨x, y⟩ := at_
        simp only [located] at read
        cases read
        dsimp only
        rw [showSentence_of_point located, located]
        rfl

theorem nextPoint_rejected {stack : WatershedStack γ} {line : Bytes} (rest : List Bytes)
    {fault : Fault} (refused : readLine provider json line = .error fault) :
    (nextPoint room provider json stack (line :: rest)).run dsp = .error fault dsp := by
  cases provider with
  | stdin =>
    unfold readLine at refused
    cases json with
    | false => cases refused
    | true =>
      simp only [↓reduceIte] at refused
      simp only [nextPoint, stdinNextPoint, ↓reduceIte]
      cases parsed : parsePointJson line with
      | ok request =>
        rw [parsed] at refused
        cases refused
      | error e =>
        rw [parsed] at refused
        cases refused
        rfl
  | gpsMock =>
    unfold readLine at refused
    simp only at refused
    simp only [nextPoint]
    rw [gpsMockNextPoint]
    cases parsed : Nmea.parse line with
    | ok sentence =>
      rw [parsed] at refused
      cases refused
    | error fault' =>
      rw [parsed] at refused
      cases refused
      rfl

theorem loop_nil : loop room env floatText provider json m dsp [] = ⟨.ok (), m, dsp⟩ := by
  rw [loop_eq]
  cases provider <;> rfl

theorem loop_rejected {line : Bytes} (rest : List Bytes) {fault : Fault}
    (refused : readLine provider json line = .error fault) :
    loop room env floatText provider json m dsp (line :: rest) = ⟨.error fault, m, dsp⟩ := by
  have other : fault ≠ .error .NoMorePoints := fun same =>
    readLine_ne_noMorePoints provider json line (same ▸ refused)
  rw [loop_eq, round, nextPoint_rejected rest refused]
  split <;> simp_all

theorem loop_failed {line : Bytes} (rest : List Bytes) {point : Point} {fault : Fault}
    {m' : Machine γ} (read : readLine provider json line = .ok (some point))
    (failed : (update env point).run m = .error fault m')
    (own : fault ≠ .error .pointNotInDataset) :
    loop room env floatText provider json m dsp (line :: rest) =
      ⟨.error fault, m', { dsp with moments := dsp.moments ++ [.asked point] }⟩ := by
  rw [loop_eq, round, nextPoint_found rest read]
  simp only [failed]

theorem loop_answered {line : Bytes} (rest : List Bytes) {point : Point}
    (read : readLine provider json line = .ok (some point))
    (clean : Clean ((update env point).run m)) :
    loop room env floatText provider json m dsp (line :: rest) =
      match showAnd room env floatText json (endState ((update env point).run m))
        { dsp with moments := dsp.moments ++ [.asked point] } rest with
      | .stops shown => shown
      | .goes m' dsp' rest => loop room env floatText provider json m' dsp' rest := by
  rw [loop_eq, round, nextPoint_found rest read]
  dsimp only
  generalize (update env point).run m = result at clean ⊢
  cases clean <;> rfl

theorem Drawn.counted {stack : WatershedStack γ} {dsp' : Display} {n : Int}
    (drawn : Drawn stack { dsp with satilites := n } dsp') :
    dsp'.panel = dsp.panel.counted n stack := by
  unfold panel Panel.counted
  rw [drawn.satilites, drawn.state, drawn.moments]

theorem Drawn.switched {stack : WatershedStack γ} {dsp' : Display}
    (drawn : Drawn stack { dsp with state := .watersheds } dsp') :
    dsp'.panel = dsp.panel.switched stack := by
  unfold panel Panel.switched
  rw [drawn.satilites, drawn.state, drawn.moments]

variable (room env floatText json) in
/-- What the screen does after an update. -/
theorem show_ends (stack : WatershedStack γ) (fresh : dsp.pending = []) (point : Point) :
    Ends (show_ room env floatText json stack)
      { dsp with moments := dsp.moments ++ [.asked point] }
      (fun _ dsp' => dsp'.pending = [] ∧
        dsp'.panel = dsp.panel.answered point (answer env floatText json stack) stack)
      (fun fault dsp' => fault = .error .OutOfMemory ∧ (∃ k, room k = false) ∧
        dsp'.moments =
          dsp.moments ++ [.asked point, .printed (answer env floatText json stack)]) := by
  have printed : dsp.moments ++ [.asked point] ++ [.printed (answer env floatText json stack)] =
      dsp.moments ++ [.asked point, .printed (answer env floatText json stack)] := by
    rw [List.append_assoc, List.singleton_append]
  unfold Panel.answered show_ record
  cases isValid : stack.valid with
  | false =>
    refine ⟨fresh, ?_⟩
    simp only [panel, Panel.seen, printed]
    rfl
  | true =>
    rw [ends_bind]
    have drawn : Ends (drawWatershedStack room stack)
        { dsp with moments := dsp.moments ++ [.asked point] ++
          [.printed (answer env floatText json stack)] }
        (fun _ dsp' => Drawn stack _ dsp') (Starved room _) :=
      drawn_after (fun dsp => { dsp with state := .watersheds }) rfl fresh
    apply Ends.mono drawn
    · intro _ dsp' drawn
      refine ⟨drawn.pending, ?_⟩
      rw [Drawn.switched drawn]
      simp only [panel, Panel.seen, printed]
      rfl
    · intro fault dsp' starved
      exact ⟨starved.fault, starved.full, starved.moments.trans printed⟩

variable (room) in
theorem countOf_sentence (stack : WatershedStack γ) {line : Bytes} {sentence : Nmea.Sentence}
    (mock : provider = .gpsMock) (parsed : Nmea.parse line = .ok sentence) :
    (countOf provider line = none ∧ showSentence room stack sentence = pure ()) ∨
      ∃ gsv, countOf provider line = some gsv.totalNumSat ∧ sentence = .GSV gsv := by
  subst mock
  unfold countOf
  simp only [parsed]
  cases sentence with
  | GSV gsv => exact .inr ⟨gsv, rfl, rfl⟩
  | _ => exact .inl ⟨rfl, rfl⟩

/-- The screen with its buffers does what the panel does. -/
theorem watched_loop (m : Machine γ) (dsp : Display) (lines : List Bytes)
    (fresh : dsp.pending = []) :
    Watched room env floatText provider json m dsp.panel lines
      (loop room env floatText provider json m dsp lines).result
      (loop room env floatText provider json m dsp lines).machine
      (loop room env floatText provider json m dsp lines).display.panel := by
  induction lines generalizing m dsp with
  | nil =>
    rw [loop_nil]
    exact .ended m dsp.panel
  | cons line rest ih =>
    cases read : readLine provider json line with
    | error fault =>
      rw [loop_rejected rest read]
      exact .rejected read
    | ok found =>
      cases found with
      | none =>
        obtain ⟨sentence, mock, parsed, next⟩ :=
          nextPoint_pass room m.stack rest read
        rcases countOf_sentence room m.stack mock parsed with
          ⟨uncounted, silent⟩ | ⟨gsv, counts, rfl⟩
        · have same : loop room env floatText provider json m dsp (line :: rest) =
              loop room env floatText provider json m dsp rest := by
            apply loop_of_round
            unfold round
            rw [next, silent]
            rfl
          rw [same]
          exact .passed read uncounted (ih m dsp fresh)
        · have drawn : Ends (setSatilitesInView room m.stack gsv.totalNumSat) dsp
              (fun _ dsp' => Drawn m.stack { dsp with satilites := gsv.totalNumSat } dsp')
              (Starved room dsp) :=
            drawn_after (fun dsp => { dsp with satilites := gsv.totalNumSat }) rfl fresh
          change Ends (showSentence room m.stack (.GSV gsv)) dsp _ _ at drawn
          unfold Ends at drawn
          split at drawn
          · rename_i _ dsp' run
            have same : loop room env floatText provider json m dsp (line :: rest) =
                loop room env floatText provider json m dsp' rest := by
              apply loop_of_round
              unfold round
              rw [next, EStateM.run_bind, run]
            have later := ih m dsp' drawn.pending
            rw [Drawn.counted drawn] at later
            rw [same]
            exact .counted read counts later
          · rename_i fault dsp' run
            have same : loop room env floatText provider json m dsp (line :: rest) =
                ⟨.error (.error .OutOfMemory), m, dsp'⟩ := by
              rw [loop_eq, round, next, EStateM.run_bind, run, drawn.fault]
            rw [same]
            exact .uncounted read drawn.full drawn.moments
      | some point =>
        by_cases clean : Clean ((update env point).run m)
        · rw [loop_answered rest read clean]
          have ends := show_ends room env floatText json
            (endState ((update env point).run m)).stack fresh point
          unfold showAnd
          unfold Ends at ends
          split at ends
          · rename_i _ dsp' run
            have later := ih (endState ((update env point).run m)) dsp' ends.1
            rw [ends.2] at later
            rw [run]
            exact .answered read clean rfl later
          · rename_i fault dsp' run
            rw [run, ends.1]
            exact .unanswered read clean rfl ends.2.1 ends.2.2
        · obtain ⟨fault, m', run, own⟩ := not_clean clean
          rw [loop_failed rest read run own]
          exact .failed read run own

end Loop

end Display

end WatershedOracle
