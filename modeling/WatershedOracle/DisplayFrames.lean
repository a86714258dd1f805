import WatershedOracle.DisplayRuns
import WatershedOracle.PointStream
import WatershedOracle.Session

set_option autoImplicit false

/-! What is seen of a run with a screen: the same output as without one, and frames
that agree with the answers printed before them and with the dataset. -/

namespace WatershedOracle

open Effect

variable {γ : Type}

namespace Display

/-! ### What is seen -/

def printedText (moments : List Moment) : Bytes :=
  moments.flatMap fun
    | .printed text => text
    | _ => []

def askedPoints (moments : List Moment) : List Point :=
  moments.filterMap fun
    | .asked point => some point
    | _ => none

def lastPrinted (moments : List Moment) : Option Bytes :=
  (moments.filterMap fun
    | .printed text => some text
    | _ => none).getLast?

def lastFrame (moments : List Moment) : Option (List Call) :=
  (moments.filterMap fun
    | .frame calls => some calls
    | _ => none).getLast?

theorem printedText_append (first second : List Moment) :
    printedText (first ++ second) = printedText first ++ printedText second :=
  List.flatMap_append

theorem askedPoints_append (first second : List Moment) :
    askedPoints (first ++ second) = askedPoints first ++ askedPoints second :=
  List.filterMap_append

theorem lastFrame_concat (moments : List Moment) (calls : List Call) :
    lastFrame (moments ++ [.frame calls]) = some calls := by
  simp [lastFrame]

/-! ### The output -/

section Output

variable {room : Nat → Bool} {env : Externals γ} {floatText : FloatText}
  {provider : PointProvider} {json : Bool}

/-- The moments after some others print what is printed without a screen, or a part of it
when the screen runs out of memory. -/
structure PrintsAs (room : Nat → Bool) (before after : List Moment) (result : Except Fault Unit)
    (machine : Machine γ) (plain : Run γ) : Prop where
  since : ∃ new, after = before ++ new ∧
    ((printedText new = plain.output ∧ result = plain.result ∧ machine = plain.machine) ∨
      (result = .error (.error .OutOfMemory) ∧ (∃ k, room k = false) ∧
        printedText new <+: plain.output))

theorem PrintsAs.none_ {before : List Moment} {result : Except Fault Unit} {machine : Machine γ}
    {moments : List Moment} (silent : printedText moments = []) :
    PrintsAs room before (before ++ moments) result machine ⟨[], result, machine⟩ :=
  ⟨moments, rfl, .inl ⟨silent, rfl, rfl⟩⟩

theorem PrintsAs.starved {before after : List Moment} {machine : Machine γ} {plain : Run γ}
    (full : ∃ k, room k = false) {moments : List Moment} (reached : after = before ++ moments)
    (part : printedText moments <+: plain.output) :
    PrintsAs room before after (.error (.error .OutOfMemory)) machine plain :=
  ⟨moments, reached, .inr ⟨rfl, full, part⟩⟩

/-- Moments before the others, which print what the run prints before. -/
theorem PrintsAs.after {before moments after : List Moment} {result : Except Fault Unit}
    {machine : Machine γ} {plain : Run γ} {text : Bytes} (first : printedText moments = text)
    (rest : PrintsAs room (before ++ moments) after result machine plain) :
    PrintsAs room before after result machine (plain.after text) := by
  obtain ⟨new, reached, ends⟩ := rest
  refine ⟨moments ++ new, by rw [reached, List.append_assoc], ?_⟩
  rw [printedText_append, first]
  rcases ends with ⟨printed, results, machines⟩ | ⟨results, full, part⟩
  · exact .inl ⟨by rw [printed]; rfl, results, machines⟩
  · exact .inr ⟨results, full, (List.prefix_append_right_inj text).mpr part⟩

theorem answered_moments (panel : Panel) (point : Point) (text : Bytes)
    (stack : WatershedStack γ) :
    ∃ new, (panel.answered point text stack).moments = panel.moments ++ new ∧
      printedText new = text := by
  unfold Panel.answered
  split
  · refine ⟨[.asked point, .printed text, .frame (frame .watersheds panel.satilites stack)], ?_, ?_⟩
    · exact List.append_assoc ..
    · simp [printedText]
  · exact ⟨[.asked point, .printed text], rfl, by simp [printedText]⟩

theorem Watched.prints {m m' : Machine γ} {panel panel' : Panel} {lines : List Bytes}
    {result : Except Fault Unit}
    (watched : Watched room env floatText provider json m panel lines result m' panel') :
    PrintsAs room panel.moments panel'.moments result m'
      (mainLoop env floatText provider json m lines) := by
  induction watched with
  | ended m panel =>
    rw [mainLoop_nil]
    exact ⟨[], (List.append_nil _).symm, .inl ⟨rfl, rfl, rfl⟩⟩
  | passed none_ uncounted later ih =>
    rw [mainLoop_pass _ none_]
    exact ih
  | @counted m m' panel panel' line rest result n none_ counts later ih =>
    rw [mainLoop_pass rest none_]
    have silent : printedText [.frame (frame panel.state n m.stack)] = [] := rfl
    exact PrintsAs.after silent ih
  | uncounted none_ full kept =>
    exact .starved full (kept.trans (List.append_nil _).symm) List.nil_prefix
  | @rejected m panel line rest fault refused =>
    have other : fault ≠ .error .NoMorePoints := fun same =>
      readLine_ne_noMorePoints provider json line (same ▸ refused)
    rw [mainLoop_reject rest refused other]
    exact ⟨[], (List.append_nil _).symm, .inl ⟨rfl, rfl, rfl⟩⟩
  | @answered m m' panel panel' line rest result point stack read clean reached later ih =>
    obtain ⟨new, moments, text⟩ :=
      answered_moments panel point (answer env floatText json stack) stack
    rw [moments] at ih
    rw [mainLoop_answer rest read clean, reached]
    exact ih.after text
  | @unanswered m panel panel' line rest point stack read clean reached full kept =>
    apply PrintsAs.starved full kept
    rw [mainLoop_answer rest read clean, reached]
    simp [printedText]
  | @failed m m' panel line rest point fault read failed own =>
    rw [mainLoop_fail rest read failed own]
    exact .none_ rfl

/-- The panel that the lines are read with. -/
def opening (stack : WatershedStack γ) : Panel :=
  { moments := [.frame (frame .splash 0 stack)] }

section Whole

variable (room env floatText provider json)

/-- A run from the splash over the whole input, if there is memory for the splash. -/
theorem main_watched (skip : Bool) (input : Bytes) :
    Watched room env floatText provider json { stack := .init skip }
        (opening (.init skip : WatershedStack γ)) (terminatedLines input)
        (main room env floatText provider json skip input).result
        (main room env floatText provider json skip input).machine
        (main room env floatText provider json skip input).display.panel ∨
      ((main room env floatText provider json skip input).result = .error (.error .OutOfMemory) ∧
        (∃ k, room k = false) ∧
        (main room env floatText provider json skip input).display.moments = []) := by
  have drawn : Ends (drawSplash room (.init skip : WatershedStack γ)) {}
      (fun _ dsp' => Drawn (.init skip : WatershedStack γ) { state := .splash } dsp')
      (Starved room {}) :=
    drawn_after (fun dsp => { dsp with state := .splash }) rfl rfl
  unfold Ends at drawn
  split at drawn
  · rename_i _ dsp run
    have opened : dsp.panel = opening (.init skip : WatershedStack γ) := by
      unfold panel opening
      rw [drawn.satilites, drawn.state, drawn.moments]
      rfl
    have same : main room env floatText provider json skip input =
        loop room env floatText provider json { stack := .init skip } dsp
          (terminatedLines input) := by
      simp only [main, run]
    rw [same, ← opened]
    exact .inl (watched_loop _ dsp _ drawn.pending)
  · rename_i fault dsp run
    have same : main room env floatText provider json skip input =
        ⟨.error fault, { stack := .init skip }, dsp⟩ := by
      simp only [main, run]
    rw [same, drawn.fault]
    exact .inr ⟨rfl, drawn.full, drawn.moments⟩

theorem main_printsAs (skip : Bool) (input : Bytes) :
    PrintsAs room [] (main room env floatText provider json skip input).display.moments
      (main room env floatText provider json skip input).result
      (main room env floatText provider json skip input).machine
      (WatershedOracle.main env floatText provider json skip input) := by
  rcases main_watched room env floatText provider json skip input with
    watched | ⟨results, full, nothing⟩
  · obtain ⟨new, reached, ends⟩ := watched.prints
    exact ⟨_ :: new, reached, ends⟩
  · rw [results]
    exact .starved full nothing List.nil_prefix

variable {room env floatText provider json} in
/-- With memory enough, the run ends as it would without a screen. -/
theorem main_ends (roomy : ∀ k, room k = true) (skip : Bool) (input : Bytes) :
    (main room env floatText provider json skip input).result =
      (WatershedOracle.main env floatText provider json skip input).result := by
  obtain ⟨new, _, ⟨_, results, _⟩ | ⟨_, ⟨k, full⟩, _⟩⟩ := 
    main_printsAs room env floatText provider json skip input
  · exact results
  · cases (roomy k).symm.trans full

end Whole

end Output

/-! ### The frames -/

/-- The slots hold regions of the dataset that cover the point, if any does. -/
structure Locates (env : Externals γ) (d : Dataset) (stack : WatershedStack γ) (geom : γ) :
    Prop where
  regions : ∀ level w, stack.slot level = some w → d.RegionAt env level w.region geom
  inside : stack.valid = true ↔ d.CoversAt env .huc2 geom
  root : stack.valid = true ↔ stack.huc2.isSome

/-- None of the points is inside the dataset. -/
def NoneInside (env : Externals γ) (d : Dataset) (points : List Point) : Prop :=
  ∀ point ∈ points, ∀ geom, env.geometryOf point.location = some geom →
    ¬ d.CoversAt env .huc2 geom

/-- A frame that agrees with the moments before it. -/
inductive Truthful (env : Externals γ) (d : Dataset) (floatText : FloatText) (json : Bool)
    (before : List Moment) : List Call → Prop
  | splash (n : Int) (stack : WatershedStack γ)
      (outside : NoneInside env d (askedPoints before)) :
      Truthful env d floatText json before (frame .splash n stack)
  | watersheds (n : Int) (stack : WatershedStack γ) (point : Point) (geom : γ)
      (asked : (askedPoints before).getLast? = some point)
      (made : env.geometryOf point.location = some geom)
      (said : lastPrinted before = some (answer env floatText json stack))
      (located : Locates env d stack geom) :
      Truthful env d floatText json before (frame .watersheds n stack)

section Frames

variable {env : Externals γ} {d : Dataset} {floatText : FloatText} {json : Bool}

def Agree (env : Externals γ) (d : Dataset) (floatText : FloatText) (json : Bool)
    (moments : List Moment) : Prop :=
  ∀ before calls, before ++ [.frame calls] <+: moments →
    Truthful env d floatText json before calls

theorem Agree.frame {moments : List Moment} {calls : List Call}
    (agree : Agree env d floatText json moments)
    (truthful : Truthful env d floatText json moments calls) :
    Agree env d floatText json (moments ++ [.frame calls]) := by
  intro before calls' inside
  rcases List.prefix_concat_iff.mp inside with same | earlier
  · obtain ⟨rfl, last⟩ := List.append_inj' same rfl
    cases last
    exact truthful
  · exact agree before calls' earlier

theorem Agree.asked {moments : List Moment} (agree : Agree env d floatText json moments)
    (point : Point) : Agree env d floatText json (moments ++ [.asked point]) := by
  intro before calls inside
  rcases List.prefix_concat_iff.mp inside with same | earlier
  · cases (List.append_inj' same rfl).2
  · exact agree before calls earlier

theorem Agree.printed {moments : List Moment} (agree : Agree env d floatText json moments)
    (text : Bytes) : Agree env d floatText json (moments ++ [.printed text]) := by
  intro before calls inside
  rcases List.prefix_concat_iff.mp inside with same | earlier
  · cases (List.append_inj' same rfl).2
  · exact agree before calls earlier

/-- After an update that returned, the slots are about its point. -/
theorem update_locates (hosts : Hosts env d) (steady : env.Steady) (boxed : Boxed env d)
    (nested : (regions env d.listed).Nested) {m : Machine γ} (covered : Covered env d.listed m)
    (point : Point) (clean : Clean ((update env point).run m)) :
    ∃ geom, env.geometryOf point.location = some geom ∧
      Locates env d (endState ((update env point).run m)).stack geom := by
  obtain ⟨list, stacked, _⟩ := id covered
  obtain ⟨geom, _, made, _⟩ := update_refines hosts.order steady point stacked.1 clean
  obtain ⟨addr, same⟩ := update_request point stacked.1 made
  obtain ⟨list', stacked', covers⟩ :=
    update_covered hosts.serves steady nested point m covered
  have root := (stacked'.chain hosts.serves).valid_iff
  have at_ : (endState ((update env point).run m)).stack.point = some ⟨addr, geom⟩ := same.1
  refine ⟨geom, made, ?_, ?_, root⟩
  · intro level w occupied
    refine ⟨(stacked'.row hosts occupied).1, ?_⟩
    rw [stacked'.1.slot] at occupied
    exact covers _ at_ w (List.mem_reverse.mp (List.mem_of_getElem? occupied))
  · exact update_root hosts steady boxed nested point stacked made clean

/-- What holds each time a line is read. -/
structure Tracked (env : Externals γ) (d : Dataset) (floatText : FloatText) (json : Bool)
    (m : Machine γ) (panel : Panel) : Prop where
  covered : Covered env d.listed m
  agree : Agree env d floatText json panel.moments
  splash : panel.state = .splash → NoneInside env d (askedPoints panel.moments)
  found : panel.state = .watersheds → ¬ NoneInside env d (askedPoints panel.moments)
  current : panel.state = .watersheds → ∃ point geom,
    (askedPoints panel.moments).getLast? = some point ∧
      env.geometryOf point.location = some geom ∧
      lastPrinted panel.moments = some (answer env floatText json m.stack) ∧
      Locates env d m.stack geom

theorem Tracked.truthful {m : Machine γ} {panel : Panel}
    (tracked : Tracked env d floatText json m panel) (n : Int) :
    Truthful env d floatText json panel.moments (Display.frame panel.state n m.stack) := by
  cases shows : panel.state with
  | splash => exact .splash n m.stack (tracked.splash shows)
  | watersheds =>
    obtain ⟨point, geom, asked, made, said, located⟩ := tracked.current shows
    exact .watersheds n m.stack point geom asked made said located

theorem askedPoints_frame (moments : List Moment) (calls : List Call) :
    askedPoints (moments ++ [.frame calls]) = askedPoints moments := by
  rw [askedPoints_append]
  exact List.append_nil _

theorem lastPrinted_frame (moments : List Moment) (calls : List Call) :
    lastPrinted (moments ++ [.frame calls]) = lastPrinted moments := by
  simp [lastPrinted]

/-- A frame of the panel changes nothing that the next frames depend on. -/
theorem Tracked.counted {m : Machine γ} {panel : Panel}
    (tracked : Tracked env d floatText json m panel) (n : Int) :
    Tracked env d floatText json m (panel.counted n m.stack) where
  covered := tracked.covered
  agree := tracked.agree.frame (tracked.truthful n)
  splash shows := by
    change NoneInside env d (askedPoints (panel.moments ++ _))
    rw [askedPoints_frame]
    exact tracked.splash shows
  found shows := by
    change ¬ NoneInside env d (askedPoints (panel.moments ++ _))
    rw [askedPoints_frame]
    exact tracked.found shows
  current shows := by
    change ∃ point geom, (askedPoints (panel.moments ++ _)).getLast? = some point ∧ _ ∧
      lastPrinted (panel.moments ++ _) = _ ∧ _
    rw [askedPoints_frame, lastPrinted_frame]
    exact tracked.current shows

theorem askedPoints_exchange (moments : List Moment) (point : Point) (text : Bytes) :
    askedPoints (moments ++ [.asked point, .printed text]) = askedPoints moments ++ [point] := by
  rw [askedPoints_append]
  rfl

theorem lastPrinted_exchange (moments : List Moment) (point : Point) (text : Bytes) :
    lastPrinted (moments ++ [.asked point, .printed text]) = some text := by
  simp [lastPrinted]

theorem Agree.exchange {moments : List Moment} (agree : Agree env d floatText json moments)
    (point : Point) (text : Bytes) :
    Agree env d floatText json (moments ++ [.asked point, .printed text]) := by
  have both := (agree.asked point).printed text
  rwa [List.append_assoc, List.singleton_append] at both

theorem noneInside_concat {points : List Point} {point : Point} {geom : γ}
    (made : env.geometryOf point.location = some geom) :
    NoneInside env d (points ++ [point]) ↔
      NoneInside env d points ∧ ¬ d.CoversAt env .huc2 geom := by
  constructor
  · intro none_
    refine ⟨fun other member => none_ other (List.mem_append_left _ member), ?_⟩
    exact none_ point List.mem_concat_self geom made
  · rintro ⟨earlier, outside⟩ other member geom' made'
    rcases List.mem_append.mp member with before | last
    · exact earlier other before geom' made'
    · obtain rfl := List.mem_singleton.mp last
      obtain rfl : geom = geom' := Option.some.inj (made.symm.trans made')
      exact outside

/-- The answer replaces what was current before it, and so does its frame. -/
theorem Tracked.answered {m m' : Machine γ} {panel : Panel} {point : Point} {geom : γ}
    (tracked : Tracked env d floatText json m panel) (covered : Covered env d.listed m')
    (made : env.geometryOf point.location = some geom) (located : Locates env d m'.stack geom) :
    Tracked env d floatText json m'
      (panel.answered point (answer env floatText json m'.stack) m'.stack) := by
  have agree := tracked.agree.exchange point (answer env floatText json m'.stack)
  have asked := askedPoints_exchange panel.moments point (answer env floatText json m'.stack)
  have said := lastPrinted_exchange panel.moments point (answer env floatText json m'.stack)
  have latest : (askedPoints panel.moments ++ [point]).getLast? = some point :=
    List.getLast?_concat
  unfold Panel.answered
  dsimp only
  cases isValid : m'.stack.valid with
  | true =>
    have truthful : Truthful env d floatText json _
        (Display.frame .watersheds panel.satilites m'.stack) :=
      .watersheds panel.satilites m'.stack point geom (asked ▸ latest) made said located
    have some_ : ¬ NoneInside env d (askedPoints panel.moments ++ [point]) := fun none_ =>
      ((noneInside_concat made).mp none_).2 (located.inside.mp isValid)
    exact {
      covered
      agree := agree.frame truthful
      splash := fun shows => by cases shows
      found := fun _ => by
        change ¬ NoneInside env d (askedPoints (panel.moments ++ _ ++ _))
        rwa [askedPoints_frame, asked]
      current := fun _ => by
        refine ⟨point, geom, ?_, made, ?_, located⟩
        · change (askedPoints (panel.moments ++ _ ++ _)).getLast? = _
          rwa [askedPoints_frame, asked]
        · change lastPrinted (panel.moments ++ _ ++ _) = _
          rwa [lastPrinted_frame] }
  | false =>
    have outside : ¬ d.CoversAt env .huc2 geom := by
      rw [← located.inside, isValid]
      exact Bool.false_ne_true
    exact {
      covered
      agree
      splash := fun shows => by
        change NoneInside env d (askedPoints (panel.moments ++ _))
        rw [asked]
        exact (noneInside_concat made).mpr ⟨tracked.splash shows, outside⟩
      found := fun shows => by
        change ¬ NoneInside env d (askedPoints (panel.moments ++ _))
        rw [asked]
        exact fun none_ => tracked.found shows ((noneInside_concat made).mp none_).1
      current := fun _ => ⟨point, geom, asked ▸ latest, made, said, located⟩ }

variable {room : Nat → Bool} {provider : PointProvider}

theorem Watched.agree (hosts : Hosts env d) (steady : env.Steady) (boxed : Boxed env d)
    (nested : (regions env d.listed).Nested) {m m' : Machine γ} {panel panel' : Panel}
    {lines : List Bytes} {result : Except Fault Unit}
    (watched : Watched room env floatText provider json m panel lines result m' panel')
    (tracked : Tracked env d floatText json m panel) :
    Agree env d floatText json panel'.moments := by
  induction watched with
  | ended m panel => exact tracked.agree
  | passed none_ uncounted later ih => exact ih tracked
  | counted none_ counts later ih => exact ih (tracked.counted _)
  | uncounted none_ full kept => exact kept ▸ tracked.agree
  | rejected refused => exact tracked.agree
  | @answered m m' panel panel' line rest result point stack read clean reached later ih =>
    subst reached
    obtain ⟨geom, made, located⟩ :=
      update_locates hosts steady boxed nested tracked.covered point clean
    have covered := update_covered hosts.serves steady nested point m tracked.covered
    exact ih (tracked.answered covered made located)
  | unanswered read clean reached full kept => exact kept ▸ tracked.agree.exchange _ _
  | failed read failed own => exact tracked.agree.asked _

theorem tracked_opening (skip : Bool) :
    Tracked env d floatText json { stack := .init skip }
      (opening (.init skip : WatershedStack γ)) where
  covered := ⟨[], ⟨WatershedStack.init_holds skip, .nil⟩, by simp [WatershedStack.init]⟩
  agree := by
    have nothing : Agree env d floatText json [] := fun before calls inside => by
      simp at inside
    apply nothing.frame
    exact .splash 0 (.init skip : WatershedStack γ) (by simp [NoneInside, askedPoints])
  splash _ := by simp [NoneInside, askedPoints, opening]
  found shows := by cases shows
  current shows := by cases shows

/-- Every frame of every run agrees with the answers and the points before it. -/
theorem main_frames (hosts : Hosts env d) (steady : env.Steady) (boxed : Boxed env d)
    (nested : (regions env d.listed).Nested) (skip : Bool) (input : Bytes) :
    Agree env d floatText json
      (main room env floatText provider json skip input).display.moments := by
  rcases main_watched room env floatText provider json skip input with watched | ⟨_, _, nothing⟩
  · exact watched.agree hosts steady boxed nested (tracked_opening skip)
  · rw [nothing]
    intro before calls inside
    simp at inside

/-! ### The last frame -/

/-- The point that a line holds. -/
def pointOf (provider : PointProvider) (json : Bool) (line : Bytes) : Option Point :=
  match readLine provider json line with
  | .ok found => found
  | .error _ => none

/-- The count on the screen once the lines were read. -/
def lastCount (provider : PointProvider) (lines : List Bytes) (before : Int) : Int :=
  (lines.filterMap (countOf provider)).getLast?.getD before

/-- The screen shows the splash, or the slots as they are. -/
structure Shows (m : Machine γ) (panel : Panel) : Prop where
  splash : panel.state = .splash → ∃ stack : WatershedStack γ,
    lastFrame panel.moments = some (Display.frame .splash panel.satilites stack)
  watersheds : panel.state = .watersheds → m.stack.valid = true →
    lastFrame panel.moments = some (Display.frame .watersheds panel.satilites m.stack)

theorem Shows.counted {m : Machine γ} {panel : Panel} (n : Int) :
    Shows m (panel.counted n m.stack) where
  splash shows := by
    change panel.state = .splash at shows
    exact ⟨m.stack, by rw [Panel.counted, lastFrame_concat, shows]⟩
  watersheds shows _ := by
    change panel.state = .watersheds at shows
    rw [Panel.counted, lastFrame_concat, shows]

theorem lastFrame_exchange (moments : List Moment) (point : Point) (text : Bytes) :
    lastFrame (moments ++ [.asked point, .printed text]) = lastFrame moments := by
  simp [lastFrame]

theorem Shows.answered {m m' : Machine γ} {panel : Panel} (shows : Shows m panel) (point : Point)
    (text : Bytes) : Shows m' (panel.answered point text m'.stack) := by
  unfold Panel.answered
  dsimp only
  cases isValid : m'.stack.valid with
  | true => exact ⟨(fun other => by cases other), fun _ _ => lastFrame_concat _ _⟩
  | false =>
    refine ⟨fun other => ?_, fun _ other => by cases isValid.symm.trans other⟩
    obtain ⟨stack, last⟩ := shows.splash other
    exact ⟨stack, (lastFrame_exchange _ _ _).trans last⟩

theorem lastCount_cons (line : Bytes) (rest : List Bytes) (before : Int) :
    lastCount provider (line :: rest) before =
      lastCount provider rest ((countOf provider line).getD before) := by
  unfold lastCount
  cases counts : countOf provider line with
  | none => rw [List.filterMap_cons_none counts]; rfl
  | some n =>
    rw [List.filterMap_cons_some counts, List.getLast?_cons]
    rfl

theorem answered_satilites (panel : Panel) (point : Point) (text : Bytes)
    (stack : WatershedStack γ) : (panel.answered point text stack).satilites = panel.satilites := by
  unfold Panel.answered
  split <;> rfl

theorem answered_asked (panel : Panel) (point : Point) (text : Bytes) (stack : WatershedStack γ) :
    askedPoints (panel.answered point text stack).moments =
      askedPoints panel.moments ++ [point] := by
  unfold Panel.answered
  split
  · exact (askedPoints_frame _ _).trans (askedPoints_exchange _ _ _)
  · exact askedPoints_exchange _ _ _

theorem countOf_point {line : Bytes} {point : Point}
    (read : readLine provider json line = .ok (some point)) : countOf provider line = none := by
  cases provider with
  | stdin => rfl
  | gpsMock =>
    simp only [readLine] at read
    simp only [countOf]
    split
    · rename_i gsv parsed
      rw [parsed] at read
      cases read
    · rfl

/-- What a run over all of the lines leaves on the screen. -/
theorem Watched.finish (hosts : Hosts env d) (steady : env.Steady) (boxed : Boxed env d)
    (nested : (regions env d.listed).Nested) {m m' : Machine γ} {panel panel' : Panel}
    {lines : List Bytes} {result : Except Fault Unit}
    (watched : Watched room env floatText provider json m panel lines result m' panel')
    (ended : result = .ok ()) (tracked : Tracked env d floatText json m panel)
    (shows : Shows m panel) :
    Tracked env d floatText json m' panel' ∧ Shows m' panel' ∧
      askedPoints panel'.moments =
        askedPoints panel.moments ++ lines.filterMap (pointOf provider json) ∧
      panel'.satilites = lastCount provider lines panel.satilites := by
  induction watched with
  | ended m panel => exact ⟨tracked, shows, (List.append_nil _).symm, rfl⟩
  | @passed m m' panel panel' line rest result none_ uncounted later ih =>
    have nowhere : pointOf provider json line = none := by simp only [pointOf, none_]
    rw [List.filterMap_cons_none nowhere, lastCount_cons, uncounted]
    exact ih ended tracked shows
  | @counted m m' panel panel' line rest result n none_ counts later ih =>
    have nowhere : pointOf provider json line = none := by simp only [pointOf, none_]
    obtain ⟨last, shown, asked, count⟩ := ih ended (tracked.counted n) (.counted n)
    rw [List.filterMap_cons_none nowhere, lastCount_cons, counts]
    refine ⟨last, shown, asked.trans ?_, count⟩
    rw [Panel.counted, askedPoints_frame]
  | uncounted none_ full kept => cases ended
  | rejected refused => cases ended
  | @answered m m' panel panel' line rest result point stack read clean reached later ih =>
    subst reached
    have here : pointOf provider json line = some point := by simp only [pointOf, read]
    obtain ⟨geom, made, located⟩ :=
      update_locates hosts steady boxed nested tracked.covered point clean
    have covered := update_covered hosts.serves steady nested point m tracked.covered
    obtain ⟨last, shown, asked, count⟩ :=
      ih ended (tracked.answered covered made located) (shows.answered point _)
    rw [answered_asked, List.append_assoc, List.singleton_append] at asked
    rw [answered_satilites] at count
    rw [List.filterMap_cons_some here, lastCount_cons, countOf_point read]
    exact ⟨last, shown, asked, count⟩
  | unanswered read clean reached full kept => cases ended
  | failed read failed own => cases ended

/-- The screen that an input leaves is about its last point, or the splash when no point
was inside the dataset. -/
theorem main_screen (hosts : Hosts env d) (steady : env.Steady) (boxed : Boxed env d)
    (nested : (regions env d.listed).Nested) (skip : Bool) (input : Bytes)
    (ended : (main room env floatText provider json skip input).result = .ok ()) :
    let lines := terminatedLines input
    let points := lines.filterMap (pointOf provider json)
    let n := lastCount provider lines 0
    let screen := lastFrame (main room env floatText provider json skip input).display.moments
    (NoneInside env d points →
        screen = some (Display.frame .splash n (.init skip : WatershedStack γ))) ∧
      ∀ point geom, points.getLast? = some point →
        env.geometryOf point.location = some geom → d.CoversAt env .huc2 geom →
          ∃ stack : WatershedStack γ, screen = some (Display.frame .watersheds n stack) ∧
            Locates env d stack geom := by
  intro lines points n screen
  rcases main_watched room env floatText provider json skip input with watched | ⟨results, _⟩
  · obtain ⟨last, shown, asked, count⟩ := watched.finish hosts steady boxed nested ended
      (tracked_opening skip)
      ⟨fun _ => ⟨.init skip, lastFrame_concat [] _⟩, (fun other => by cases other)⟩
    change askedPoints (main room env floatText provider json skip input).display.moments =
      points at asked
    change (main room env floatText provider json skip input).display.satilites = n at count
    constructor
    · intro none_
      cases state : (main room env floatText provider json skip input).display.state with
      | splash =>
        obtain ⟨stack, isLast⟩ := shown.splash state
        rw [← count]
        exact isLast
      | watersheds => exact absurd (asked ▸ none_) (last.found state)
    · intro point geom isLast made inside
      cases state : (main room env floatText provider json skip input).display.state with
      | splash =>
        have outside : NoneInside env d points := asked ▸ last.splash state
        exact absurd inside (outside point (List.mem_of_getLast? isLast) geom made)
      | watersheds =>
        obtain ⟨point', geom', isLast', made', _, located⟩ := last.current state
        obtain rfl : point = point' :=
          Option.some.inj (isLast.symm.trans ((congrArg List.getLast? asked).symm.trans isLast'))
        obtain rfl : geom = geom' := Option.some.inj (made.symm.trans made')
        rw [← count]
        exact ⟨_, shown.watersheds state (located.inside.mpr inside), located⟩
  · cases results.symm.trans ended

end Frames

theorem main_frames_squares :
    Agree (squareWorld 6) (squares 6) wholeText false
      (main (fun k => decide (k < 9)) (squareWorld 6) wholeText .gpsMock false true
        (terminated PointGps.mixedLines)).display.moments :=
  main_frames (serve_hosts (squares 6) boxes) (serve_steady _ _) (squares_boxed 6)
    (squares_nested 6) true (terminated PointGps.mixedLines)

/-- A request outside the square, then one inside. -/
def inLast : Bytes := terminated twoRequests.reverse

theorem inLast_ends : (main (fun _ => true) (squareWorld 6) wholeText .stdin true true
    inLast).result = .ok () := by
  rw [main_ends (fun _ => rfl), WatershedOracle.main, inLast,
    terminatedLines_terminated _ (by decide +kernel)]
  have hosts := serve_hosts (squares 6) boxes
  obtain ⟨_, _, ended, _⟩ := mainLoop_session wholeText hosts (serve_steady _ _) (squares_boxed 6)
    (serve_faultless _ _) (squares_readable 6).shaped (squares_pointsAt 6) (squares_nested 6)
    wholeText_printable [⟨0, .finite 3, .finite 1⟩, ⟨7, .finite 1, .finite 1⟩]
    (by decide +kernel) twoRequests.reverse (by decide +kernel) (covered_init true)
    ((squares_readable 6).namedSession hosts .nil _)
  exact ended

theorem main_screen_squares : ∃ stack,
    lastFrame (main (fun _ => true) (squareWorld 6) wholeText .stdin true true
        inLast).display.moments =
      some (frame .watersheds (lastCount .stdin (terminatedLines inLast) 0) stack) ∧
    Locates (squareWorld 6) (squares 6) stack center :=
  (main_screen (serve_hosts (squares 6) boxes) (serve_steady _ _) (squares_boxed 6)
    (squares_nested 6) true inLast inLast_ends).2 (centerPoint 7) center (by decide +kernel)
    (centerPoint_made 6 7)
    ⟨squareRow .huc2, List.mem_singleton_self _, by rw [squareRow_covering]; decide⟩

end Display

end WatershedOracle
