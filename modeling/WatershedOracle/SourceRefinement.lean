import WatershedOracle.LineSources

set_option autoImplicit false

/-! The lines that main runs on, and the bytes that they are read from. -/

namespace WatershedOracle

open Effect

/-- The source that is built in, byte by byte. -/
def sourceNextPoint (provider : PointProvider) (json : Bool) : EStateM Fault LineSource Point :=
  match provider with
  | .stdin => PointStdin.nextPoint json
  | .gpsMock => PointGps.nextPoint

section Refinement

variable {lines : List Bytes} {tail : Bytes} {src : LineSource}

/-- One call does on the bytes what `step` does on the lines: the same result, and the
same lines left. -/
def ReadsAs (result : EStateM.Result Fault LineSource Point)
    (step : Except Fault (Point × List Bytes)) (tail : Bytes) : Prop :=
  outcome result = step.map Prod.fst ∧
    ∀ point rest, step = .ok (point, rest) → (endState result).stdin = terminated rest ++ tail

theorem gpsMockNextPoint_pass {line : Bytes} (none_ : PointGps.lineOutcome line = none)
    (rest : List Bytes) : gpsMockNextPoint (line :: rest) = gpsMockNextPoint rest := by
  rw [gpsMockNextPoint]
  cases parsed : Nmea.parse line with
  | error fault =>
    rw [PointGps.lineOutcome_error parsed] at none_
    cases none_
  | ok sentence =>
    rw [PointGps.lineOutcome_ok parsed] at none_
    have nowhere := Option.map_eq_none_iff.mp none_
    simp only [nowhere]

theorem gpsMockNextPoint_answer {line : Bytes} {result : Except Fault Point}
    (some_ : PointGps.lineOutcome line = some result) (rest : List Bytes) :
    gpsMockNextPoint (line :: rest) = result.map fun point => (point, rest) := by
  rw [gpsMockNextPoint]
  cases parsed : Nmea.parse line with
  | error fault =>
    rw [PointGps.lineOutcome_error parsed] at some_
    cases some_
    rfl
  | ok sentence =>
    rw [PointGps.lineOutcome_ok parsed] at some_
    obtain ⟨point, position, rfl⟩ := Option.map_eq_some_iff.mp some_
    simp only [position]
    rfl

theorem gpsMock_readsAs (free : ∀ line ∈ lines, Nmea.lineFeed ∉ line)
    (unfinished : Nmea.lineFeed ∉ tail) (unread : src.stdin = terminated lines ++ tail) :
    ReadsAs (PointGps.nextPoint.run src) (gpsMockNextPoint lines) tail := by
  induction lines generalizing src with
  | nil =>
    have unread : src.stdin = tail := unread
    obtain ⟨fails, _⟩ := PointGps.nextPoint_end (unread ▸ unfinished)
    exact ⟨fails, nofun⟩
  | cons line rest ih =>
    obtain ⟨first, others⟩ := List.forall_mem_cons.mp free
    rw [terminated_cons] at unread
    cases known : PointGps.lineOutcome line with
    | none =>
      obtain ⟨src', unread', same⟩ := PointGps.nextPoint_skip first unread known
      rw [same, gpsMockNextPoint_pass known]
      exact ih others unread'
    | some result =>
      obtain ⟨ends, unread'⟩ := PointGps.nextPoint_answer first unread known
      rw [gpsMockNextPoint_answer known]
      refine ⟨?_, ?_⟩
      · rw [ends]
        cases result <;> rfl
      · intro point left step
        cases result with
        | error fault => cases step
        | ok _ =>
          cases step
          exact unread'

theorem stdin_readsAs (json : Bool) (free : ∀ line ∈ lines, Nmea.lineFeed ∉ line)
    (unfinished : Nmea.lineFeed ∉ tail) (unread : src.stdin = terminated lines ++ tail) :
    ReadsAs ((PointStdin.nextPoint json).run src) (stdinNextPoint json lines) tail := by
  cases lines with
  | nil =>
    have unread : src.stdin = tail := unread
    rw [PointStdin.nextPoint_end (unread ▸ unfinished)]
    exact ⟨rfl, nofun⟩
  | cons line rest =>
    have first := (List.forall_mem_cons.mp free).1
    rw [terminated_cons] at unread
    cases json with
    | false =>
      rw [PointStdin.nextPoint_wkt first unread]
      refine ⟨rfl, ?_⟩
      intro point left step
      cases step
      rfl
    | true =>
      obtain ⟨ends, unread'⟩ := PointStdin.nextPoint_json first unread
      refine ⟨?_, ?_⟩
      · rw [ends, stdinNextPoint, if_pos rfl]
        cases parsePointJson line <;> rfl
      · intro point left step
        rw [stdinNextPoint, if_pos rfl] at step
        cases parsed : parsePointJson line with
        | error e =>
          rw [parsed] at step
          cases step
        | ok request =>
          rw [parsed] at step
          cases step
          exact unread'

/-- The lines that main runs on are what the bytes of the standard input come to. -/
theorem sourceNextPoint_readsAs (provider : PointProvider) (json : Bool)
    (free : ∀ line ∈ lines, Nmea.lineFeed ∉ line) (unfinished : Nmea.lineFeed ∉ tail)
    (unread : src.stdin = terminated lines ++ tail) :
    ReadsAs ((sourceNextPoint provider json).run src) (nextPoint provider json lines) tail := by
  cases provider with
  | stdin => exact stdin_readsAs json free unfinished unread
  | gpsMock => exact gpsMock_readsAs free unfinished unread

end Refinement

/-! ### The main loop over the bytes -/

theorem nextPoint_suffix {provider : PointProvider} {json : Bool} {lines rest : List Bytes}
    {point : Point} (next : nextPoint provider json lines = .ok (point, rest)) :
    rest <:+ lines := by
  induction lines with
  | nil =>
    rw [nextPoint_nil] at next
    cases next
  | cons line others ih =>
    rw [nextPoint_cons] at next
    split at next
    · cases next
    · exact (ih next).trans (List.suffix_cons line others)
    · cases next
      exact List.suffix_cons line _

section Reads

variable {step : Except Fault (Point × List Bytes)} {tail : Bytes} {src : LineSource}

theorem ReadsAs.returned {point : Point} (reads : ReadsAs (.ok point src) step tail) :
    ∃ rest, step = .ok (point, rest) ∧ src.stdin = terminated rest ++ tail := by
  obtain ⟨same, left⟩ := reads
  cases step with
  | error fault => cases same
  | ok next =>
    cases same
    exact ⟨next.2, rfl, left next.1 next.2 rfl⟩

theorem ReadsAs.failed {fault : Fault} (reads : ReadsAs (.error fault src) step tail) :
    step = .error fault := by
  cases step with
  | error fault' =>
    cases reads.1
    rfl
  | ok next => cases reads.1

end Reads

/-- A call that returns has read at least one line. -/
theorem sourceNextPoint_shorter {provider : PointProvider} {json : Bool} {src src' : LineSource}
    {point : Point} (run : (sourceNextPoint provider json).run src = .ok point src') :
    src'.stdin.length < src.stdin.length := by
  obtain ⟨lines, tail, free, unfinished, unread⟩ := Lines.exists_unlines Nmea.lineFeed src.stdin
  have reads := sourceNextPoint_readsAs provider json free unfinished unread
  rw [run] at reads
  obtain ⟨rest, next, unread'⟩ := reads.returned
  have shorter := nextPoint_shorter next
  obtain ⟨front, rfl⟩ := nextPoint_suffix next
  cases front with
  | nil => exact absurd shorter (Nat.lt_irrefl _)
  | cons line front =>
    rw [unread, unread', terminated, List.cons_append, Lines.unlines_cons, Lines.unlines_append]
    simp only [List.length_append, List.length_cons]
    omega

section Loop

variable {γ : Type} (env : Externals γ) (floatText : FloatText) (provider : PointProvider)
variable (json : Bool)

/-- The `while (true)` of main over the bytes not yet read. -/
def mainOn (m : Machine γ) (src : LineSource) : Run γ :=
  match _next : (sourceNextPoint provider json).run src with
  | .error (.error .NoMorePoints) _ => ⟨[], .ok (), m⟩
  | .error fault _ => ⟨[], .error fault, m⟩
  | .ok point src =>
      match (update env point).run m with
      | .ok () m' => (mainOn m' src).after (answer env floatText json m'.stack)
      | .error (.error .pointNotInDataset) m' =>
          (mainOn m' src).after (answer env floatText json m'.stack)
      | .error fault m' => ⟨[], .error fault, m'⟩
termination_by src.stdin.length
decreasing_by all_goals exact sourceNextPoint_shorter _next

/-- The loop, without the proof that it ends. -/
theorem mainOn_eq (m : Machine γ) (src : LineSource) :
    mainOn env floatText provider json m src =
      match (sourceNextPoint provider json).run src with
      | .error (.error .NoMorePoints) _ => ⟨[], .ok (), m⟩
      | .error fault _ => ⟨[], .error fault, m⟩
      | .ok point src =>
          match (update env point).run m with
          | .ok () m' =>
              (mainOn env floatText provider json m' src).after (answer env floatText json m'.stack)
          | .error (.error .pointNotInDataset) m' =>
              (mainOn env floatText provider json m' src).after (answer env floatText json m'.stack)
          | .error fault m' => ⟨[], .error fault, m'⟩ := by
  rw [mainOn]
  split <;> rename_i next <;> simp only [next]

theorem mainOn_lines (m : Machine γ) {lines : List Bytes} {tail : Bytes} {src : LineSource}
    (free : ∀ line ∈ lines, Nmea.lineFeed ∉ line) (unfinished : Nmea.lineFeed ∉ tail)
    (unread : src.stdin = terminated lines ++ tail) :
    mainOn env floatText provider json m src = mainLoop env floatText provider json m lines := by
  induction bytes : src.stdin.length using Nat.strong_induction_on generalizing m lines src with
  | _ n ih =>
    subst bytes
    have reads := sourceNextPoint_readsAs provider json free unfinished unread
    rw [mainOn, mainLoop_eq]
    split
    · rename_i run
      rw [run] at reads
      rw [reads.failed]
    · rename_i fault _ other run
      rw [run] at reads
      rw [reads.failed]
      split <;> simp_all
    · rename_i point src' run
      rw [run] at reads
      obtain ⟨rest, next, unread'⟩ := reads.returned
      have later : ∀ m', mainOn env floatText provider json m' src' =
          mainLoop env floatText provider json m' rest := by
        intro m'
        apply ih _ (sourceNextPoint_shorter run) m' _ unread' rfl
        intro line member
        exact free line ((nextPoint_suffix next).subset member)
      rw [next]
      dsimp only
      generalize (update env point).run m = updated
      cases updated with
      | ok _ m' => exact congrArg (Run.after _) (later m')
      | error fault m' =>
        by_cases outside : fault = .error .pointNotInDataset
        · rw [outside]
          exact congrArg (Run.after _) (later m')
        · rcases fault with e | check
          · cases e <;> first | rfl | exact absurd rfl outside
          · rfl

end Loop

/-- main reads from the standard input the lines that end in a line feed, and no more. -/
theorem mainOn_eq_main {γ : Type} (env : Externals γ) (floatText : FloatText)
    (provider : PointProvider) (json skipHuc14and16 : Bool) (input : Bytes) :
    mainOn env floatText provider json { stack := .init skipHuc14and16 } { stdin := input } =
      main env floatText provider json skipHuc14and16 input := by
  obtain ⟨lines, tail, free, unfinished, rfl⟩ := Lines.exists_unlines Nmea.lineFeed input
  have same : terminatedLines (Lines.unlines Nmea.lineFeed lines ++ tail) = lines :=
    terminatedLines_append lines free unfinished
  rw [main, same]
  exact mainOn_lines env floatText provider json _ free unfinished rfl

end WatershedOracle
