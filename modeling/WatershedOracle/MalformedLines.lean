import WatershedOracle.LineFaults
import WatershedOracle.Session

set_option autoImplicit false

/-! A line that cannot be read ends the run: what was printed for the lines before it
stays, what stands after it is never read. -/

namespace WatershedOracle

open Effect

variable {γ : Type}

section Lines

variable (env : Externals γ) (floatText : FloatText) (provider : PointProvider) (json : Bool)

/-- The fault a line brings with it: its source or GEOS cannot read it. -/
def lineFault (line : Bytes) : Option Fault :=
  match readLine provider json line with
  | .error fault => some fault
  | .ok none => none
  | .ok (some point) =>
      match point.location with
      | .wkt text => if (env.wktReader text).isSome then none else some (.error .updateWKT)
      | .xy _ _ => none

/-- The line is rejected with an error; a tripped safety check is a different matter. -/
def malformed (line : Bytes) : Bool :=
  match lineFault env provider json line with
  | some (.error _) => true
  | _ => false

end Lines

/-! ### Runs one after the other -/

/-- Go on with another run unless this one ended with a fault. -/
def Run.andThen (run : Run γ) (next : Machine γ → Run γ) : Run γ :=
  match run.result with
  | .ok () => (next run.machine).after run.output
  | .error _ => run

theorem Run.after_andThen (printed : Bytes) (run : Run γ) (next : Machine γ → Run γ) :
    (run.after printed).andThen next = (run.andThen next).after printed := by
  obtain ⟨output, result, machine⟩ := run
  cases result <;> simp [Run.andThen, Run.after]

theorem Run.andThen_output (run : Run γ) (next : Machine γ → Run γ) :
    run.output <+: (run.andThen next).output := by
  obtain ⟨output, result, machine⟩ := run
  cases result with
  | ok => exact List.prefix_append _ _
  | error fault => exact List.prefix_rfl

/-- A next run that prints nothing and fails adds only its fault. -/
theorem Run.andThen_fault (run : Run γ) {next : Machine γ → Run γ} {fault : Fault}
    (silent : ∀ m, (next m).output = []) (fails : ∀ m, (next m).result = .error fault) :
    (run.andThen next).output = run.output ∧
      (run.andThen next).result = run.result.bind fun _ => .error fault := by
  obtain ⟨output, result, machine⟩ := run
  cases result with
  | ok => simp [Run.andThen, silent, fails, Except.bind]
  | error fault' => exact ⟨rfl, rfl⟩

section Faults

variable (env : Externals γ) (floatText : FloatText) (provider : PointProvider) (json : Bool)

/-- A longer input only adds to a run that has not ended with a fault. -/
theorem mainLoop_append (m : Machine γ) (first second : List Bytes) :
    mainLoop env floatText provider json m (first ++ second) =
      (mainLoop env floatText provider json m first).andThen fun m' =>
        mainLoop env floatText provider json m' second := by
  induction first generalizing m with
  | nil => simp [Run.andThen, Run.after]
  | cons line rest ih =>
    rw [List.cons_append]
    cases read : readLine provider json line with
    | error fault =>
      have ends : fault ≠ .error .NoMorePoints := fun same =>
        readLine_ne_noMorePoints provider json line (same ▸ read)
      rw [mainLoop_reject _ read ends, mainLoop_reject _ read ends]
      rfl
    | ok found =>
      cases found with
      | none => rw [mainLoop_pass _ read, mainLoop_pass _ read, ih]
      | some point =>
        by_cases clean : Clean ((update env point).run m)
        · rw [mainLoop_answer _ read clean, mainLoop_answer _ read clean, ih, Run.after_andThen]
        · obtain ⟨fault, m', failed, ends⟩ := not_clean clean
          rw [mainLoop_fail _ read failed ends, mainLoop_fail _ read failed ends]
          rfl

/-- A line that brings a fault along ends the loop on every stack. -/
theorem mainLoop_fault {line : Bytes} {fault : Fault}
    (brings : lineFault env provider json line = some fault) (m : Machine γ) (rest : List Bytes) :
    (mainLoop env floatText provider json m (line :: rest)).output = [] ∧
      (mainLoop env floatText provider json m (line :: rest)).result = .error fault := by
  unfold lineFault at brings
  split at brings
  · rename_i fault' read
    cases brings
    have ends : fault ≠ .error .NoMorePoints := fun same =>
      readLine_ne_noMorePoints provider json line (same ▸ read)
    rw [mainLoop_reject _ read ends]
    exact ⟨rfl, rfl⟩
  · cases brings
  · rename_i point read
    obtain ⟨requestId, text | ⟨x, y⟩⟩ := point
    · dsimp only at brings
      split at brings
      · cases brings
      · rename_i unread
        cases brings
        have unmade : env.geometryOf (.wkt text) = none := by
          simpa [Externals.geometryOf] using unread
        obtain ⟨m', failed⟩ := update_unmade ⟨requestId, .wkt text⟩ m unmade
        rw [mainLoop_fail _ read failed (by simp [PointLocation.failure])]
        exact ⟨rfl, rfl⟩
    · cases brings

/-- The run over lines with a malformed one is the run over the lines before it, ended
by the error of that line; the run without the malformed lines only prints more. -/
theorem main_malformed (skip : Bool) (good rest : List Bytes) (bad : Bytes) (e : ZigError)
    (whole : ∀ line ∈ good ++ bad :: rest, Nmea.lineFeed ∉ line)
    (fine : ∀ line ∈ good, malformed env provider json line = false)
    (rejected : lineFault env provider json bad = some (.error e)) :
    (main env floatText provider json skip (terminated (good ++ bad :: rest))).output =
        (main env floatText provider json skip (terminated good)).output ∧
      (main env floatText provider json skip (terminated (good ++ bad :: rest))).result =
        (main env floatText provider json skip (terminated good)).result.bind
          (fun _ => .error (.error e)) ∧
      (main env floatText provider json skip (terminated good)).output <+:
        (main env floatText provider json skip (terminated
          ((good ++ bad :: rest).filter fun line => !malformed env provider json line))).output := by
  have wholeGood : ∀ line ∈ good, Nmea.lineFeed ∉ line := fun line member =>
    whole line (List.mem_append_left _ member)
  have wholeKept : ∀ line ∈ (good ++ bad :: rest).filter
      (fun line => !malformed env provider json line), Nmea.lineFeed ∉ line := fun line member =>
    whole line (List.mem_of_mem_filter member)
  have kept : (good ++ bad :: rest).filter (fun line => !malformed env provider json line) =
      good ++ (bad :: rest).filter fun line => !malformed env provider json line := by
    rw [List.filter_append, List.filter_eq_self.mpr fun line member => by simp [fine line member]]
  unfold main
  rw [terminatedLines_terminated _ whole, terminatedLines_terminated _ wholeGood,
    terminatedLines_terminated _ wholeKept, kept, mainLoop_append, mainLoop_append]
  have ended := mainLoop_fault env floatText provider json rejected
  obtain ⟨silent, fails⟩ :=
    (mainLoop env floatText provider json { stack := .init skip } good).andThen_fault
      (fun m => (ended m rest).1) fun m => (ended m rest).2
  exact ⟨silent, fails, Run.andThen_output _ _⟩

end Faults

/-- A request for the middle of the square. -/
def centerLine : Bytes := Zig.ascii "\x7b\"requestId\":7,\"longitude\":1,\"latitude\":1\x7d"

/-- A line that is no request. -/
def strayLine : Bytes := Zig.ascii "BAD"

theorem strayLine_rejected :
    lineFault (squareWorld 6) .stdin true strayLine = some (.error .SyntaxError) := by
  decide +kernel

theorem main_malformed_squares :
    (main (squareWorld 6) wholeText .stdin true true
        (terminated ([centerLine] ++ strayLine :: [centerLine]))).output =
        (main (squareWorld 6) wholeText .stdin true true (terminated [centerLine])).output ∧
      (main (squareWorld 6) wholeText .stdin true true
        (terminated ([centerLine] ++ strayLine :: [centerLine]))).result =
        (main (squareWorld 6) wholeText .stdin true true (terminated [centerLine])).result.bind
          (fun _ => .error (.error .SyntaxError)) ∧
      (main (squareWorld 6) wholeText .stdin true true (terminated [centerLine])).output <+:
        (main (squareWorld 6) wholeText .stdin true true (terminated
          (([centerLine] ++ strayLine :: [centerLine]).filter
            fun line => !malformed (squareWorld 6) .stdin true line))).output :=
  main_malformed (squareWorld 6) wholeText .stdin true true [centerLine] [centerLine] strayLine
    .SyntaxError (by decide +kernel) (by decide +kernel) strayLine_rejected

/-- The request behind the stray line gets its answer only when the line is taken out. -/
theorem malformed_line_ends_run :
    [strayLine, centerLine].filter (fun line => !malformed (squareWorld 6) .stdin true line) =
        [centerLine] ∧
      (main (squareWorld 6) wholeText .stdin true true
        (terminated [strayLine, centerLine])).result = .error (.error .SyntaxError) ∧
      (main (squareWorld 6) wholeText .stdin true true
        (terminated [strayLine, centerLine])).output ≠
        (main (squareWorld 6) wholeText .stdin true true (terminated [centerLine])).output := by
  refine ⟨by decide +kernel, ?_, ?_⟩
  · unfold main
    rw [terminatedLines_terminated _ (by decide +kernel)]
    exact (mainLoop_fault _ wholeText _ _ strayLine_rejected _ _).2
  · have read : readLine .stdin true centerLine = .ok (some (centerPoint 7)) := by decide +kernel
    have clean : Clean ((update (squareWorld 6) (centerPoint 7)).run { stack := .init true }) :=
      update_clean (serve_hosts _ _) (serve_steady _ _) (serve_faultless _ _)
        (squares_readable 6) _ ⟨WatershedStack.init_holds true, .nil⟩ (centerPoint_made 6 7)
    unfold main
    rw [terminatedLines_terminated _ (by decide +kernel),
      terminatedLines_terminated _ (by decide +kernel),
      (mainLoop_fault _ wholeText _ _ strayLine_rejected _ _).1, mainLoop_answer _ read clean]
    simp [answer, printJSON]

end WatershedOracle
