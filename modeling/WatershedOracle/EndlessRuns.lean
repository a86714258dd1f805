import WatershedOracle.PathUtil
import WatershedOracle.RandomSources
import WatershedOracle.SerialGps
import WatershedOracle.Session

set_option autoImplicit false

/-! Both programs on the sources that never end: pathUtil up to its bound, and the oracle
for any number of turns. -/

namespace WatershedOracle

open Effect

/-! ### pathUtil -/

namespace PathUtil

variable {σ : Type}

section Endless

variable {nextPoint : EStateM Fault σ Point} {decimalText : F64 → Bytes} {bits numPoints : Nat}

variable (decimalText bits numPoints) in
/-- The points of a source pass through the loop one by one. -/
theorem collect_supplies {src src' : σ} {points : List Point}
    (supplies : Supplies nextPoint src points src') (n : Nat) (calls : List (Except Fault Point))
    (bw : Zig.BufferedWriter 4096) (room : n + points.length ≤ numPoints + 1)
    (small : n + points.length < 2 ^ bits) :
    collect nextPoint decimalText bits numPoints n ⟨src, calls, bw⟩ =
      collect nextPoint decimalText bits numPoints (n + points.length)
        ⟨src', calls ++ points.map .ok, printAll decimalText bw points⟩ := by
  induction supplies generalizing n calls bw with
  | nil s =>
    rw [List.map_nil, List.append_nil]
    rfl
  | @cons s s' s'' point rest run later ih =>
    rw [List.length_cons] at room small
    rw [collect_point (by omega) run, if_pos (by omega), ih _ _ _ (by omega) (by omega),
      List.length_cons, List.append_assoc, Nat.add_right_comm, Nat.add_assoc]
    rfl

variable (decimalText) in
/-- A source that never ends is copied up to one point past the bound, if `n` can count
that far. -/
theorem main_endless (endless : Endless nextPoint) (numPoints : Bound bits)
    (smaller : numPoints.limit + 1 < 2 ^ bits) (src : σ) :
    ∃ points src', points.length = numPoints.limit + 1 ∧ Supplies nextPoint src points src' ∧
      main nextPoint decimalText bits numPoints src =
        .ok () ⟨src', points.map .ok, (printAll decimalText {} points).flush⟩ := by
  obtain ⟨points, src', length, supplies⟩ := endless.supplies (numPoints.limit + 1) src
  have run := collect_supplies decimalText bits numPoints.limit supplies 0 [] {} (by omega)
    (by omega)
  have past : numPoints.limit < 0 + points.length := by omega
  rw [collect_past past] at run
  exact ⟨points, src', length, supplies, main_ok run⟩

variable (decimalText) in
/-- Under the largest bound the counter overflows. -/
theorem main_endless_overflow (endless : Endless nextPoint) (numPoints : Bound bits)
    (largest : numPoints.limit + 1 = 2 ^ bits) (src : σ) :
    ∃ s, main nextPoint decimalText bits numPoints src = .error (.panic .integerOverflow) s := by
  obtain ⟨points, src', length, supplies⟩ := endless.supplies numPoints.limit src
  obtain ⟨point, last, next⟩ := endless src'
  have run := collect_supplies decimalText bits numPoints.limit supplies 0 [] {} (by omega)
    (by omega)
  have inside : 0 + points.length ≤ numPoints.limit := by omega
  rw [collect_point inside next, if_neg (by omega)] at run
  exact ⟨_, main_error run⟩

end Endless

/-- With --scatter one point more than the bound is written, and every one lies in the
rectangle; without a bound, or with the largest, the counter overflows in the end. -/
theorem main_scatter (R : Random σ) (decimalText : F64 → Bytes) {bits : Nat}
    (numPoints : Bound bits) (rng : σ) :
    (numPoints.limit + 1 < 2 ^ bits →
      ∃ points s, points.length = numPoints.limit + 1 ∧
        (∀ point ∈ points, PointScatter.Inside point) ∧
        main (PointScatter.nextPoint R) decimalText bits numPoints rng = .ok () s ∧
        s.bw.written = lines decimalText points) ∧
      (numPoints.limit + 1 = 2 ^ bits →
        ∃ s, main (PointScatter.nextPoint R) decimalText bits numPoints rng =
          .error (.panic .integerOverflow) s) := by
  constructor
  · intro smaller
    obtain ⟨points, rng', length, supplies, run⟩ :=
      main_endless decimalText PointScatter.endless numPoints smaller rng
    exact ⟨points, _, length, PointScatter.supplies_inside supplies, run, print_flushed points⟩
  · intro largest
    exact main_endless_overflow decimalText PointScatter.endless numPoints largest rng

end PathUtil

/-! ### The oracle -/

section Turns

variable {γ σ : Type} (env : Externals γ) (floatText : FloatText) (json : Bool)
variable (nextPoint : EStateM Fault σ Point)

/-- So many turns of the `while (true)` of main, on any point source; the source is
given back as long as the loop goes on. -/
def turns : Nat → Machine γ → σ → Run γ × Option σ
  | 0, m, src => (⟨[], .ok (), m⟩, some src)
  | n + 1, m, src =>
      match nextPoint.run src with
      | .error (.error .NoMorePoints) _ => (⟨[], .ok (), m⟩, none)
      | .error fault _ => (⟨[], .error fault, m⟩, none)
      | .ok point src =>
          match (update env point).run m with
          | .ok () m' =>
              let (run, left) := turns n m' src
              (run.after (answer env floatText json m'.stack), left)
          | .error (.error .pointNotInDataset) m' =>
              let (run, left) := turns n m' src
              (run.after (answer env floatText json m'.stack), left)
          | .error fault m' => (⟨[], .error fault, m'⟩, none)

variable {env floatText json nextPoint} {m : Machine γ} {src src' : σ}

theorem turns_answer (n : Nat) {point : Point} (run : nextPoint.run src = .ok point src')
    (clean : Clean ((update env point).run m)) :
    turns env floatText json nextPoint (n + 1) m src =
      ((turns env floatText json nextPoint n (endState ((update env point).run m)) src').1.after
        (answer env floatText json (endState ((update env point).run m)).stack),
       (turns env floatText json nextPoint n (endState ((update env point).run m)) src').2) := by
  rw [turns]
  simp only [run]
  generalize (update env point).run m = result at clean ⊢
  cases clean <;> rfl

theorem turns_ends (n : Nat) (run : nextPoint.run src = .error (.error .NoMorePoints) src') :
    turns env floatText json nextPoint (n + 1) m src = (⟨[], .ok (), m⟩, none) := by
  rw [turns]
  simp only [run]

theorem turns_stops (n : Nat) {fault : Fault} (run : nextPoint.run src = .error fault src')
    (own : fault ≠ .error .NoMorePoints) :
    turns env floatText json nextPoint (n + 1) m src = (⟨[], .error fault, m⟩, none) := by
  rw [turns]
  simp only [run]

theorem turns_fail (n : Nat) {point : Point} (run : nextPoint.run src = .ok point src')
    {fault : Fault} {m' : Machine γ} (failed : (update env point).run m = .error fault m')
    (own : fault ≠ .error .pointNotInDataset) :
    turns env floatText json nextPoint (n + 1) m src = (⟨[], .error fault, m'⟩, none) := by
  rw [turns]
  simp only [run, failed]

end Turns

/-- On a source of lines, as many turns as there are bytes reach the end of the loop. -/
theorem turns_eq_mainOn {γ : Type} {env : Externals γ} {floatText : FloatText} {json : Bool}
    {provider : PointProvider} (n : Nat) (m : Machine γ) (src : LineSource)
    (enough : src.stdin.length < n) :
    turns env floatText json (sourceNextPoint provider json) n m src =
      (mainOn env floatText provider json m src, none) := by
  induction n generalizing m src with
  | zero => exact absurd enough (Nat.not_lt_zero _)
  | succ n ih =>
    cases run : (sourceNextPoint provider json).run src with
    | error fault src' =>
      by_cases ends : fault = .error .NoMorePoints
      · rw [ends] at run
        rw [turns_ends n run, PointSerial.mainOn_ends run]
      · rw [turns_stops n run ends, PointSerial.mainOn_stops run ends]
    | ok point src' =>
      have shorter := sourceNextPoint_shorter run
      by_cases clean : Clean ((update env point).run m)
      · rw [turns_answer n run clean, PointSerial.mainOn_answer run clean, ih _ src' (by omega)]
      · obtain ⟨fault, m', failed, own⟩ := not_clean clean
        rw [turns_fail n run failed own, PointSerial.mainOn_fail run failed own]

/-! ### Answers without end -/

section Session

variable {γ σ : Type} {env : Externals γ} {d : Dataset} {nextPoint : EStateM Fault σ Point}

/-- As many turns print as many lines, and each answers the point that the source handed
on then; the loop goes on behind them. -/
def AnswersTurns (env : Externals γ) (d : Dataset) (floatText : FloatText)
    (nextPoint : EStateM Fault σ Point) (across up : F64 → Prop) (n : Nat) (skip : Bool)
    (src : σ) : Prop :=
  ∃ requests docs src', requests.length = n ∧
    Supplies nextPoint src (requests.map PointJson.asked) src' ∧
    (∀ request ∈ requests,
      request.requestId = 0 ∧ across request.longitude ∧ up request.latitude) ∧
    (turns env floatText true nextPoint n { stack := .init skip } src).1.output =
      answerLines floatText docs ∧
    (turns env floatText true nextPoint n { stack := .init skip } src).2 = some src' ∧
    (∀ doc ∈ docs, Nmea.lineFeed ∉ Zig.Json.render floatText doc) ∧
    List.Forall₂ (AnsweredBy env d) requests docs

theorem exists_requests {across up : F64 → Prop} {points : List Point}
    (plain : ∀ point ∈ points, ∃ x y, point = ⟨0, .xy x y⟩ ∧ across x ∧ up y) :
    ∃ requests : List PointJson, points = requests.map PointJson.asked ∧
      ∀ request ∈ requests,
        request.requestId = 0 ∧ across request.longitude ∧ up request.latitude := by
  induction points with
  | nil => exact ⟨[], rfl, fun request listed => absurd listed List.not_mem_nil⟩
  | cons point rest ih =>
    obtain ⟨first, others⟩ := List.forall_mem_cons.mp plain
    obtain ⟨x, y, rfl, right, high⟩ := first
    obtain ⟨requests, rfl, later⟩ := ih others
    exact ⟨⟨0, x, y⟩ :: requests, rfl, List.forall_mem_cons.mpr ⟨⟨rfl, right, high⟩, later⟩⟩

variable (hosts : Hosts env d) (steady : env.Steady) (boxed : Boxed env d)
variable (faultless : env.Faultless) (readable : d.Readable env)
variable (nested : (regions env d.listed).Nested) (points : env.PointsAt)
include hosts steady boxed faultless readable nested points

/-- One turn answers its point from the stack that the others left. -/
theorem turns_session (floatText : FloatText) (requests : List PointJson)
    (finite : ∀ request ∈ requests, request.longitude.isFinite ∧ request.latitude.isFinite)
    {src src' : σ} (supplies : Supplies nextPoint src (requests.map PointJson.asked) src')
    {m : Machine γ} (covered : Covered env d.listed m) :
    ∃ docs, (turns env floatText true nextPoint requests.length m src).1.output =
        answerLines floatText docs ∧
      (turns env floatText true nextPoint requests.length m src).2 = some src' ∧
      List.Forall₂ (AnsweredBy env d) requests docs := by
  induction requests generalizing m src with
  | nil =>
    cases supplies
    exact ⟨[], rfl, rfl, .nil⟩
  | cons request requests ih =>
    obtain ⟨first, others⟩ := List.forall_mem_cons.mp finite
    rw [List.map_cons] at supplies
    cases supplies with
    | cons run later =>
      obtain ⟨geom, made, box⟩ := points _ _ first.1 first.2
      obtain ⟨list, stacked, _⟩ := id covered
      have clean := update_clean hosts steady faultless readable request.asked stacked made
      have answered := update_answers hosts steady boxed nested covered request made box clean
      have kept := update_covered hosts.serves steady nested request.asked m covered
      obtain ⟨docs, printed, left, answers⟩ := ih others later kept
      rw [List.length_cons, turns_answer _ run clean]
      refine ⟨_ :: docs, ?_, left, .cons ⟨geom, made, answered⟩ answers⟩
      rw [Run.after_output, printed, answerLines_cons]
      rfl

variable {floatText : FloatText} (floats : ∀ x, Zig.Json.Printable (floatText x))
include floats

theorem answersTurns {across up : F64 → Prop} (right : ∀ {x}, across x → x.isFinite)
    (high : ∀ {y}, up y → y.isFinite) {src src' : σ} {handed : List Point}
    (supplies : Supplies nextPoint src handed src')
    (plain : ∀ point ∈ handed, ∃ x y, point = ⟨0, .xy x y⟩ ∧ across x ∧ up y) (skip : Bool) :
    AnswersTurns env d floatText nextPoint across up handed.length skip src := by
  obtain ⟨requests, rfl, each⟩ := exists_requests plain
  have finite : ∀ request ∈ requests,
      request.longitude.isFinite ∧ request.latitude.isFinite := by
    intro request listed
    obtain ⟨_, isAcross, isUp⟩ := each request listed
    exact ⟨right isAcross, high isUp⟩
  obtain ⟨docs, printed, left, answers⟩ := turns_session hosts steady boxed faultless readable
    nested points floatText requests finite supplies (covered_init skip)
  rw [List.length_map]
  exact ⟨requests, docs, src', rfl, supplies, each, printed, left,
    fun doc _ => lineFeed_notMem_of_printable (Zig.Json.render_printable floats doc), answers⟩

/-- On a made-up source the oracle answers every point with a line, for ever: those of
scatter.zig lie in its rectangle, and those of fuzzer.zig stay finite. -/
theorem turns_random (R : Random σ) (tame : PointFuzzer.Tame R) (n : Nat) (skip : Bool)
    (rng : σ) :
    AnswersTurns env d floatText (PointScatter.nextPoint R)
        (Between PointScatter.minx PointScatter.maxx)
        (Between PointScatter.miny PointScatter.maxy) n skip rng ∧
      AnswersTurns env d floatText (PointFuzzer.nextPoint R) (Below 103) (Below 103) n skip
        (PointFuzzer.init R rng) := by
  constructor
  · obtain ⟨handed, rng', rfl, supplies⟩ := PointScatter.endless.supplies n rng
    exact answersTurns hosts steady boxed faultless readable nested points floats
      Between.isFinite Between.isFinite supplies (PointScatter.supplies_inside supplies) skip
  · obtain ⟨handed, src', rfl, supplies⟩ := PointFuzzer.endless.supplies n (PointFuzzer.init R rng)
    obtain ⟨_, walked⟩ := PointFuzzer.supplies_walked tame supplies (PointFuzzer.init_held rng)
    exact answersTurns hosts steady boxed faultless readable nested points floats
      Below.isFinite Below.isFinite supplies walked skip

end Session

theorem turns_random_squares :
    AnswersTurns (squareWorld 6) (squares 6) wholeText (PointScatter.nextPoint congruential)
        (Between PointScatter.minx PointScatter.maxx)
        (Between PointScatter.miny PointScatter.maxy) 1000 true 7 ∧
      AnswersTurns (squareWorld 6) (squares 6) wholeText (PointFuzzer.nextPoint congruential)
        (Below 103) (Below 103) 1000 true (PointFuzzer.init congruential 7) :=
  turns_random (serve_hosts (squares 6) boxes) (serve_steady _ _) (squares_boxed 6)
    (serve_faultless _ _) (squares_readable 6) (squares_nested 6) (squares_pointsAt 6)
    wholeText_printable congruential congruential_tame 1000 true 7

end WatershedOracle
