import WatershedOracle.Coverage
import WatershedOracle.PlainSearch

set_option autoImplicit false

/-! The same request twice. Nothing is asked of the geometry: what the first update
left behind covers the point at its finest level, and the search it ended in ends again. -/

namespace WatershedOracle

open Effect

variable {γ : Type} {env : Externals γ}

/-- How a descent ends that has filled the levels of a list and fills no other. -/
inductive Ending (env : Externals γ) (point : γ) (depth : Nat) (list : List (Watershed γ)) :
    Except Fault Unit → Prop
  | full (isFull : list.length = depth) : Ending env point depth list (.ok ())
  | failed {level : Level} {fault : Fault} (next : level.index = list.length)
      (room : list.length < depth)
      (answered : answerOf env point (env.boundsOf point)
        (env.rows 0 (level.query (codeBelow list))) = .error fault)
      (raised : level = .huc14 → fault ≠ .error .pointNotInDataset) :
      Ending env point depth list (.error fault)
  | optional (next : Level.huc14.index = list.length) (room : list.length < depth)
      (answered : answerOf env point (env.boundsOf point)
        (env.rows 0 (Level.huc14.query (codeBelow list))) = .error (.error .pointNotInDataset)) :
      Ending env point depth list (.ok ())

section Endings

variable {point : γ} {m : Machine γ} {list final : List (Watershed γ)}
  {result : EStateM.Result Fault (Machine γ) Unit}

/-- Without faults a search below a list answers what its rows say. -/
theorem searchBelow_answer (faultless : env.Faultless) (steady : env.Steady)
    (ordered : env.Ordered) (asks : m.stack.Asks env point) (level : Level) :
    Ends (searchBelow env level list) m
      (fun w _ => answerOf env point (env.boundsOf point)
        (env.rows 0 (level.query (codeBelow list))) = .ok w.region)
      (fun fault _ => answerOf env point (env.boundsOf point)
        (env.rows 0 (level.query (codeBelow list))) = .error fault) := by
  obtain ⟨addr, at_⟩ := asks.at_
  have answer := search_answer faultless steady level.hucLevel level.tableName (codeBelow list) at_
  rw [asks.bounds, ordered] at answer
  exact answer

theorem Descent.ending (faultless : env.Faultless) (steady : env.Steady) (ordered : env.Ordered)
    (run : Descent env m list result final) (asks : m.stack.Asks env point) :
    Ending env point m.stack.depth final (returned result) := by
  induction run with
  | full isFull => exact .full isFull
  | @failed m m' list level fault next room searched raised =>
    have answered := (searchBelow_answer faultless steady ordered asks level).failed searched
    exact .failed next room answered raised
  | @optional m m' list next room searched =>
    have answered := (searchBelow_answer faultless steady ordered asks .huc14).failed searched
    exact .optional next room answered
  | @found m m' list final level w result next room searched rest ih =>
    have same := stored_sameRequest searched
    have deeper := ih (asks.same same)
    rwa [same.depth] at deeper

/-- From where a descent has ended no other goes on, and all end alike. -/
theorem Descent.stays (faultless : env.Faultless) (steady : env.Steady) (ordered : env.Ordered)
    (run : Descent env m list result final) (asks : m.stack.Asks env point)
    {end_ : Except Fault Unit} (ending : Ending env point m.stack.depth list end_) :
    final = list ∧ returned result = end_ := by
  cases run with
  | full isFull =>
    refine ⟨rfl, ?_⟩
    cases ending with
    | full _ => rfl
    | failed _ room _ _ => omega
    | optional _ room _ => rfl
  | @failed _ m' _ level fault next room searched raised =>
    have answered := (searchBelow_answer faultless steady ordered asks level).failed searched
    refine ⟨rfl, ?_⟩
    cases ending with
    | full isFull => omega
    | @failed other fault' next' _ answered' _ =>
      obtain rfl : level = other := Level.index_injective (next.trans next'.symm)
      rw [Except.error.inj (answered.symm.trans answered')]
      rfl
    | optional next' _ answered' =>
      obtain rfl : level = .huc14 := Level.index_injective (next.trans next'.symm)
      exact absurd (Except.error.inj (answered.symm.trans answered')) (raised rfl)
  | @optional _ m' _ next room searched =>
    have answered := (searchBelow_answer faultless steady ordered asks .huc14).failed searched
    refine ⟨rfl, ?_⟩
    cases ending with
    | full isFull => omega
    | @failed other fault' next' _ answered' raised =>
      obtain rfl : Level.huc14 = other := Level.index_injective (next.trans next'.symm)
      exact absurd (Except.error.inj (answered'.symm.trans answered)) (raised rfl)
    | optional _ _ _ => rfl
  | @found _ m' _ _ level w _ next room searched rest =>
    have answered := (searchBelow_answer faultless steady ordered asks level).returned searched
    cases ending with
    | full isFull => omega
    | @failed other fault' next' _ answered' _ =>
      obtain rfl : level = other := Level.index_injective (next.trans next'.symm)
      cases answered.symm.trans answered'
    | optional next' _ answered' =>
      obtain rfl : level = .huc14 := Level.index_injective (next.trans next'.symm)
      cases answered.symm.trans answered'

end Endings

section Finest

variable {m m' : Machine γ} {list kept final : List (Watershed γ)} {point : GeomPtr γ}
  {result : EStateM.Result Fault (Machine γ) Unit}

/-- A descent only puts regions on top that cover the point. -/
theorem Descent.head_covers (steady : env.Steady) (run : Descent env m list result final)
    (at_ : m.stack.point = some point)
    (covered : ∀ w ∈ list.head?, env.covers 0 w.geom.geom point.geom = 1) :
    ∀ w ∈ final.head?, env.covers 0 w.geom.geom point.geom = 1 := by
  induction run with
  | full => exact covered
  | failed => exact covered
  | optional => exact covered
  | found next room searched rest ih =>
    have newest := search_covers steady searched at_
    apply ih
    · rw [Machine.stored_stack, WatershedStack.setSlot_point, search_stack searched, at_]
    · intro w isHead
      obtain rfl := Option.some.inj isHead
      exact newest

/-- A climb drops nothing from a list whose finest region covers the point. -/
theorem Revalidation.keeps (steady : env.Steady) (climb : Revalidation env m list m' kept)
    (holds : m.stack.Holds list) (asks : m.stack.Asks env point.geom)
    (covered : ∀ w ∈ list.head?, env.covers 0 w.geom.geom point.geom = 1) : kept = list := by
  have regions := climb.refines steady asks
  obtain ⟨_, suffix, _⟩ := climb.holds holds
  apply suffix.eq_of_length
  cases list with
  | nil => simpa using suffix
  | cons w rest =>
    have inside : coveredAt env point.geom w.region = true := beq_iff_eq.mpr (covered w rfl)
    rw [List.map_cons, Tower.revalidate_cons_of_covers _ _ _ inside] at regions
    simpa using congrArg List.length regions

end Finest

/-- An update after the same update leaves the slots alone and returns the same. The
first one starts from any stack that updates can reach, under any externals. -/
theorem update_repeat (history : List Point) (before : Externals γ) (skip : Bool)
    (faultless : env.Faultless) (steady : env.Steady) (ordered : env.Ordered)
    (newPoint : Point) (m' : Machine γ)
    (first : m' = endState ((update env newPoint).run (after before skip history))) :
    (∀ level, (endState ((update env newPoint).run m')).stack.slot level =
        m'.stack.slot level) ∧
      returned ((update env newPoint).run m') =
        returned ((update env newPoint).run (after before skip history)) := by
  subst first
  obtain ⟨list, holds, _⟩ := after_holds before skip history
  rcases update_run env newPoint _ holds with
    ⟨n, unmade, runs, stack⟩ | ⟨geom, addr, n, n', kept, final, made, stack, climb, run⟩
  · rw [runs, endState_error]
    have held : n.stack.Holds list := by rw [stack]; exact holds
    rcases update_run env newPoint n held with ⟨n', _, runs', stack'⟩ | ⟨geom, _, _, _, _, _, made, _⟩
    · rw [runs', endState_error, stack']
      exact ⟨fun level => by cases level <;> rfl, rfl⟩
    · cases unmade.symm.trans made
  · have at_ : n.stack.point = some ⟨addr, geom⟩ := by rw [stack]; rfl
    have asks : n.stack.Asks env geom := by
      rw [stack]
      exact WatershedStack.asking_asks _ _ env ⟨addr, geom⟩
    obtain ⟨keptHeld, _, same⟩ := climb.holds (by rw [stack]; exact holds)
    obtain ⟨finalHeld, _, same'⟩ := run.holds keptHeld
    have finest := run.head_covers steady (same.1.trans at_) (climb.head_covers steady at_)
    have ending := run.ending faultless steady ordered (asks.same same)
    rcases update_run env newPoint _ finalHeld with
      ⟨_, unmade, _⟩ | ⟨geom', addr', p, p', kept', final', made', stack', climb', run'⟩
    · cases unmade.symm.trans made
    · obtain rfl : geom = geom' := Option.some.inj (made.symm.trans made')
      have asks' : p.stack.Asks env geom := by
        rw [stack']
        exact WatershedStack.asking_asks _ _ env ⟨addr', geom⟩
      have held : p.stack.Holds final := by rw [stack']; exact finalHeld
      obtain rfl := climb'.keeps steady held asks' finest
      obtain ⟨keptHeld', _, same''⟩ := climb'.holds held
      have depth : p'.stack.depth = n'.stack.depth := by
        have skips : p'.stack.skipHuc14and16 = n'.stack.skipHuc14and16 := by
          rw [same''.2.2.2, stack']
          exact same'.2.2.2
        simp only [WatershedStack.depth, skips]
      obtain ⟨rfl, returns⟩ := run'.stays faultless steady ordered (asks'.same same'')
        (depth ▸ ending)
      refine ⟨fun level => ?_, returns⟩
      rw [(run'.holds keptHeld').1.slot, finalHeld.slot]

theorem update_repeat_squares :
    (∀ level, (endState ((update (squareWorld 7) (centerPoint 4)).run
          (endState ((update (squareWorld 7) (centerPoint 4)).run
            (after (squareWorld 8) false strayHistory))))).stack.slot level =
        (endState ((update (squareWorld 7) (centerPoint 4)).run
          (after (squareWorld 8) false strayHistory))).stack.slot level) ∧
      returned ((update (squareWorld 7) (centerPoint 4)).run
          (endState ((update (squareWorld 7) (centerPoint 4)).run
            (after (squareWorld 8) false strayHistory)))) =
        returned ((update (squareWorld 7) (centerPoint 4)).run
          (after (squareWorld 8) false strayHistory)) :=
  update_repeat strayHistory (squareWorld 8) false (serve_faultless _ _) (serve_steady _ _)
    (serve_hosts (squares 7) boxes).order (centerPoint 4) _ rfl

end WatershedOracle
