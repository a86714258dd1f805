import WatershedOracle.StackRuns

set_option autoImplicit false

/-! One update as a whole, and histories of updates: the slots stay a list. -/

namespace WatershedOracle

open Effect

variable {γ : Type} {env : Externals γ}

/-- The fields of the stack that neither a check nor a search touches. -/
def SameRequest (before after : WatershedStack γ) : Prop :=
  after.point = before.point ∧ after.pointBounds = before.pointBounds ∧
    after.requestId = before.requestId ∧ after.skipHuc14and16 = before.skipHuc14and16

theorem SameRequest.refl (stack : WatershedStack γ) : SameRequest stack stack :=
  ⟨rfl, rfl, rfl, rfl⟩

theorem SameRequest.trans {a b c : WatershedStack γ} (first : SameRequest a b)
    (second : SameRequest b c) : SameRequest a c :=
  ⟨second.1.trans first.1, second.2.1.trans first.2.1, second.2.2.1.trans first.2.2.1,
    second.2.2.2.trans first.2.2.2⟩

theorem SameRequest.setSlot (stack : WatershedStack γ) (value : Option (Watershed γ))
    (level : Level) : SameRequest stack (stack.setSlot value level) := by
  simp [SameRequest]

theorem SameRequest.depth {before after : WatershedStack γ} (same : SameRequest before after) :
    after.depth = before.depth := by
  simp only [WatershedStack.depth, same.2.2.2]

/-- Storing what a search has found leaves the request as it was. -/
theorem stored_sameRequest {m m' : Machine γ} {list : List (Watershed γ)} {level : Level}
    {w : Watershed γ} (searched : (searchBelow env level list).run m = .ok w m') :
    SameRequest m.stack (m'.stored level (some w)).stack := by
  rw [Machine.stored_stack, search_stack searched]
  exact SameRequest.setSlot _ _ _

/-- The climb keeps a suffix of the list and nothing else in the slots. -/
theorem Revalidation.holds {m m' : Machine γ} {list kept : List (Watershed γ)}
    (climb : Revalidation env m list m' kept) (holds : m.stack.Holds list) :
    m'.stack.Holds kept ∧ kept <:+ list ∧ SameRequest m.stack m'.stack := by
  induction climb with
  | empty => exact ⟨holds, List.suffix_refl _, .refl _⟩
  | vacant finer up ih =>
    obtain ⟨held, suffix, same⟩ := ih (holds.clear finer)
    exact ⟨held, suffix, (SameRequest.setSlot _ none _).trans same⟩
  | covered at_ covers => exact ⟨holds, List.suffix_refl _, .refl _⟩
  | @uncovered m m' w rest kept level point isTop at_ apart up ih =>
    obtain ⟨held, suffix, same⟩ := ih (holds.pop isTop)
    exact ⟨held, suffix.trans (List.suffix_cons w rest), (SameRequest.setSlot _ none _).trans same⟩

/-- A descent only pushes. -/
theorem Descent.holds {m : Machine γ} {list final : List (Watershed γ)}
    {result : EStateM.Result Fault (Machine γ) Unit} (run : Descent env m list result final)
    (holds : m.stack.Holds list) :
    (endState result).stack.Holds final ∧ list <:+ final ∧
      SameRequest m.stack (endState result).stack := by
  induction run with
  | full isFull => exact ⟨holds, List.suffix_refl _, .refl _⟩
  | failed next room searched raised =>
    rw [endState_error, search_failed_stack searched]
    exact ⟨holds, List.suffix_refl _, .refl _⟩
  | optional next room searched =>
    rw [endState_ok, search_failed_stack searched]
    exact ⟨holds, List.suffix_refl _, .refl _⟩
  | @found m m' list final level w result next room searched rest ih =>
    have kept := search_stack searched
    rw [Machine.stored_stack, kept] at ih
    obtain ⟨held, suffix, same⟩ := ih (holds.push w next room)
    exact ⟨held, (List.suffix_cons w list).trans suffix,
      (SameRequest.setSlot m.stack (some w) level).trans same⟩

/-- The geometry a request stands for, as GEOS builds it. -/
def Externals.geometryOf (env : Externals γ) : PointLocation → Option γ
  | .wkt text => env.wktReader text
  | .xy x y => env.createPointFromXY x y

/-- What `update` raises when GEOS cannot build the geometry. -/
def PointLocation.failure : PointLocation → ZigError
  | .wkt _ => .updateWKT
  | .xy _ _ => .updateXY

/-- The stack once the new point is in place and before any check. -/
def WatershedStack.asking (stack : WatershedStack γ) (requestId : Int) (env : Externals γ)
    (point : GeomPtr γ) : WatershedStack γ :=
  { stack with requestId, point := some point, pointBounds := env.boundsOf point.geom }

namespace Machine

/-- After `clearPoint`. -/
def cleared (m : Machine γ) : Machine γ where
  stack := { m.stack with point := none, pointBounds := .unset }
  calls := m.calls
  events := (m.stack.point.map fun point => Event.geomDestroyed point.addr).toList ++ m.events

/-- After `setPoint`. -/
def placed (m : Machine γ) (geom : γ) : Machine γ :=
  { m.ticked.recorded (.geomCreated m.calls) with
    stack := { m.stack with point := some ⟨m.calls, geom⟩ } }

/-- The machine on which an update for this geometry starts its checks. -/
def asking (m : Machine γ) (requestId : Int) (env : Externals γ) (geom : γ) : Machine γ :=
  (({ m with stack := { m.stack with requestId } } : Machine γ).cleared.placed geom).bounded env
    ⟨m.calls, geom⟩

end Machine

theorem clearPoint_cleared (m : Machine γ) :
    (clearPoint : Zig γ Unit).run m = .ok () m.cleared := by
  simp only [clearPoint, EStateM.run_bind, EStateM.run_get]
  cases at_ : m.stack.point <;> simp only [Machine.cleared, at_] <;> rfl

variable (env) in
theorem updateTo_run (made : Option γ) (failure : ZigError) (m : Machine γ)
    {list : List (Watershed γ)} (holds : m.stack.Holds list) :
    (∃ m', made = none ∧ (updateTo env made failure).run m = .error (.error failure) m' ∧
        m'.stack = { m.stack with point := none, pointBounds := .unset }) ∨
      ∃ geom addr m' m'' kept final, made = some geom ∧
        m'.stack = m.stack.asking m.stack.requestId env ⟨addr, geom⟩ ∧
        Revalidation env m' list m'' kept ∧
        Descent env m'' kept ((updateTo env made failure).run m) final := by
  cases made with
  | none =>
    refine .inl ⟨m.cleared, rfl, ?_, rfl⟩
    simp only [updateTo, EStateM.run_bind, clearPoint_cleared]
    rfl
  | some geom =>
    have held : (m.cleared.placed geom).stack.Holds list := holds
    have isPoint : (m.cleared.placed geom).stack.point = some ⟨m.calls, geom⟩ := rfl
    obtain ⟨n, kept, final, climb, run⟩ := updateStack_runs env held isPoint
    refine .inr ⟨geom, m.calls, _, n, kept, final, rfl, rfl, climb, ?_⟩
    simp only [updateTo, EStateM.run_bind, clearPoint_cleared]
    exact run

variable (env) in
theorem update_eq (newPoint : Point) (m : Machine γ) :
    (update env newPoint).run m =
      (updateTo env (env.geometryOf newPoint.location) newPoint.location.failure).run
        { m with stack := { m.stack with requestId := newPoint.requestId } } := by
  obtain ⟨requestId, text | ⟨x, y⟩⟩ := newPoint <;> rfl

variable (env) in
/-- The two ways an update goes: no geometry, or a climb followed by a descent. -/
theorem update_run (newPoint : Point) (m : Machine γ) {list : List (Watershed γ)}
    (holds : m.stack.Holds list) :
    (∃ m', env.geometryOf newPoint.location = none ∧
        (update env newPoint).run m = .error (.error newPoint.location.failure) m' ∧
        m'.stack = { m.stack with
          requestId := newPoint.requestId, point := none, pointBounds := .unset }) ∨
      ∃ geom addr m' m'' kept final, env.geometryOf newPoint.location = some geom ∧
        m'.stack = m.stack.asking newPoint.requestId env ⟨addr, geom⟩ ∧
        Revalidation env m' list m'' kept ∧
        Descent env m'' kept ((update env newPoint).run m) final := by
  rw [update_eq]
  exact updateTo_run env _ _ { m with stack := { m.stack with requestId := newPoint.requestId } }
    holds

theorem update_made (newPoint : Point) (m : Machine γ) {geom : γ}
    (made : env.geometryOf newPoint.location = some geom) :
    (update env newPoint).run m = (updateStack env).run
      (({ m with stack := { m.stack with requestId := newPoint.requestId } } :
        Machine γ).cleared.placed geom) := by
  rw [update_eq, made]
  simp only [updateTo, EStateM.run_bind, clearPoint_cleared]
  rfl

/-- Where GEOS makes the geometry, the update is a climb and a descent. -/
theorem update_climbs (newPoint : Point) {m : Machine γ} {list : List (Watershed γ)}
    (holds : m.stack.Holds list) {geom : γ}
    (made : env.geometryOf newPoint.location = some geom) :
    ∃ m' kept final, Revalidation env (m.asking newPoint.requestId env geom) list m' kept ∧
      Descent env m' kept ((update env newPoint).run m) final := by
  let requested : Machine γ :=
    { m with stack := { m.stack with requestId := newPoint.requestId } }
  have held : (requested.cleared.placed geom).stack.Holds list := holds
  have isPoint : (requested.cleared.placed geom).stack.point = some ⟨m.calls, geom⟩ := rfl
  rw [update_made newPoint m made]
  exact updateStack_runs env held isPoint

theorem update_refused (newPoint : Point) (m : Machine γ)
    (unmade : env.geometryOf newPoint.location = none) :
    (update env newPoint).run m = .error (.error newPoint.location.failure)
      ({ m with stack := { m.stack with requestId := newPoint.requestId } } :
        Machine γ).cleared := by
  rw [update_eq, unmade]
  simp only [updateTo, EStateM.run_bind, clearPoint_cleared]
  rfl

/-- Where GEOS makes no geometry, `update` says so whatever the slots hold. -/
theorem update_unmade (newPoint : Point) (m : Machine γ)
    (unmade : env.geometryOf newPoint.location = none) :
    ∃ m', (update env newPoint).run m = .error (.error newPoint.location.failure) m' :=
  ⟨_, update_refused newPoint m unmade⟩

/-- An update whose geometry can be made leaves its own request behind. -/
theorem update_request (newPoint : Point) {m : Machine γ} {list : List (Watershed γ)}
    (holds : m.stack.Holds list) {geom : γ}
    (made : env.geometryOf newPoint.location = some geom) :
    ∃ addr, SameRequest (m.stack.asking newPoint.requestId env ⟨addr, geom⟩)
      (endState ((update env newPoint).run m)).stack := by
  rcases update_run env newPoint m holds with
    ⟨_, unmade, _⟩ | ⟨geom', addr, m', m'', kept, final, made', stack, climb, run⟩
  · rw [made] at unmade
    cases unmade
  · obtain rfl : geom = geom' := Option.some.inj (made.symm.trans made')
    obtain ⟨keptHeld, _, same⟩ := climb.holds (by rw [stack]; exact holds)
    exact ⟨addr, stack ▸ same.trans (run.holds keptHeld).2.2⟩

/-- One update leaves a list in the slots, whatever it returns. -/
theorem update_holds (newPoint : Point) (m : Machine γ) {list : List (Watershed γ)}
    (holds : m.stack.Holds list) :
    ∃ final, (endState ((update env newPoint).run m)).stack.Holds final ∧
      (endState ((update env newPoint).run m)).stack.skipHuc14and16 = m.stack.skipHuc14and16 := by
  rcases update_run env newPoint m holds with
    ⟨m', _, runs, stack⟩ | ⟨geom, addr, m', m'', kept, final, _, stack, climb, run⟩
  · rw [runs, endState_error, stack]
    exact ⟨list, holds, rfl⟩
  · obtain ⟨keptHeld, _, same⟩ := climb.holds (by rw [stack]; exact holds)
    obtain ⟨finalHeld, _, same'⟩ := run.holds keptHeld
    refine ⟨final, finalHeld, ?_⟩
    rw [same'.2.2.2, same.2.2.2, stack]
    rfl

theorem update_depth (newPoint : Point) {m : Machine γ} {list : List (Watershed γ)}
    (holds : m.stack.Holds list) :
    (endState ((update env newPoint).run m)).stack.depth = m.stack.depth := by
  have kept : (endState ((update env newPoint).run m)).stack.skipHuc14and16 =
      m.stack.skipHuc14and16 :=
    (update_holds newPoint m holds).choose_spec.2
  simp only [WatershedStack.depth, kept]

/-- The machine after a history of updates on a fresh stack. -/
def after (env : Externals γ) (skipHuc14and16 : Bool) (history : List Point) : Machine γ :=
  runAll (update env) history { stack := .init skipHuc14and16 }

@[simp] theorem after_nil (skip : Bool) : after env skip [] = { stack := .init skip } := rfl

theorem after_concat (skip : Bool) (history : List Point) (newPoint : Point) :
    after env skip (history ++ [newPoint]) =
      endState ((update env newPoint).run (after env skip history)) :=
  runAll_concat _ history newPoint _

/-- What a fresh machine has and every update keeps, every history keeps. -/
theorem after_invariant {Inv : Machine γ → Prop} (skip : Bool)
    (start : Inv { stack := .init skip })
    (step : ∀ newPoint m, Inv m → Inv (endState ((update env newPoint).run m)))
    (history : List Point) : Inv (after env skip history) :=
  runAll_invariant (fun newPoint m inv => ends_of_endState (step newPoint m inv)) history start

attribute [irreducible] after

variable (env) in
theorem after_holds (skip : Bool) (history : List Point) :
    ∃ list, (after env skip history).stack.Holds list ∧
      (after env skip history).stack.skipHuc14and16 = skip := by
  let Inv : Machine γ → Prop := fun m => ∃ list, m.stack.Holds list ∧
    m.stack.skipHuc14and16 = skip
  suffices kept : ∀ newPoint m, Inv m → Inv (endState ((update env newPoint).run m)) from
    after_invariant skip ⟨[], WatershedStack.init_holds skip, rfl⟩ kept history
  rintro newPoint m ⟨list, holds, skipped⟩
  obtain ⟨final, held, same⟩ := update_holds newPoint m holds
  exact ⟨final, held, same.trans skipped⟩

variable (env) in
theorem after_skip (skip : Bool) (history : List Point) :
    (after env skip history).stack.skipHuc14and16 = skip :=
  (after_holds env skip history).choose_spec.2

end WatershedOracle
