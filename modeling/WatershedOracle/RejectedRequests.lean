import WatershedOracle.Session
import WatershedOracle.UpdateEffect

set_option autoImplicit false

/-! A request whose geometry cannot be built. `update` has stored its requestId by
then, has cleared the point, and leaves every slot as it was. -/

namespace WatershedOracle

open Effect

variable {γ : Type} {env : Externals γ}

/-- Only a request without a geometry is rejected. -/
theorem update_rejects {newPoint : Point} {m m' : Machine γ} {list : List (Watershed γ)}
    (holds : m.stack.Holds list) {e : ZigError}
    (rejected : (update env newPoint).run m = .error (.error e) m')
    (isRejection : e = .updateWKT ∨ e = .updateXY) : env.geometryOf newPoint.location = none := by
  rcases update_run env newPoint m holds with
    ⟨_, unmade, _⟩ | ⟨geom, addr, n, n', kept, final, made, stack, climb, run⟩
  · exact unmade
  · have fault := run.faults rejected
    rcases isRejection with rfl | rfl <;> cases fault

/-- The stack is as before or holds no watershed; no watershed of an earlier point
stands under the new requestId, and none is printed. -/
structure RejectedCleanly (env : Externals γ) (before after : WatershedStack γ)
    (newPoint : Point) : Prop where
  either : after = before ∨ after.valid = false
  own : ¬ (after.requestId = newPoint.requestId ∧ after.valid = true)
  printed : ∀ level : Level, level.hucLevel ∉ (document env after).map Prod.fst

theorem document_empty {stack : WatershedStack γ} (empty : stack.valid = false) (level : Level) :
    level.hucLevel ∉ (document env stack).map Prod.fst := by
  intro member
  obtain ⟨⟨key, node⟩, inside, same⟩ := List.mem_map.mp member
  obtain rfl : key = level.hucLevel := same
  obtain ⟨w, occupied, _⟩ := slot_of_mem_document inside
  have valid := WatershedStack.valid_iff_slot.mpr ⟨level, by rw [occupied]; rfl⟩
  rw [empty] at valid
  cases valid

/-- A rejected request leaves no mixed state exactly when nothing was cached before it. -/
theorem rejectedCleanly_iff (skip : Bool) (history : List Point) (newPoint : Point) (e : ZigError)
    (m' : Machine γ)
    (rejected : (update env newPoint).run (after env skip history) = .error (.error e) m')
    (isRejection : e = .updateWKT ∨ e = .updateXY) :
    RejectedCleanly env (after env skip history).stack m'.stack newPoint ↔
      (after env skip history).stack.valid = false := by
  obtain ⟨list, holds, _⟩ := after_holds env skip history
  have unmade := update_rejects holds rejected isRejection
  rw [update_refused newPoint _ unmade] at rejected
  cases rejected
  have slots : ∀ stack : WatershedStack γ, ({ stack with
      requestId := newPoint.requestId, point := none, pointBounds := .unset } :
        WatershedStack γ).valid = stack.valid := fun _ => rfl
  constructor
  · intro cleanly
    rw [← Bool.not_eq_true]
    intro valid
    exact cleanly.own ⟨rfl, (slots _).trans valid⟩
  · intro empty
    have none_ := (slots _).trans empty
    refine ⟨.inr none_, fun ⟨_, valid⟩ => ?_, document_empty none_⟩
    cases none_.symm.trans valid

/-- The center of the squares, then a point outside. -/
def leavingHistory : List Point := [centerPoint 1, ⟨2, .xy (.finite 3) (.finite 1)⟩]

theorem leavingHistory_left : (after (squareWorld 8) false leavingHistory).stack.valid = false := by
  have history : after (squareWorld 8) false leavingHistory =
      runAll (update (squareWorld 8)) leavingHistory { stack := .init false } := by
    rw [show leavingHistory = [] ++ [centerPoint 1] ++ [⟨2, .xy (.finite 3) (.finite 1)⟩] from rfl,
      after_concat, after_concat, after_nil]
    rfl
  rw [history]
  decide +kernel

theorem rejectedCleanly_iff_squares :
    RejectedCleanly (squareWorld 8) (after (squareWorld 8) false leavingHistory).stack
        (endState ((update (squareWorld 8) ⟨3, .wkt [66, 65, 68]⟩).run
          (after (squareWorld 8) false leavingHistory))).stack ⟨3, .wkt [66, 65, 68]⟩ ∧
      (after (squareWorld 8) false leavingHistory).stack.valid = false :=
  ⟨(rejectedCleanly_iff false leavingHistory ⟨3, .wkt [66, 65, 68]⟩ .updateWKT _
    (by rw [update_refused _ _ rfl]; rfl) (.inl rfl)).mpr leavingHistory_left,
    leavingHistory_left⟩

/-- After the center of the squares, a request that is no WKT: its requestId stands
over the eight watersheds of the center, and they are printed. -/
theorem rejectedCleanly_fails :
    ¬ RejectedCleanly (squareWorld 8) (after (squareWorld 8) false [centerPoint 1]).stack
        (endState ((update (squareWorld 8) ⟨2, .wkt [66, 65, 68]⟩).run
          (after (squareWorld 8) false [centerPoint 1]))).stack ⟨2, .wkt [66, 65, 68]⟩ := by
  intro cleanly
  have history : after (squareWorld 8) false [centerPoint 1] =
      endState ((update (squareWorld 8) (centerPoint 1)).run { stack := .init false }) := by
    rw [show [centerPoint 1] = [] ++ [centerPoint 1] from rfl, after_concat, after_nil]
  have own := cleanly.own
  rw [history] at own
  revert own
  decide +kernel

end WatershedOracle
