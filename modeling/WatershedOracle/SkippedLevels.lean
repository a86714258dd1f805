import Mathlib.Data.List.Induction
import WatershedOracle.UpdateEffect

set_option autoImplicit false

/-! Two runs of the same updates, one of which skips levels 14 and 16. They check
from different levels, and the slots down to huc12 stay the same. -/

namespace WatershedOracle

open Effect

variable {γ : Type} {env : Externals γ} {listed : Level → Row → Prop}

/-- In no update of the run does a safety check trip, SQLite or the allocator fail. -/
def Undisturbed (env : Externals γ) (skip : Bool) (history : List Point) : Prop :=
  ∀ before newPoint rest, history = before ++ newPoint :: rest →
    Unfailing ((update env newPoint).run (after env skip before))

theorem Undisturbed.init {skip : Bool} {history : List Point} {newPoint : Point}
    (undisturbed : Undisturbed env skip (history ++ [newPoint])) :
    Undisturbed env skip history := by
  intro before point rest split
  apply undisturbed before point (rest ++ [newPoint])
  simp [split]

theorem Undisturbed.last {skip : Bool} {history : List Point} {newPoint : Point}
    (undisturbed : Undisturbed env skip (history ++ [newPoint])) :
    Unfailing ((update env newPoint).run (after env skip history)) :=
  undisturbed history newPoint [] rfl

/-- The slots of the first hold what those of the second hold down to level 12. -/
def AgreeTo12 (env : Externals γ) (listed : Level → Row → Prop)
    (skipping full : WatershedStack γ) : Prop :=
  ∃ list list', Stacked env listed skipping list ∧ Stacked env listed full list' ∧
    list.map Watershed.region = Tower.coarsest 6 (list'.map Watershed.region)

theorem AgreeTo12.slot {skipping full : WatershedStack γ}
    (agree : AgreeTo12 env listed skipping full) {level : Level} (shallow : level.index < 6) :
    (skipping.slot level).map Watershed.region = (full.slot level).map Watershed.region := by
  obtain ⟨list, list', stacked, stacked', same⟩ := agree
  rw [stacked.1.slot_region, stacked'.1.slot_region, same, Tower.reverse_coarsest,
    List.getElem?_take_of_lt shallow]

/-- An update without a geometry leaves the slots to a new request. -/
theorem AgreeTo12.slots {skipping full skipping' full' : WatershedStack γ}
    (agree : AgreeTo12 env listed skipping full)
    (first : ∀ list, skipping.Holds list → skipping'.Holds list)
    (second : ∀ list, full.Holds list → full'.Holds list) :
    AgreeTo12 env listed skipping' full' := by
  obtain ⟨list, list', stacked, stacked', same⟩ := agree
  exact ⟨list, list', ⟨first list stacked.1, stacked.2⟩, ⟨second list' stacked'.1, stacked'.2⟩,
    same⟩

/-- What an update without failures leaves, read as a lookup of its own depth. -/
theorem update_lookup (serves : Serves env listed) (ordered : env.Ordered) (steady : env.Steady)
    (newPoint : Point) {m : Machine γ} {list : List (Watershed γ)}
    (stacked : Stacked env listed m.stack list) {geom : γ}
    (made : env.geometryOf newPoint.location = some geom)
    (unfailing : Unfailing ((update env newPoint).run m)) :
    ∃ final, Stacked env listed (endState ((update env newPoint).run m)).stack final ∧
      final.map Watershed.region = Tower.lookup (coveredAt env geom) (firstHit env geom)
        m.stack.depth (list.map Watershed.region) := by
  obtain ⟨m', kept, _, climb, run⟩ := update_climbs newPoint stacked.1 made
  have clean := run.clean_of_unfailing unfailing
  obtain ⟨geom', final, made', holds, reached, _⟩ :=
    update_refines ordered steady newPoint stacked.1 clean
  obtain rfl : geom = geom' := Option.some.inj (made.symm.trans made')
  obtain ⟨final', stacked'⟩ := update_stacked serves newPoint m stacked
  obtain rfl : final = final' := holds.unique stacked'.1
  exact ⟨final, stacked', reached⟩

/-- One update keeps the agreement: the levels that both runs search are found alike,
and a full run that stopped deeper rests on regions that cover the point as well. -/
theorem update_agrees (serves : Serves env listed) (ordered : env.Ordered) (steady : env.Steady)
    (nested : (regions env listed).Nested) (newPoint : Point) {m m' : Machine γ}
    (skipping : m.stack.depth = 6) (full : m'.stack.depth = 8)
    (agree : AgreeTo12 env listed m.stack m'.stack)
    (unfailing : Unfailing ((update env newPoint).run m))
    (unfailing' : Unfailing ((update env newPoint).run m')) :
    AgreeTo12 env listed (endState ((update env newPoint).run m)).stack
      (endState ((update env newPoint).run m')).stack := by
  cases made : env.geometryOf newPoint.location with
  | none =>
    rw [update_refused newPoint m made, update_refused newPoint m' made]
    exact agree.slots (fun _ holds => holds) fun _ holds => holds
  | some geom =>
    obtain ⟨list, list', stacked, stacked', same⟩ := agree
    obtain ⟨final, reached, lookup⟩ :=
      update_lookup serves ordered steady newPoint stacked made unfailing
    obtain ⟨final', reached', lookup'⟩ :=
      update_lookup serves ordered steady newPoint stacked' made unfailing'
    have decides : ∀ r, coveredAt env geom r = true ↔ (regions env listed).covers r geom :=
      fun r => beq_iff_eq
    refine ⟨final, final', reached, reached', ?_⟩
    rw [lookup, lookup', skipping, full, same]
    exact Tower.lookup_coarsest nested decides (firstHit env geom) 6 2 stacked'.2

/-- After any history in which no safety check trips and neither SQLite nor the allocator
fails, the slots huc2 to huc12 are the same whether levels 14 and 16 are skipped or not. As
`Serves.code` says, a row that SQLite returns at a level with `k` digits has a code of `k`
digits. -/
theorem after_skip_agrees (serves : Serves env listed) (ordered : env.Ordered)
    (steady : env.Steady) (nested : (regions env listed).Nested) (history : List Point)
    (skipping : Undisturbed env true history) (full : Undisturbed env false history) :
    ∀ level : Level, level.index < 6 →
      ((after env true history).stack.slot level).map Watershed.region =
        ((after env false history).stack.slot level).map Watershed.region := by
  suffices agree : AgreeTo12 env listed (after env true history).stack
      (after env false history).stack from fun level shallow => agree.slot shallow
  induction history using List.reverseRecOn with
  | nil =>
    rw [after_nil, after_nil]
    exact ⟨[], [], ⟨WatershedStack.init_holds true, .nil⟩,
      ⟨WatershedStack.init_holds false, .nil⟩, rfl⟩
  | append_singleton history newPoint ih =>
    rw [after_concat, after_concat]
    exact update_agrees serves ordered steady nested newPoint
      (WatershedStack.depth_of_skip (after_skip env true history))
      (WatershedStack.depth_of_not_skip (after_skip env false history))
      (ih skipping.init full.init) skipping.last full.last

/-- The squares disturb no run. -/
theorem squares_undisturbed (deepest : Nat) (skip : Bool) (history : List Point) :
    Undisturbed (squareWorld deepest) skip history := by
  intro before newPoint rest _
  have hosts := serve_hosts (squares deepest) boxes
  obtain ⟨list, stacked⟩ := after_stacked hosts.serves skip before
  rcases update_clean_or_unmade hosts (serve_steady _ _) (serve_faultless _ _)
    (squares_readable deepest) newPoint stacked with clean | unmade
  · exact clean.unfailing
  · rw [update_refused newPoint _ unmade]
    intro fault s isError
    cases isError
    cases newPoint.location <;> simp [PointLocation.failure]

theorem after_skip_agrees_squares :
    ((after (squareWorld 8) true strayHistory).stack.slot .huc12).map Watershed.region =
      ((after (squareWorld 8) false strayHistory).stack.slot .huc12).map Watershed.region :=
  after_skip_agrees (serve_hosts (squares 8) boxes).serves (serve_hosts (squares 8) boxes).order
    (serve_steady _ _) (squares_nested 8) strayHistory (squares_undisturbed 8 true strayHistory)
    (squares_undisturbed 8 false strayHistory) .huc12 (by decide)

end WatershedOracle
