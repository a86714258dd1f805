import WatershedOracle.SearchPaths

set_option autoImplicit false

/-! What the slots say about the current point: they cover it, and they are those of a
fresh lookup. -/

namespace WatershedOracle

open Effect

variable {γ : Type} {env : Externals γ}

/-- What an update returned, without the state it left. -/
def returned {σ : Type} : EStateM.Result Fault σ Unit → Except Fault Unit
  | .ok _ _ => .ok ()
  | .error fault _ => .error fault

/-- Two clean updates return the same when both succeed or neither does. -/
theorem Clean.returned_eq {σ : Type} {first second : EStateM.Result Fault σ Unit}
    (one : Clean first) (two : Clean second) (alike : Succeeds first ↔ Succeeds second) :
    returned first = returned second := by
  cases one <;> cases two <;> simp [returned] at alike ⊢

theorem Clean.returned_ok_iff {σ : Type} {result : EStateM.Result Fault σ Unit}
    (clean : Clean result) : returned result = .ok () ↔ Succeeds result := by
  cases clean <;> simp [returned]

theorem Clean.returned_error_iff {σ : Type} {result : EStateM.Result Fault σ Unit}
    (clean : Clean result) :
    returned result = .error (.error .pointNotInDataset) ↔ ¬ Succeeds result := by
  cases clean <;> simp [returned]

/-! ### Every reported region covers the point -/

/-- Every occupied slot covers the current point. -/
def WatershedStack.Covering (stack : WatershedStack γ) (env : Externals γ) : Prop :=
  ∀ point, stack.point = some point → ∀ level w, stack.slot level = some w →
    ∀ now, env.covers now w.geom.geom point.geom = 1

section Covering

variable {listed : Level → Row → Prop}

/-- Every region of the list covers the point. -/
def AllCover (env : Externals γ) (point : γ) (list : List (Watershed γ)) : Prop :=
  ∀ w ∈ list, env.covers 0 w.geom.geom point = 1

theorem Revalidation.head_covers (steady : env.Steady) {m m' : Machine γ}
    {list kept : List (Watershed γ)} (climb : Revalidation env m list m' kept)
    {point : GeomPtr γ} (at_ : m.stack.point = some point) :
    ∀ w ∈ kept.head?, env.covers 0 w.geom.geom point.geom = 1 := by
  induction climb with
  | empty => simp
  | vacant finer up ih => exact ih (by simpa using at_)
  | @covered m w rest point' at' covers =>
    obtain rfl : point' = point := Option.some.inj (at'.symm.trans at_)
    intro other isHead
    obtain rfl : w = other := by simpa using isHead
    exact (steady _ _ _).symm.trans covers
  | uncovered isTop at' apart up ih => exact ih (by simpa using at_)

/-- Only the finest kept region was tested; nesting covers the others. -/
theorem Revalidation.allCover (steady : env.Steady) (nested : (regions env listed).Nested)
    {m m' : Machine γ} {list kept : List (Watershed γ)}
    (climb : Revalidation env m list m' kept) {point : GeomPtr γ}
    (at_ : m.stack.point = some point)
    (linked : (regions env listed).Linked (kept.map Watershed.region)) :
    AllCover env point.geom kept := by
  have head := climb.head_covers steady at_
  have finest : ∀ r ∈ (kept.map Watershed.region).head?,
      (regions env listed).covers r point.geom := by
    intro r isHead
    rw [List.head?_map] at isHead
    obtain ⟨w, isTop, rfl⟩ := Option.mem_map.mp isHead
    exact head w isTop
  intro w member
  exact linked.covers_all nested finest w.region (List.mem_map_of_mem member)

theorem search_covers {hucLevel tableName : String} {likePattern : Bytes} {m m' : Machine γ}
    {w : Watershed γ} (steady : env.Steady)
    (searched : (search env hucLevel tableName likePattern).run m = .ok w m')
    {point : GeomPtr γ} (at_ : m.stack.point = some point) :
    env.covers 0 w.geom.geom point.geom = 1 := by
  obtain ⟨_, _, row, _, _, _, _, judged, _⟩ := (search_ends env _ _ _ m).returned searched
  obtain ⟨_, _, now, point', at', covers⟩ := inspected_inside judged
  obtain rfl : point' = point := Option.some.inj (at'.symm.trans at_)
  exact (steady _ _ _).symm.trans covers

/-- A descent adds only regions that cover the point, also when it fails half way. -/
theorem Descent.allCover (steady : env.Steady) {m : Machine γ} {list final : List (Watershed γ)}
    {result : EStateM.Result Fault (Machine γ) Unit} (run : Descent env m list result final)
    {point : GeomPtr γ} (at_ : m.stack.point = some point)
    (covered : AllCover env point.geom list) : AllCover env point.geom final := by
  induction run with
  | full => exact covered
  | failed => exact covered
  | optional => exact covered
  | found next room searched rest ih =>
    have same := stored_sameRequest searched
    have newest := search_covers steady searched at_
    exact ih (same.1.trans at_) (List.forall_mem_cons.mpr ⟨newest, covered⟩)

/-- A linked list of regions in the slots, all of which cover the current point. -/
def Covered (env : Externals γ) (listed : Level → Row → Prop) (m : Machine γ) : Prop :=
  ∃ list, Stacked env listed m.stack list ∧
    ∀ point, m.stack.point = some point → AllCover env point.geom list

theorem update_covered (serves : Serves env listed) (steady : env.Steady)
    (nested : (regions env listed).Nested) (newPoint : Point) (m : Machine γ)
    (covered : Covered env listed m) :
    Covered env listed (endState ((update env newPoint).run m)) := by
  obtain ⟨list, stacked, _⟩ := covered
  rcases update_run env newPoint m stacked.1 with
    ⟨m', _, runs, stack⟩ | ⟨geom, addr, m', m'', kept, final, _, stack, climb, run⟩
  · rw [runs, endState_error]
    refine ⟨list, by rw [stack]; exact stacked, ?_⟩
    rw [stack]
    simp
  · have at_ : m'.stack.point = some ⟨addr, geom⟩ := by rw [stack]; rfl
    obtain ⟨keptHeld, suffix, same⟩ := climb.holds (by rw [stack]; exact stacked.1)
    have linked := stacked.2.suffix (suffix.map Watershed.region)
    obtain ⟨finalHeld, _, same'⟩ := run.holds keptHeld
    have at'' : m''.stack.point = some ⟨addr, geom⟩ := same.1.trans at_
    refine ⟨final, ⟨finalHeld, run.linked serves linked⟩, fun point isAt => ?_⟩
    obtain rfl : (⟨addr, geom⟩ : GeomPtr γ) = point :=
      Option.some.inj ((same'.1.trans at'').symm.trans isAt)
    exact run.allCover steady at'' (climb.allCover steady nested at_ linked)

theorem covered_init (skip : Bool) : Covered env listed ({ stack := .init skip } : Machine γ) :=
  ⟨[], ⟨WatershedStack.init_holds skip, .nil⟩, by simp [WatershedStack.init]⟩

theorem after_covered (serves : Serves env listed) (steady : env.Steady)
    (nested : (regions env listed).Nested) (skip : Bool) (history : List Point) :
    Covered env listed (after env skip history) :=
  after_invariant skip (covered_init skip)
    (fun newPoint m => update_covered serves steady nested newPoint m) history

/-- After any history, however its updates ended, no slot holds a region that does not
cover the point under which the stack stands. As `Serves.code` says, a row that SQLite
returns at a level with `k` digits has a code of `k` digits. -/
theorem after_covering (serves : Serves env listed) (steady : env.Steady)
    (nested : (regions env listed).Nested) (skip : Bool) (history : List Point) :
    (after env skip history).stack.Covering env := by
  obtain ⟨list, stacked, covered⟩ := after_covered serves steady nested skip history
  intro point at_ level w occupied now
  rw [steady]
  apply covered point at_
  rw [stacked.1.slot] at occupied
  exact List.mem_reverse.mp (List.mem_of_getElem? occupied)

end Covering

theorem after_covering_squares :
    (after (squareWorld 7) false strayHistory).stack.Covering (squareWorld 7) :=
  after_covering (serve_hosts (squares 7) boxes).serves (serve_steady _ _) (squares_nested 7)
    false strayHistory

/-! ### The cache is a fresh lookup -/

section Fresh

variable {d : Dataset}

theorem WatershedStack.Holds.slot_region {stack : WatershedStack γ} {list : List (Watershed γ)}
    (holds : stack.Holds list) (level : Level) :
    (stack.slot level).map Watershed.region =
      (list.map Watershed.region).reverse[level.index]? := by
  rw [holds.slot, ← List.map_reverse, List.getElem?_map]

theorem coveredAt_iff (point : γ) (r : Region γ) :
    coveredAt env point r = true ↔ (regions env d.listed).covers r point :=
  beq_iff_eq

/-- The cached update and a fresh one leave the same regions and return the same, where
neither fails: the fresh one searches levels that the cache spares the other, and may fail
in a call or over a row that only it comes to. -/
theorem update_eq_fresh (hosts : Hosts env d) (steady : env.Steady) (boxed : Boxed env d)
    (nested : (regions env d.listed).Nested) (skip : Bool) (history : List Point)
    (newPoint : Point) (fresh : Machine γ) (isFresh : fresh.stack = .init skip)
    (unique : ∀ geom, env.geometryOf newPoint.location = some geom →
      (regions env d.listed).UniqueAt geom)
    (clean : Clean ((update env newPoint).run (after env skip history)))
    (freshClean : Clean ((update env newPoint).run fresh)) :
    (∀ level, ((endState ((update env newPoint).run (after env skip history))).stack.slot
        level).map Watershed.region =
      ((endState ((update env newPoint).run fresh)).stack.slot level).map Watershed.region) ∧
    returned ((update env newPoint).run (after env skip history)) =
      returned ((update env newPoint).run fresh) := by
  obtain ⟨list, stacked⟩ := after_stacked hosts.serves skip history
  have empty : fresh.stack.Holds [] := by
    rw [isFresh]
    exact WatershedStack.init_holds skip
  obtain ⟨geom, final, made, finalHolds, reached, succeeds⟩ :=
    update_refines hosts.order steady newPoint stacked.1 clean
  obtain ⟨geom', final', made', finalHolds', reached', succeeds'⟩ :=
    update_refines hosts.order steady newPoint empty freshClean
  obtain rfl : geom = geom' := Option.some.inj (made.symm.trans made')
  have depth : fresh.stack.depth = (after env skip history).stack.depth := by
    simp only [WatershedStack.depth, isFresh, after_skip, WatershedStack.init]
  have same : final.map Watershed.region = final'.map Watershed.region := by
    rw [reached, reached', depth]
    exact Tower.lookup_eq_fresh nested (firstHit_finds hosts boxed geom) (unique geom made)
      (coveredAt_iff geom) stacked.2 (by rw [List.length_map]; exact stacked.1.1)
  have length : final.length = final'.length := by simpa using congrArg List.length same
  refine ⟨fun level => ?_, ?_⟩
  · rw [finalHolds.slot_region, finalHolds'.slot_region, same]
  · rw [length, ← depth, ← succeeds'] at succeeds
    exact clean.returned_eq freshClean succeeds

end Fresh

/-- The update of the center of the squares is clean on every reachable stack. -/
theorem squares_clean (deepest : Nat) (requestId : Int) (skip : Bool) (history : List Point) :
    Clean ((update (squareWorld deepest) (centerPoint requestId)).run
      (after (squareWorld deepest) skip history)) := by
  have hosts := serve_hosts (squares deepest) boxes
  obtain ⟨list, stacked⟩ := after_stacked hosts.serves skip history
  exact update_clean hosts (serve_steady _ _) (serve_faultless _ _) (squares_readable deepest) _
    stacked (centerPoint_made deepest requestId)

theorem update_eq_fresh_squares :
    (∀ level, ((endState ((update (squareWorld 8) (centerPoint 4)).run
        (after (squareWorld 8) false strayHistory))).stack.slot level).map Watershed.region =
      ((endState ((update (squareWorld 8) (centerPoint 4)).run
        (after (squareWorld 8) false []))).stack.slot level).map Watershed.region) ∧
    returned ((update (squareWorld 8) (centerPoint 4)).run
        (after (squareWorld 8) false strayHistory)) =
      returned ((update (squareWorld 8) (centerPoint 4)).run (after (squareWorld 8) false [])) :=
  update_eq_fresh (serve_hosts (squares 8) boxes) (serve_steady _ _) (squares_boxed 8)
    (squares_nested 8) false strayHistory (centerPoint 4) (after (squareWorld 8) false [])
    (by rw [after_nil])
    (fun point _ => squares_unique 8 point) (squares_clean 8 4 false strayHistory)
    (squares_clean 8 4 false [])

end WatershedOracle
