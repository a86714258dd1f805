import WatershedOracle.Coverage

set_option autoImplicit false

/-! Levels 14 and 16. A missing HUC14 is no error; a missing HUC16 below a HUC14 is. -/

namespace WatershedOracle

open Effect

variable {γ : Type} {env : Externals γ}

/-- The update fails exactly when one of the six required levels is missing. -/
structure LevelsOptional (result : EStateM.Result Fault (Machine γ) Unit) : Prop where
  fails : returned result = .error (.error .pointNotInDataset) ↔
    ∃ level : Level, level.index < 6 ∧ (endState result).stack.slot level = none
  succeeds : returned result = .ok () ↔
    ∀ level : Level, level.index < 6 → (endState result).stack.slot level ≠ none

/-- The tables lead the point into a HUC14 and give it no HUC16 there. -/
def StopsAt14 (env : Externals γ) (point : γ) (cached : List (Region γ)) : Prop :=
  ∃ stack, Leads env point cached stack ∧ stack.length = 7 ∧ firstHit env point stack = none

/-- Where the tables lead to a HUC14 without a HUC16, a lookup ends with seven regions. -/
theorem stopsAt14_iff {point : γ} {cached : List (Region γ)} (fits : cached.length ≤ 8) :
    StopsAt14 env point cached ↔
      (Tower.lookup (coveredAt env point) (firstHit env point) 8 cached).length = 7 := by
  have short := (Tower.revalidate_suffix (coveredAt env point) cached).length_le
  constructor
  · rintro ⟨stack, leads, seven, absent⟩
    obtain ⟨room, length, reached⟩ := leads.eq_descend
    have left : 8 - (Tower.revalidate (coveredAt env point) cached).length = room + 1 := by omega
    rw [Tower.lookup, left, Tower.descend_add, ← reached, Tower.descend_of_none _ absent, seven]
  · intro seven
    refine ⟨_, Leads.kept.descend _, seven, Tower.descend_stuck _ _ _ ?_⟩
    rw [Tower.lookup] at seven
    omega

theorem WatershedStack.Holds.missing_iff {stack : WatershedStack γ} {list : List (Watershed γ)}
    (holds : stack.Holds list) :
    (∃ level : Level, level.index < 6 ∧ stack.slot level = none) ↔ list.length < 6 := by
  constructor
  · rintro ⟨level, shallow, missing⟩
    rw [holds.slot, List.getElem?_eq_none_iff, List.length_reverse] at missing
    omega
  · intro short
    exact ⟨.huc12, by decide, holds.vacant (Nat.le_of_lt_succ short)⟩

/-- A clean update takes the last two levels as optional exactly when the tables do not
lead its point into a HUC14 with no HUC16 around it. -/
theorem Clean.optional_iff (ordered : env.Ordered) (steady : env.Steady) (newPoint : Point)
    {m : Machine γ} {list : List (Watershed γ)} (holds : m.stack.Holds list)
    (depth : m.stack.depth = 8) {geom : γ}
    (made : env.geometryOf newPoint.location = some geom)
    (clean : Clean ((update env newPoint).run m)) :
    LevelsOptional ((update env newPoint).run m) ↔
      ¬ StopsAt14 env geom (list.map Watershed.region) := by
  obtain ⟨geom', final, made', finalHolds, reached, succeeds⟩ :=
    update_refines ordered steady newPoint holds clean
  obtain rfl : geom = geom' := Option.some.inj (made.symm.trans made')
  rw [depth] at reached succeeds
  have fits : (list.map Watershed.region).length ≤ 8 := by
    rw [List.length_map, ← depth]
    exact holds.1
  have bound : final.length ≤ 8 := Nat.le_trans finalHolds.1 (WatershedStack.depth_le _)
  have stops : StopsAt14 env geom (list.map Watershed.region) ↔ final.length = 7 := by
    rw [stopsAt14_iff fits, ← reached, List.length_map]
  have missing := finalHolds.missing_iff
  have complete : (∀ level : Level, level.index < 6 →
      (endState ((update env newPoint).run m)).stack.slot level ≠ none) ↔
      ¬ final.length < 6 := by
    rw [← missing]
    simp only [not_exists, not_and, ne_eq]
  have success := clean.returned_ok_iff
  have failure := clean.returned_error_iff
  rw [stops]
  constructor
  · intro optional seven
    have absent := optional.fails.mp (failure.mpr (by rw [succeeds]; omega))
    exact absurd (missing.mp absent) (by omega)
  · intro notSeven
    refine ⟨?_, ?_⟩
    · rw [failure, succeeds, missing]
      omega
    · rw [success, succeeds, complete]
      omega

/-- A tripped check is neither of the two results. -/
theorem LevelsOptional.calm {result : EStateM.Result Fault (Machine γ) Unit}
    (optional : LevelsOptional result) (check : SafetyCheck) (s : Machine γ) :
    result ≠ .error (.panic check) s := by
  rintro rfl
  have complete : ¬ ∃ level : Level, level.index < 6 ∧ s.stack.slot level = none := fun missing =>
    nomatch optional.fails.mpr missing
  have present : ∀ level : Level, level.index < 6 → s.stack.slot level ≠ none :=
    fun level shallow missing => complete ⟨level, shallow, missing⟩
  exact nomatch optional.succeeds.mpr present

/-- An update that neither SQLite nor the allocator ends takes the last two levels as
optional exactly when every row that its searches come to is harmless and the tables do
not lead its point into a HUC14 with no HUC16 around it. -/
theorem levelsOptional_iff (ordered : env.Ordered) (steady : env.Steady) (history : List Point)
    (newPoint : Point) (geom : γ) (made : env.geometryOf newPoint.location = some geom)
    (unrefused : Unrefused ((update env newPoint).run (after env false history))) :
    LevelsOptional ((update env newPoint).run (after env false history)) ↔
      HarmlessPath env 8 geom ((after env false history).stack.cached.map Watershed.region) ∧
        ¬ StopsAt14 env geom ((after env false history).stack.cached.map Watershed.region) := by
  obtain ⟨list, holds, skip⟩ := after_holds env false history
  have depth := WatershedStack.depth_of_not_skip skip
  have cleanly := update_clean_iff ordered steady newPoint holds made unrefused
  rw [depth] at cleanly
  rw [holds.cached_eq, ← cleanly]
  constructor
  · intro optional
    have clean := unrefused.clean newPoint holds made optional.calm
    exact ⟨clean, (clean.optional_iff ordered steady newPoint holds depth made).mp optional⟩
  · rintro ⟨clean, goesOn⟩
    exact (clean.optional_iff ordered steady newPoint holds depth made).mpr goesOn

/-- A request inside a HUC14 of a dataset that has no HUC16: six required levels are
found, and the update reports that the point is outside the dataset. -/
theorem levelsOptional_fails :
    ¬ LevelsOptional ((update (squareWorld 7) (centerPoint 1)).run
      (after (squareWorld 7) false [])) := by
  intro optional
  rw [after_nil] at optional
  have result : returned ((update (squareWorld 7) (centerPoint 1)).run { stack := .init false }) =
      .error (.error .pointNotInDataset) := by decide +kernel
  have occupied : ∀ level ∈ Level.all.take 7, ((endState ((update (squareWorld 7)
      (centerPoint 1)).run { stack := .init false })).stack.slot level).isSome = true := by
    decide +kernel
  obtain ⟨level, shallow, missing⟩ := optional.fails.mp result
  have present := occupied level (by cases level <;> simp [Level.all, Level.index] at shallow ⊢)
  simp [missing] at present

/-- The squares reach down to level 16, under any cached regions. -/
theorem squares_goesOn (history : List Point) :
    ¬ StopsAt14 (squareWorld 8) center
      ((after (squareWorld 8) false history).stack.cached.map Watershed.region) := by
  have hosts := serve_hosts (squares 8) boxes
  obtain ⟨list, stacked⟩ := after_stacked hosts.serves false history
  have depth := WatershedStack.depth_of_not_skip (after_skip (squareWorld 8) false history)
  have fits : (list.map Watershed.region).length ≤ 8 := by
    rw [List.length_map, ← depth]
    exact stacked.1.1
  have whole := Tower.lookup_complete (squares_nested 8)
    (firstHit_finds hosts (squares_boxed 8) center) (coveredAt_iff center)
    (squares_tiled (by decide) (by decide) (by decide)) stacked.2 fits
  rw [stacked.1.cached_eq, stopsAt14_iff fits, whole]
  decide

theorem levelsOptional_iff_squares :
    LevelsOptional ((update (squareWorld 8) (centerPoint 5)).run
        (after (squareWorld 8) false strayHistory)) ∧
      HarmlessPath (squareWorld 8) 8 center
        ((after (squareWorld 8) false strayHistory).stack.cached.map Watershed.region) ∧
      ¬ StopsAt14 (squareWorld 8) center
        ((after (squareWorld 8) false strayHistory).stack.cached.map Watershed.region) := by
  have hosts := serve_hosts (squares 8) boxes
  obtain ⟨list, stacked⟩ := after_stacked hosts.serves false strayHistory
  have harmless : HarmlessPath (squareWorld 8) 8 center
      ((after (squareWorld 8) false strayHistory).stack.cached.map Watershed.region) := by
    rw [stacked.1.cached_eq]
    exact (namedPath_iff hosts (squares_readable 8).shaped stacked.2).mpr
      ((squares_readable 8).named hosts stacked.2)
  have goesOn := squares_goesOn strayHistory
  refine ⟨?_, harmless, goesOn⟩
  exact (levelsOptional_iff hosts.order (serve_steady _ _) strayHistory (centerPoint 5) center
    (centerPoint_made 8 5) (squares_clean 8 5 false strayHistory).unrefused).mpr
      ⟨harmless, goesOn⟩

end WatershedOracle
