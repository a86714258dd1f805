import WatershedOracle.Coverage
import WatershedOracle.SearchCode

set_option autoImplicit false

/-! The sixteen check and update functions as one transition. The slots down to the
finest that covers the new point stay; the finer ones are searched anew. -/

namespace WatershedOracle

open Effect

variable {γ : Type} {env : Externals γ}

/-! ### The transition -/

/-- The finest level whose slot covers the point. -/
def WatershedStack.finestCovering (stack : WatershedStack γ) (env : Externals γ) (point : γ) :
    Option Level :=
  Level.all.reverse.find? fun level => (stack.slot level).any fun w => coveredAt env point w.region

/-- The levels finer than a level, or all of them, coarse to fine. -/
def Level.finerThan (j : Option Level) : List Level :=
  Level.all.filter fun level => j.all fun top => top.index < level.index

/-- Those of them that a stack searches. -/
def WatershedStack.searchable (stack : WatershedStack γ) (j : Option Level) : List Level :=
  (Level.finerThan j).filter fun level => !(stack.skipHuc14and16 && 6 ≤ level.index)

/-- The code that the search below a level starts with. -/
def WatershedStack.codeOf (stack : WatershedStack γ) (j : Option Level) : Bytes :=
  (j.bind fun level => (stack.slot level).map fun w => w.hucPrefix level.digits).getD []

/-- The region that a search of the level finds. -/
def searchFinds (env : Externals γ) (point : γ) (level : Level) (likePattern : Bytes) :
    Option (Region γ) :=
  (env.rows 0 (level.query likePattern)).findSome? (hit env point)

/-- The regions found from level to level, each searched with the code of the one
above, up to the first level where nothing is found. -/
def sought (env : Externals γ) (point : γ) : List Level → Bytes → List (Region γ)
  | [], _ => []
  | level :: finer, likePattern =>
      match searchFinds env point level likePattern with
      | none => []
      | some r => r :: sought env point finer (r.huc.toList.take level.digits)

/-- The searches that this takes, in their order. -/
def soughtBy (env : Externals γ) (point : γ) : List Level → Bytes → List Query
  | [], _ => []
  | level :: finer, likePattern =>
      level.query likePattern ::
        match searchFinds env point level likePattern with
        | none => []
        | some r => soughtBy env point finer (r.huc.toList.take level.digits)

/-- What one update does to the slots and what it searches, when `j` is the finest
level that covers the new point. -/
structure Revises (env : Externals γ) (point : γ) (j : Option Level) (before after : Machine γ) :
    Prop where
  kept : ∀ level, level ∉ Level.finerThan j → after.stack.slot level = before.stack.slot level
  found : ∀ (n : Nat) level, (Level.finerThan j)[n]? = some level →
    (after.stack.slot level).map Watershed.region =
      (sought env point (before.stack.searchable j) (before.stack.codeOf j))[n]?
  asked : after.searches =
    (soughtBy env point (before.stack.searchable j) (before.stack.codeOf j)).reverse ++
      before.searches
  once : ((soughtBy env point (before.stack.searchable j) (before.stack.codeOf j)).map
    Query.hucLevel).Nodup
  finer : ∀ query ∈ soughtBy env point (before.stack.searchable j) (before.stack.codeOf j),
    ∃ level ∈ before.stack.searchable j, query.hucLevel = level.hucLevel ∧
      query.tableName = level.tableName

/-! ### The levels that are searched -/

/-- The levels from the `n`th on, down to the given depth. -/
def Level.between (n depth : Nat) : List Level := (Level.all.take depth).drop n

theorem Level.between_cons {level : Level} {depth : Nat} (room : level.index < depth) :
    Level.between level.index depth = level :: Level.between (level.index + 1) depth := by
  have inside : level.index < (Level.all.take depth).length := by
    have shallow : level.index < Level.all.length := by cases level <;> decide
    rw [List.length_take]
    omega
  rw [Level.between, List.drop_eq_getElem_cons inside]
  congr 1
  rw [List.getElem_take]
  cases level <;> rfl

theorem Level.between_full (depth : Nat) : Level.between depth depth = [] := by
  rw [Level.between, List.drop_eq_nil_iff, List.length_take]
  omega

/-- The number of levels down to and including `j`. -/
def Level.count (j : Option Level) : Nat := (j.map fun level => level.index + 1).getD 0

theorem Level.finerThan_eq (j : Option Level) :
    Level.finerThan j = Level.between (Level.count j) 8 := by
  cases j with
  | none => rfl
  | some top => cases top <;> rfl

theorem WatershedStack.searchable_eq (stack : WatershedStack γ) (j : Option Level) :
    stack.searchable j = Level.between (Level.count j) stack.depth := by
  unfold searchable depth
  cases stack.skipHuc14and16 with
  | false =>
    rw [Level.finerThan_eq]
    simp
  | true =>
    cases j with
    | none => rfl
    | some top => cases top <;> rfl

theorem Level.mem_finerThan {j : Option Level} {level : Level} :
    level ∈ Level.finerThan j ↔ Level.count j ≤ level.index := by
  have member : level ∈ Level.all := by cases level <;> decide
  cases j with
  | none => simp [finerThan, count, member]
  | some top =>
    simp only [finerThan, count, List.mem_filter, Option.all_some, decide_eq_true_eq, member,
      true_and, Option.map_some, Option.getD_some]
    omega

theorem Level.finerThan_getElem {j : Option Level} {n : Nat} {level : Level}
    (isNth : (Level.finerThan j)[n]? = some level) : level.index = Level.count j + n := by
  rw [Level.finerThan_eq, between, List.getElem?_drop] at isNth
  have all : ∀ i, Level.all[i]? = some level → level.index = i := by
    intro i isLevel
    have indexed : (Level.all.map Level.index)[i]? = some level.index := by
      rw [List.getElem?_map, isLevel]
      rfl
    rw [Level.all_index] at indexed
    simpa using (List.getElem?_eq_some_iff.mp indexed).2.symm
  exact all _ isNth

/-- The finest level that passes a test. -/
theorem Level.find_finest (p : Level → Bool) {level : Level} (passes : p level = true)
    (finer : ∀ other : Level, level.index < other.index → p other = false) :
    Level.all.reverse.find? p = some level := by
  apply List.find?_eq_some_iff_append.mpr
  refine ⟨passes, (Level.all.drop (level.index + 1)).reverse, (Level.all.take level.index).reverse,
    by cases level <;> rfl, ?_⟩
  intro other member
  have deeper : level.index < other.index := by
    revert member
    cases level <;> cases other <;> decide
  simp [finer other deeper]

/-! ### What is kept -/

/-- The slots of two lists on top of each other. -/
theorem WatershedStack.Holds.slot_append {stack : WatershedStack γ}
    {new kept : List (Watershed γ)} (holds : stack.Holds (new ++ kept)) (level : Level) :
    stack.slot level = if level.index < kept.length then kept.reverse[level.index]?
      else new.reverse[level.index - kept.length]? := by
  rw [holds.slot, List.reverse_append, List.getElem?_append, List.length_reverse]

/-- The climb drops regions that do not cover, from the finest on. -/
theorem Revalidation.dropped (steady : env.Steady) {m m' : Machine γ}
    {list kept : List (Watershed γ)} (climb : Revalidation env m list m' kept)
    {point : GeomPtr γ} (at_ : m.stack.point = some point) :
    ∃ dropped, list = dropped ++ kept ∧
      ∀ w ∈ dropped, coveredAt env point.geom w.region = false := by
  induction climb with
  | empty => exact ⟨[], by simp⟩
  | vacant finer up ih => exact ih (by simpa using at_)
  | covered isAt covers => exact ⟨[], by simp⟩
  | @uncovered m m' w rest kept level asked isTop isAt apart up ih =>
    obtain rfl : asked = point := Option.some.inj (isAt.symm.trans at_)
    obtain ⟨dropped, split, outside⟩ := ih (by simpa using at_)
    have other : coveredAt env asked.geom w.region = false := by
      apply beq_eq_false_iff_ne.mpr
      rw [← steady m.calls]
      exact apart
    exact ⟨w :: dropped, by rw [split]; rfl, List.forall_mem_cons.mpr ⟨other, outside⟩⟩

section Finest

variable {stack : WatershedStack γ} {dropped kept : List (Watershed γ)} {point : γ}

/-- The finest level that covers is that of the finest region that is kept. -/
theorem finestCovering_eq (holds : stack.Holds (dropped ++ kept))
    (outside : ∀ w ∈ dropped, coveredAt env point w.region = false)
    (covers : ∀ w ∈ kept.head?, coveredAt env point w.region = true) :
    Level.count (stack.finestCovering env point) = kept.length ∧
      stack.codeOf (stack.finestCovering env point) = codeBelow kept := by
  have finer : ∀ level : Level, kept.length ≤ level.index →
      ((stack.slot level).any fun w => coveredAt env point w.region) = false := by
    intro level deep
    rw [holds.slot_append, if_neg (by omega)]
    cases isHeld : dropped.reverse[level.index - kept.length]? with
    | none => rfl
    | some w => exact outside w (List.mem_reverse.mp (List.mem_of_getElem? isHeld))
  cases kept with
  | nil =>
    have nowhere : stack.finestCovering env point = none := by
      apply List.find?_eq_none.mpr
      intro level _
      simp [finer level (Nat.zero_le _)]
    rw [nowhere]
    exact ⟨rfl, rfl⟩
  | cons w rest =>
    have fits := Nat.le_trans holds.1 stack.depth_le
    obtain ⟨level, isTop⟩ := Level.exists_index (n := rest.length) (by simp at fits; omega)
    have slot : stack.slot level = some w := by
      rw [holds.slot_append, if_pos (by simp [isTop]), isTop]
      simp
    have top : stack.finestCovering env point = some level := by
      apply Level.find_finest
      · rw [slot]
        exact covers w rfl
      · intro other deeper
        apply finer other
        simpa [← isTop, Nat.succ_le_iff] using deeper
    rw [top]
    constructor
    · simp [Level.count, isTop]
    · simp [WatershedStack.codeOf, slot, codeBelow, Level.digits, isTop]

end Finest

/-! ### What is searched -/

/-- Neither a slot nor the point is searched for. -/
theorem Machine.searches_stored (m : Machine γ) (level : Level) (value : Option (Watershed γ)) :
    (m.stored level value).searches = m.searches := rfl

theorem Machine.searches_asking (m : Machine γ) (requestId : Int) (geom : γ) :
    (m.asking requestId env geom).searches = m.searches := by
  have made : ∀ addr, (Event.geomCreated addr).query? = none := fun _ => rfl
  have gone : ∀ addr, (Event.geomDestroyed addr).query? = none := fun _ => rfl
  cases at_ : m.stack.point <;>
    simp [searches, asking, bounded, placed, cleared, recorded, ticked, at_, made, gone]

theorem Revalidation.searches {m m' : Machine γ} {list kept : List (Watershed γ)}
    (climb : Revalidation env m list m' kept) : m'.searches = m.searches := by
  induction climb with
  | empty => rfl
  | vacant finer up ih => exact ih
  | covered at_ covers => rfl
  | uncovered isTop at_ apart up ih => exact ih

section Descent

variable {point : γ}

/-- A search below a list finds what the tables give first, and records its query. -/
theorem searchBelow_finds (ordered : env.Ordered) (steady : env.Steady) {m : Machine γ}
    {list : List (Watershed γ)} {level : Level} (asks : m.stack.Asks env point)
    (next : level.index = list.length) :
    Ends (searchBelow env level list) m
      (fun w m' => searchFinds env point level (codeBelow list) = some w.region ∧
        m'.searches = level.query (codeBelow list) :: m.searches)
      (fun fault m' => (fault = .error .pointNotInDataset →
          searchFinds env point level (codeBelow list) = none) ∧
        m'.searches = level.query (codeBelow list) :: m.searches) := by
  have recorded := search_searches env level.hucLevel level.tableName (codeBelow list) m
  have first : firstHit env point (list.map Watershed.region) = _ := firstHit_at ordered next 0
  unfold Ends
  cases run : (searchBelow env level list).run m with
  | ok w m' =>
    refine ⟨?_, recorded.returned run⟩
    rw [searchFinds, ← first]
    exact searchBelow_found ordered steady asks next run
  | error fault m' =>
    refine ⟨fun isAbsent => ?_, recorded.failed run⟩
    subst isAbsent
    rw [searchFinds, ← first]
    exact searchBelow_absent ordered steady asks next run

/-- A descent without failures finds the regions that are sought, by their searches. -/
theorem Descent.sought (ordered : env.Ordered) (steady : env.Steady) {m : Machine γ}
    {list final : List (Watershed γ)} {result : EStateM.Result Fault (Machine γ) Unit}
    (run : Descent env m list result final) (asks : m.stack.Asks env point)
    (clean : Clean result) :
    ∃ new, final = new ++ list ∧
      new.reverse.map Watershed.region =
        sought env point (Level.between list.length m.stack.depth) (codeBelow list) ∧
      (endState result).searches =
        (soughtBy env point (Level.between list.length m.stack.depth) (codeBelow list)).reverse ++
          m.searches := by
  induction run with
  | @full m list isFull =>
    rw [isFull, Level.between_full]
    exact ⟨[], rfl, rfl, rfl⟩
  | @failed m m' list level fault next room searched raised =>
    obtain rfl := (clean_error fault m').mp clean
    obtain ⟨absent, recorded⟩ := (searchBelow_finds ordered steady asks next).failed searched
    rw [← next, Level.between_cons (by omega)]
    refine ⟨[], rfl, ?_, ?_⟩
    · simp [WatershedOracle.sought, absent rfl]
    · simpa [soughtBy, absent rfl] using recorded
  | @optional m m' list next room searched =>
    obtain ⟨absent, recorded⟩ := (searchBelow_finds ordered steady asks next).failed searched
    rw [← next, Level.between_cons (by omega)]
    refine ⟨[], rfl, ?_, ?_⟩
    · simp [WatershedOracle.sought, absent rfl]
    · simpa [soughtBy, absent rfl] using recorded
  | @found m m' list final level w result next room searched rest ih =>
    obtain ⟨isFirst, recorded⟩ := (searchBelow_finds ordered steady asks next).returned searched
    have same := stored_sameRequest searched
    obtain ⟨new, split, regions, searches⟩ := ih (asks.same same) clean
    have code : codeBelow (w :: list) = w.region.huc.toList.take level.digits := by
      simp [codeBelow, Watershed.hucPrefix, Watershed.region, Level.digits, next]
    rw [same.depth, List.length_cons, ← next, code] at regions searches
    rw [← next, Level.between_cons (by omega)]
    refine ⟨new ++ [w], by simp [split], ?_, ?_⟩
    · simp [WatershedOracle.sought, isFirst, ← regions]
    · rw [searches, Machine.searches_stored, recorded]
      simp [soughtBy, isFirst]

end Descent

theorem soughtBy_levels (point : γ) (levels : List Level) (likePattern : Bytes) :
    (soughtBy env point levels likePattern).map Query.hucLevel <+: levels.map Level.hucLevel := by
  induction levels generalizing likePattern with
  | nil => exact List.prefix_refl _
  | cons level finer ih =>
    rw [soughtBy, List.map_cons, List.map_cons]
    apply List.cons_prefix_cons.mpr
    refine ⟨rfl, ?_⟩
    cases searchFinds env point level likePattern with
    | none => exact List.nil_prefix
    | some r => exact ih _

theorem soughtBy_query {point : γ} {levels : List Level} {likePattern : Bytes} {query : Query}
    (member : query ∈ soughtBy env point levels likePattern) :
    ∃ level ∈ levels, ∃ used, query = level.query used := by
  induction levels generalizing likePattern with
  | nil => cases member
  | cons level finer ih =>
    rw [soughtBy, List.mem_cons] at member
    rcases member with rfl | deeper
    · exact ⟨level, List.mem_cons_self, likePattern, rfl⟩
    · cases found : searchFinds env point level likePattern with
      | none => simp [found] at deeper
      | some r =>
        rw [found] at deeper
        obtain ⟨other, isFiner, used, same⟩ := ih deeper
        exact ⟨other, List.mem_cons_of_mem _ isFiner, used, same⟩

/-! ### One update -/

/-- No safety check trips, and neither SQLite nor the allocator fails. -/
def Unfailing {σ : Type} (result : EStateM.Result Fault σ Unit) : Prop :=
  ∀ fault s, result = .error fault s → (∀ check, fault ≠ .panic check) ∧
    fault ≠ .error .OutOfMemory ∧ ∀ e, fault ≠ .error (.sqlite e)

theorem Clean.unfailing {σ : Type} {result : EStateM.Result Fault σ Unit}
    (clean : Clean result) : Unfailing result := by
  intro fault s isError
  subst isError
  rw [clean_error] at clean
  subst clean
  simp

/-- A descent in which nothing fails has only not found a region. -/
theorem Descent.clean_of_unfailing {m : Machine γ} {list final : List (Watershed γ)}
    {result : EStateM.Result Fault (Machine γ) Unit} (run : Descent env m list result final)
    (unfailing : Unfailing result) : Clean result := by
  cases result with
  | ok _ s => exact .success s
  | error fault s =>
    obtain ⟨panics, memory, sqlite⟩ := unfailing fault s rfl
    apply (clean_error fault s).mpr
    cases run.faults rfl with
    | tripped check => exact absurd rfl (panics check)
    | memory => exact absurd rfl memory
    | sqlite e => exact absurd rfl (sqlite e)
    | outside => rfl

/-- From every stack that updates can reach, under any externals, an update in which no
safety check trips and neither SQLite nor the allocator fails keeps the levels down to the
finest that covers the new point, and searches the finer ones in their order, each once. -/
theorem update_revises (before : Externals γ) (skip : Bool) (history : List Point)
    (ordered : env.Ordered) (steady : env.Steady) (newPoint : Point) (geom : γ)
    (made : env.geometryOf newPoint.location = some geom)
    (unfailing : Unfailing ((update env newPoint).run (after before skip history))) :
    Revises env geom ((after before skip history).stack.finestCovering env geom)
      (after before skip history)
      (endState ((update env newPoint).run (after before skip history))) := by
  obtain ⟨list, holds, _⟩ := after_holds before skip history
  generalize after before skip history = m at *
  have asks : (m.asking newPoint.requestId env geom).stack.Asks env geom :=
    WatershedStack.asking_asks m.stack _ env ⟨m.calls, geom⟩
  have at_ : (m.asking newPoint.requestId env geom).stack.point = some ⟨m.calls, geom⟩ := rfl
  obtain ⟨m', kept, final, climb, run⟩ := update_climbs newPoint holds made
  obtain ⟨keptHeld, _, same⟩ := climb.holds holds
  obtain ⟨dropped, rfl, outside⟩ := climb.dropped steady at_
  have covers : ∀ w ∈ kept.head?, coveredAt env geom w.region = true := fun w isHead =>
    beq_iff_eq.mpr (climb.head_covers steady at_ w isHead)
  obtain ⟨count, code⟩ := finestCovering_eq holds outside covers
  obtain ⟨new, rfl, regions, searches⟩ :=
    run.sought ordered steady (asks.same same) (run.clean_of_unfailing unfailing)
  have finalHeld := (run.holds keptHeld).1
  have depth : m'.stack.depth = m.stack.depth := same.depth
  rw [depth, ← count, ← WatershedStack.searchable_eq, ← code] at regions searches
  constructor
  · intro level within
    rw [Level.mem_finerThan, count, Nat.not_le] at within
    rw [finalHeld.slot_append, holds.slot_append, if_pos within, if_pos within]
  · intro n level isNth
    have deep := Level.finerThan_getElem isNth
    rw [count] at deep
    rw [finalHeld.slot_append, if_neg (by omega), ← regions, List.getElem?_map, deep,
      Nat.add_sub_cancel_left]
  · rw [searches, climb.searches, Machine.searches_asking]
  · apply List.Nodup.sublist (soughtBy_levels geom _ _).sublist
    apply List.Nodup.sublist (List.filter_sublist.map Level.hucLevel)
    exact List.Nodup.sublist (List.filter_sublist.map Level.hucLevel) (by decide)
  · intro query member
    obtain ⟨level, isSearchable, used, rfl⟩ := soughtBy_query member
    exact ⟨level, isSearchable, rfl, rfl⟩

/-- Four levels are cached around a corner of the square; three finer ones are searched
for its center. -/
theorem update_revises_squares :
    Revises (squareWorld 7) center
      ((after (squareWorld 4) false strayHistory).stack.finestCovering (squareWorld 7) center)
      (after (squareWorld 4) false strayHistory)
      (endState ((update (squareWorld 7) (centerPoint 5)).run
        (after (squareWorld 4) false strayHistory))) := by
  have hosts := serve_hosts (squares 7) boxes
  obtain ⟨list, holds, linked⟩ :=
    after_stacked (serve_hosts (squares 4) boxes).serves false strayHistory
  have stacked : Stacked (squareWorld 7) (squares 7).listed
      (after (squareWorld 4) false strayHistory).stack list :=
    ⟨holds, squares_linked (by decide) linked⟩
  have clean := update_clean hosts (serve_steady _ _) (serve_faultless _ _) (squares_readable 7)
    (centerPoint 5) stacked (centerPoint_made 7 5)
  exact update_revises (squareWorld 4) false strayHistory hosts.order (serve_steady _ _)
    (centerPoint 5) center (centerPoint_made 7 5) clean.unfailing

end WatershedOracle
