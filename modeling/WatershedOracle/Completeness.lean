import WatershedOracle.Coverage
import WatershedOracle.StackChain

set_option autoImplicit false

/-! The greedy descent misses no row: where a lookup ends, no row below covers the point.
So it reaches huc12 wherever the rows do, unless it trips over a row without a name. -/

namespace WatershedOracle

open Effect

variable {γ : Type} {env : Externals γ} {d : Dataset} {point : γ}

/-! ### The rows as a tower -/

/-- The rows of the tables, whatever their names: a row lies under those whose code begins
its own. -/
def Dataset.rows (d : Dataset) (env : Externals γ) : Tower.Regions Row γ where
  region n row := ∃ level : Level, level.index = n ∧ row ∈ d.table level
  under fine coarse := ∃ code parent, fine.huc = some code ∧ coarse.huc = some parent ∧
    parent <+: code
  covers row point := row.covering env point = true

/-- Some row of the level covers the point. -/
def Dataset.CoversAt (d : Dataset) (env : Externals γ) (level : Level) (point : γ) : Prop :=
  ∃ row ∈ d.table level, row.covering env point = true

theorem region_covering {row : Row} {r : Region γ} (read : row.region? env = some r) :
    row.covering env point = true ↔ env.covers 0 r.geom point = 1 :=
  covering_iff (region_row_geom read)

/-- A region under another comes from a row under the other's row. -/
theorem rows_under {coarse fine : Level} {above below : Row} {parent child : Region γ}
    (isCoarse : above ∈ d.table coarse) (isFine : below ∈ d.table fine)
    (readCoarse : above.region? env = some parent) (readFine : below.region? env = some child) :
    (d.rows env).under below above ↔ (regions env d.listed).under child parent := by
  obtain ⟨code, isSome, isCode⟩ := d.coded coarse above isCoarse
  obtain ⟨code', isSome', isCode'⟩ := d.coded fine below isFine
  have own : parent.code = code := region_row_code isSome isCode readCoarse
  have own' : child.code = code' := region_row_code isSome' isCode' readFine
  simp [Dataset.rows, regions, isSome, isSome', own, own']

theorem Dataset.nested_regions (nested : (d.rows env).Nested) :
    (regions env d.listed).Nested := by
  rintro n child parent point ⟨fine, below, isFine, listed, readFine⟩
    ⟨coarse, above, isCoarse, listed', readCoarse⟩ under covers
  apply (region_covering readCoarse).mp
  apply nested n below above point ⟨fine, isFine, listed⟩ ⟨coarse, isCoarse, listed'⟩
  · exact (rows_under listed' listed readCoarse readFine).mpr under
  · exact (region_covering readFine).mpr covers

/-! ### Where a lookup ends -/

/-- The search passes this row by and is right to. -/
theorem apart_of_inspected_none (steady : env.Steady) {stack : WatershedStack γ}
    (asks : stack.Asks env point) {row : Row} (judged : Inspected env stack row none) :
    (EnvelopeXY.ofShape row.shape).misses (env.boundsOf point) = true ∨
      row.covering env point = false := by
  cases judged with
  | skipped misses => exact .inl (asks.bounds ▸ misses)
  | outside now geom at' meets read isAt apart =>
    obtain ⟨addr, at_⟩ := asks.at_
    obtain rfl : at' = ⟨addr, point⟩ := Option.some.inj (isAt.symm.trans at_)
    apply Or.inr
    rw [← Bool.not_eq_true, covering_iff read]
    exact steady now geom point ▸ apart

/-- Rows that a search could only pass by. -/
def Apart (env : Externals γ) (point : γ) (rows : List Row) : Prop :=
  ∀ row ∈ rows, (EnvelopeXY.ofShape row.shape).misses (env.boundsOf point) = true ∨
    row.covering env point = false

theorem searchBelow_apart (ordered : env.Ordered) (steady : env.Steady) {m m' : Machine γ}
    {list : List (Watershed γ)} {level : Level} (asks : m.stack.Asks env point)
    (next : level.index = list.length)
    (searched : (searchBelow env level list).run m = .error (.error .pointNotInDataset) m') :
    Apart env point (rowsBelow env (list.map Watershed.region)) := by
  obtain ⟨now, missed⟩ := ((search_ends env _ _ _ m).failed searched).2 rfl
  intro row member
  apply apart_of_inspected_none steady asks
  apply missed row
  have same : env.rows now (level.query (codeBelow list)) = env.rows 0 _ := ordered now _
  rw [rowsBelow_at next, ← same] at member
  exact member

/-- A clean descent that ends early has passed by every row below. -/
theorem Descent.apart (ordered : env.Ordered) (steady : env.Steady) {m : Machine γ}
    {list final : List (Watershed γ)} {result : EStateM.Result Fault (Machine γ) Unit}
    (run : Descent env m list result final) (asks : m.stack.Asks env point)
    (clean : Clean result) (short : final.length < m.stack.depth) :
    Apart env point (rowsBelow env (final.map Watershed.region)) := by
  induction run with
  | full isFull => omega
  | @failed m n list level fault next room searched raised =>
    obtain rfl := (clean_error fault n).mp clean
    exact searchBelow_apart ordered steady asks next searched
  | optional next room searched => exact searchBelow_apart ordered steady asks next searched
  | @found m n list final level w result next room searched rest ih =>
    have same := stored_sameRequest searched
    apply ih (asks.same same) clean
    rwa [same.depth]

theorem update_apart (ordered : env.Ordered) (steady : env.Steady) (newPoint : Point)
    {m : Machine γ} {list final : List (Watershed γ)} (holds : m.stack.Holds list) {geom : γ}
    (made : env.geometryOf newPoint.location = some geom)
    (clean : Clean ((update env newPoint).run m))
    (finalHolds : (endState ((update env newPoint).run m)).stack.Holds final)
    (short : final.length < m.stack.depth) :
    Apart env geom (rowsBelow env (final.map Watershed.region)) := by
  obtain ⟨m', kept, final', asks, depth, keptHeld, _, run⟩ :=
    update_descends steady newPoint holds made
  obtain rfl : final' = final := (run.holds keptHeld).1.unique finalHolds
  exact run.apart ordered steady asks clean (depth ▸ short)

/-- Below a linked stack, a row whose code goes on with the code above is searched. -/
theorem Apart.not_covering (hosts : Hosts env d) (boxed : Boxed env d) {stack : List (Region γ)}
    (linked : (regions env d.listed).Linked stack) (apart : Apart env point (rowsBelow env stack))
    {level : Level} (next : level.index = stack.length) {row : Row} (member : row ∈ d.table level)
    {code : Bytes} (isCode : row.huc = some code)
    (begins : ∀ parent ∈ stack.head?, parent.code <+: code) :
    row.covering env point = false := by
  obtain ⟨pattern, digits⟩ := patternBelow_linked hosts linked
  have starts : patternBelow stack <+: code := by
    cases stack with
    | nil => exact List.nil_prefix
    | cons parent rest =>
      rw [pattern parent (by simp)]
      exact begins parent (by simp)
  have served : row ∈ rowsBelow env stack := by
    rw [rowsBelow, Level.at?_eq_some next]
    exact (hosts.like 0 level _ row code digits member isCode).mpr starts
  rcases apart row served with misses | uncovered
  · rw [← Bool.not_eq_true]
    intro covering
    obtain ⟨geom, read, covers⟩ := (Option.any_eq_true _ _).mp covering
    rw [boxed.meets member read (beq_iff_eq.mp covers)] at misses
    cases misses
  · exact uncovered

/-- Where the rows are tiled, they go on below a stack that covers the point. -/
theorem row_below {depth : Nat} (tiled : (d.rows env).Tiled depth point)
    {stack : List (Region γ)} (linked : (regions env d.listed).Linked stack)
    (covered : ∀ r ∈ stack, env.covers 0 r.geom point = 1) (short : stack.length < depth) :
    ∃ level : Level, level.index = stack.length ∧ ∃ row ∈ d.table level,
      row.covering env point = true ∧ ∃ code, row.huc = some code ∧
        ∀ parent ∈ stack.head?, parent.code <+: code := by
  cases linked with
  | nil =>
    obtain ⟨row, ⟨level, at_, listed⟩, covers⟩ := tiled.root
    obtain ⟨code, isCode, _⟩ := d.coded level row listed
    exact ⟨level, at_, row, listed, covers, code, isCode, by simp⟩
  | @cons r rest child below =>
    obtain ⟨coarse, above, at_, listed, read⟩ := child.1
    have covers := (region_covering read).mpr (covered r (by simp))
    obtain ⟨row, ⟨level, at', listed'⟩, ⟨code, parent, isCode, isParent, begins⟩, covers'⟩ :=
      tiled.child rest.length above short ⟨coarse, at_, listed⟩ covers
    obtain ⟨own, isOwn, coded⟩ := d.coded coarse above listed
    obtain rfl : own = parent := Option.some.inj (isOwn.symm.trans isParent)
    have same : r.code = own := region_row_code isOwn coded read
    exact ⟨level, at', row, listed', covers', code, isCode, by simpa [same] using begins⟩

/-! ### Clean updates -/

/-- A clean update leaves a linked list of regions that cover the point. -/
theorem update_stops (hosts : Hosts env d) (steady : env.Steady) (boxed : Boxed env d)
    (nested : (regions env d.listed).Nested) (newPoint : Point) {m : Machine γ}
    {list : List (Watershed γ)} (stacked : Stacked env d.listed m.stack list) {geom : γ}
    (made : env.geometryOf newPoint.location = some geom)
    (clean : Clean ((update env newPoint).run m)) :
    ∃ final, Stacked env d.listed (endState ((update env newPoint).run m)).stack final ∧
      AllCover env geom final ∧
      (Succeeds ((update env newPoint).run m) ↔
        final.length = m.stack.depth ∨ final.length = 6) ∧
      (final.length < m.stack.depth →
        Apart env geom (rowsBelow env (final.map Watershed.region))) := by
  obtain ⟨geom', final, made', finalHolds, reached, succeeds⟩ :=
    update_refines hosts.order steady newPoint stacked.1 clean
  obtain rfl : geom = geom' := Option.some.inj (made.symm.trans made')
  have finds := firstHit_finds hosts boxed geom
  have covering := Tower.lookup_covers nested finds (coveredAt_iff geom) m.stack.depth stacked.2
  have linked := Tower.lookup_linked finds (coveredAt env geom) m.stack.depth stacked.2
  rw [← reached] at covering linked
  refine ⟨final, ⟨finalHolds, linked⟩, ?_, succeeds, ?_⟩
  · intro w member
    exact covering _ (List.mem_map_of_mem member)
  · exact update_apart hosts.order steady newPoint stacked.1 made clean finalHolds

/-- After a clean update a slot is occupied exactly where a row of level 2 covers the
point. -/
theorem update_root (hosts : Hosts env d) (steady : env.Steady) (boxed : Boxed env d)
    (nested : (regions env d.listed).Nested) (newPoint : Point) {m : Machine γ}
    {list : List (Watershed γ)} (stacked : Stacked env d.listed m.stack list) {geom : γ}
    (made : env.geometryOf newPoint.location = some geom)
    (clean : Clean ((update env newPoint).run m)) :
    (endState ((update env newPoint).run m)).stack.valid = true ↔
      d.CoversAt env .huc2 geom := by
  obtain ⟨final, settled, covering, _, apart⟩ :=
    update_stops hosts steady boxed nested newPoint stacked made clean
  rw [(settled.chain hosts.serves).valid_iff]
  have first := settled.1.isSome .huc2
  constructor
  · intro occupied
    have some_ : final ≠ [] := List.ne_nil_of_length_pos (first.mp occupied)
    obtain ⟨r, member, level, row, at_, listed, read⟩ :=
      settled.2.root (by simpa using some_)
    obtain rfl : level = .huc2 := Level.index_injective at_
    obtain ⟨w, isMember, rfl⟩ := List.mem_map.mp member
    exact ⟨row, listed, (region_covering read).mpr (covering w isMember)⟩
  · rintro ⟨row, listed, covers⟩
    apply first.mpr
    apply Nat.pos_of_ne_zero
    intro empty
    obtain rfl := List.eq_nil_of_length_eq_zero empty
    obtain ⟨code, isCode, _⟩ := d.coded .huc2 row listed
    have uncovered := (apart m.stack.depth_pos).not_covering hosts boxed .nil
      (show Level.huc2.index = 0 from rfl) listed isCode (by simp)
    rw [covers] at uncovered
    cases uncovered

/-- Where the rows cover the point from level 2 to level 12, a clean update that leaves
the two last levels out ends at level 12. -/
theorem update_full (hosts : Hosts env d) (steady : env.Steady) (boxed : Boxed env d)
    (nested : (regions env d.listed).Nested) (newPoint : Point) {m : Machine γ}
    {list : List (Watershed γ)} (stacked : Stacked env d.listed m.stack list)
    (depth : m.stack.depth = 6) {geom : γ}
    (made : env.geometryOf newPoint.location = some geom)
    (tiled : (d.rows env).Tiled 6 geom) (clean : Clean ((update env newPoint).run m)) :
    Succeeds ((update env newPoint).run m) ∧ ∀ level : Level, level.index < 6 → ∃ w,
      (endState ((update env newPoint).run m)).stack.slot level = some w ∧
        ∀ now, env.covers now w.geom.geom geom = 1 := by
  obtain ⟨final, settled, covering, succeeds, apart⟩ :=
    update_stops hosts steady boxed nested newPoint stacked made clean
  rw [depth] at succeeds apart
  have fits : final.length ≤ 6 := by
    have held := settled.1.1
    rwa [update_depth newPoint stacked.1, depth] at held
  have covering' : ∀ r ∈ final.map Watershed.region, env.covers 0 r.geom geom = 1 := by
    intro r member
    obtain ⟨w, isMember, rfl⟩ := List.mem_map.mp member
    exact covering w isMember
  have full : final.length = 6 := by
    -- If it ended earlier, the rows would still have one below that covers the point.
    by_contra short
    have early : final.length < 6 := Nat.lt_of_le_of_ne fits short
    have next : (final.map Watershed.region).length < 6 := by rwa [List.length_map]
    obtain ⟨level, at_, row, listed, covers, code, isCode, begins⟩ :=
      row_below tiled settled.2 covering' next
    have uncovered := (apart early).not_covering hosts boxed settled.2 at_ listed isCode begins
    rw [covers] at uncovered
    cases uncovered
  refine ⟨succeeds.mpr (.inl full), fun level shallow => ?_⟩
  have inside : level.index < final.reverse.length := by simpa [full] using shallow
  refine ⟨final.reverse[level.index], ?_, fun now => ?_⟩
  · rw [settled.1.slot, List.getElem?_eq_getElem inside]
  · rw [steady]
    exact covering _ (List.mem_reverse.mp (List.getElem_mem inside))

/-- Where the rows cover the point from level 2 to level 12, an update finds all six
levels, whichever of several siblings it comes to first, exactly when no row that its
searches come to is without a name. -/
theorem update_complete_iff (hosts : Hosts env d) (steady : env.Steady) (boxed : Boxed env d)
    (faultless : env.Faultless) (shaped : d.Shaped env) (nested : (d.rows env).Nested)
    (history : List Point) (newPoint : Point) (geom : γ)
    (made : env.geometryOf newPoint.location = some geom)
    (tiled : (d.rows env).Tiled 6 geom) :
    (Succeeds ((update env newPoint).run (after env true history)) ∧
      ∀ level : Level, level.index < 6 → ∃ w,
        (endState ((update env newPoint).run (after env true history))).stack.slot level =
          some w ∧ ∀ now, env.covers now w.geom.geom geom = 1) ↔
      NamedPath env 6 geom ((after env true history).stack.cached.map Watershed.region) := by
  obtain ⟨list, stacked⟩ := after_stacked hosts.serves true history
  have depth := WatershedStack.depth_of_skip (after_skip env true history)
  have cleanly := update_clean_iff_named hosts steady faultless shaped newPoint stacked made
  rw [depth] at cleanly
  rw [stacked.1.cached_eq, ← cleanly]
  constructor
  · rintro ⟨success, _⟩
    cases ended : (update env newPoint).run (after env true history) with
    | ok _ s => exact .success s
    | error fault s =>
      rw [ended] at success
      exact ((succeeds_error fault s).mp success).elim
  · exact update_full hosts steady boxed (d.nested_regions nested) newPoint stacked depth made
      tiled

/-! ### Squares without names -/

/-- The same rows, with NULL for their names. -/
def Dataset.unnamed (d : Dataset) : Dataset where
  table level := (d.table level).map fun row => { row with name := none }
  coded level row member := by
    obtain ⟨old, listed, rfl⟩ := List.mem_map.mp member
    exact d.coded level old listed

/-- What nests with names nests without them. -/
theorem Dataset.unnamed_nested (nested : (d.rows env).Nested) : (d.unnamed.rows env).Nested := by
  rintro n fine coarse point ⟨low, at_, isFine⟩ ⟨high, at', isCoarse⟩ under covers
  obtain ⟨below, listed, rfl⟩ := List.mem_map.mp isFine
  obtain ⟨above, listed', rfl⟩ := List.mem_map.mp isCoarse
  exact nested n below above point ⟨low, at_, listed⟩ ⟨high, at', listed'⟩ under covers

theorem Dataset.unnamed_tiled {depth : Nat} (tiled : (d.rows env).Tiled depth point) :
    (d.unnamed.rows env).Tiled depth point := by
  constructor
  · obtain ⟨row, ⟨level, at_, listed⟩, covers⟩ := tiled.root
    exact ⟨_, ⟨level, at_, List.mem_map_of_mem listed⟩, covers⟩
  · rintro n row short ⟨level, at_, listed⟩ covers
    obtain ⟨old, listed', rfl⟩ := List.mem_map.mp listed
    obtain ⟨fine, ⟨low, at', isFine⟩, under, covers'⟩ :=
      tiled.child n old short ⟨level, at_, listed'⟩ covers
    exact ⟨_, ⟨low, at', List.mem_map_of_mem isFine⟩, under, covers'⟩

theorem Dataset.unnamed_shaped (shaped : d.Shaped env) : d.unnamed.Shaped env := by
  intro level row member
  obtain ⟨old, listed, rfl⟩ := List.mem_map.mp member
  exact shaped level old listed

theorem squareRow_covering (other : Dataset) (level : Level) (point : Box) :
    (squareRow level).covering (other.serve boxes) point = boxes.covers square point := by
  have read : (other.serve boxes).wkbReader ((squareRow level).shape.drop headerSize) =
      some square := square_read
  rw [Bool.eq_iff_iff, covering_iff read]
  exact serve_covers other boxes 0 square point

theorem squares_rows_nested (deepest : Nat) (other : Dataset) :
    ((squares deepest).rows (other.serve boxes)).Nested := by
  rintro n fine coarse point ⟨low, _, isFine⟩ ⟨high, _, isCoarse⟩ _ covers
  obtain ⟨_, rfl⟩ := squares_listed isFine
  obtain ⟨_, rfl⟩ := squares_listed isCoarse
  have inside := (squareRow_covering other low point).symm.trans covers
  exact (squareRow_covering other high point).trans inside

theorem squares_rows_tiled (other : Dataset) :
    ((squares 6).rows (other.serve boxes)).Tiled 6 center := by
  have listed : ∀ level : Level, level.index < 6 → squareRow level ∈ (squares 6).table level := by
    intro level inside
    simp [squares, inside]
  have covers : ∀ level, (squareRow level).covering (other.serve boxes) center = true := by
    intro level
    rw [squareRow_covering]
    decide
  refine ⟨⟨squareRow .huc2, ⟨.huc2, rfl, listed _ (by decide)⟩, covers _⟩, ?_⟩
  rintro n row inside ⟨coarse, rfl, isCoarse⟩ _
  obtain ⟨_, rfl⟩ := squares_listed isCoarse
  obtain ⟨fine, next⟩ := Level.exists_index (Nat.lt_trans inside (by decide))
  refine ⟨squareRow fine, ⟨fine, next, listed fine (next ▸ inside)⟩, ?_, covers fine⟩
  refine ⟨squareCode fine, squareCode coarse, rfl, rfl, ?_⟩
  exact List.take_prefix_take_left (by simp only [Level.digits]; omega)

abbrev nullSquares : Dataset := (squares 6).unnamed

abbrev nullWorld : Externals Box := nullSquares.serve boxes

theorem null_boxed : Boxed nullWorld nullSquares := by
  apply boxes_boxed
  intro level row member box read
  obtain ⟨old, listed, rfl⟩ := List.mem_map.mp member
  exact (squares_boxed 6).envelope level old listed box box.bounds read rfl

theorem null_shaped : nullSquares.Shaped nullWorld :=
  Dataset.unnamed_shaped (squares_readable 6).shaped

theorem null_nested : (nullSquares.rows nullWorld).Nested :=
  Dataset.unnamed_nested (squares_rows_nested 6 _)

/-- The first search trips over the NULL name, in the line that only logs the row. -/
theorem null_trips : ∃ m', (update nullWorld (centerPoint 7)).run { stack := .init true } =
    .error (.panic .unreachableReached) m' := by
  apply raisedBy_eq_some
  decide +kernel

/-- The squares without their names: the rows nest and cover the center from level 2 to
level 12, and the update of the center trips over the first of them. -/
theorem update_complete_fails :
    Hosts nullWorld nullSquares ∧ nullWorld.Steady ∧ Boxed nullWorld nullSquares ∧
      nullWorld.Faultless ∧ nullSquares.Shaped nullWorld ∧
      (nullSquares.rows nullWorld).Nested ∧
      (nullSquares.rows nullWorld).Tiled 6 center ∧
      nullWorld.geometryOf (centerPoint 7).location = some center ∧
      ¬ Succeeds ((update nullWorld (centerPoint 7)).run (after nullWorld true [])) := by
  refine ⟨serve_hosts _ _, serve_steady _ _, null_boxed, serve_faultless _ _, null_shaped,
    null_nested, Dataset.unnamed_tiled (squares_rows_tiled _), centerPoint_made 6 7, ?_⟩
  intro success
  obtain ⟨m', failed⟩ := null_trips
  rw [after_nil, failed] at success
  exact (succeeds_error _ _).mp success

theorem update_complete_iff_squares :
    (Succeeds ((update (squareWorld 6) (centerPoint 5)).run
        (after (squareWorld 6) true strayHistory)) ∧
      ∀ level : Level, level.index < 6 → ∃ w,
        (endState ((update (squareWorld 6) (centerPoint 5)).run
          (after (squareWorld 6) true strayHistory))).stack.slot level = some w ∧
        ∀ now, (squareWorld 6).covers now w.geom.geom center = 1) ∧
      NamedPath (squareWorld 6) 6 center
        ((after (squareWorld 6) true strayHistory).stack.cached.map Watershed.region) := by
  have hosts := serve_hosts (squares 6) boxes
  obtain ⟨list, stacked⟩ := after_stacked hosts.serves true strayHistory
  have named : NamedPath (squareWorld 6) 6 center
      ((after (squareWorld 6) true strayHistory).stack.cached.map Watershed.region) := by
    rw [stacked.1.cached_eq]
    exact (squares_readable 6).named hosts stacked.2
  refine ⟨?_, named⟩
  exact (update_complete_iff hosts (serve_steady _ _) (squares_boxed 6) (serve_faultless _ _)
    (squares_readable 6).shaped (squares_rows_nested 6 _) strayHistory (centerPoint 5) center
    (centerPoint_made 6 5) (squares_rows_tiled _)).mpr named

end WatershedOracle
