import WatershedOracle.Dataset

set_option autoImplicit false

/-! What an update that meets no failure computes: the tables decide, at each
level, the first row that covers the point, and the slots are a cached lookup in
the tower of regions. -/

namespace WatershedOracle

open Effect

variable {γ : Type}

/-- The level that `n` coarser ones precede. -/
def Level.at? : Nat → Option Level
  | 0 => some .huc2
  | 1 => some .huc4
  | 2 => some .huc6
  | 3 => some .huc8
  | 4 => some .huc10
  | 5 => some .huc12
  | 6 => some .huc14
  | 7 => some .huc16
  | _ => none

theorem Level.at?_eq_some {n : Nat} {level : Level} (next : level.index = n) :
    Level.at? n = some level := by
  subst next
  cases level <;> rfl

theorem Level.index_of_at? {n : Nat} {level : Level} (isLevel : Level.at? n = some level) :
    level.index = n := by
  unfold Level.at? at isLevel
  split at isLevel <;> cases isLevel <;> rfl

/-- The characters that the codes below a stack of regions must start with. -/
def patternBelow : List (Region γ) → Bytes
  | [] => []
  | parent :: rest => parent.huc.toList.take (2 * (rest.length + 1))

theorem codeBelow_eq_patternBelow (list : List (Watershed γ)) :
    codeBelow list = patternBelow (list.map Watershed.region) := by
  cases list with
  | nil => rfl
  | cons w rest => simp only [codeBelow, List.map_cons, patternBelow, List.length_map]; rfl

def coveredAt (env : Externals γ) (point : γ) (r : Region γ) : Bool :=
  env.covers 0 r.geom point == 1

/-- The region of a row that the envelope test lets through and that covers the point. -/
def hit (env : Externals γ) (point : γ) (row : Row) : Option (Region γ) :=
  if (EnvelopeXY.ofShape row.shape).misses (env.boundsOf point) then none
  else (row.region? env).filter (coveredAt env point)

/-- The region that the tables give first below a stack. -/
def firstHit (env : Externals γ) (point : γ) (stack : List (Region γ)) : Option (Region γ) :=
  (Level.at? stack.length).bind fun level =>
    (env.rows 0 (level.query (patternBelow stack))).findSome? (hit env point)

/-- The stack stands under this point, with the bounds of this point. -/
structure WatershedStack.Asks (stack : WatershedStack γ) (env : Externals γ) (point : γ) :
    Prop where
  at_ : ∃ addr, stack.point = some ⟨addr, point⟩
  bounds : stack.pointBounds = env.boundsOf point

theorem WatershedStack.Asks.same {before after : WatershedStack γ} {env : Externals γ} {point : γ}
    (asks : before.Asks env point) (same : SameRequest before after) : after.Asks env point := by
  obtain ⟨addr, at_⟩ := asks.at_
  exact ⟨⟨addr, same.1.trans at_⟩, same.2.1.trans asks.bounds⟩

theorem WatershedStack.asking_asks (stack : WatershedStack γ) (requestId : Int)
    (env : Externals γ) (point : GeomPtr γ) :
    (stack.asking requestId env point).Asks env point.geom :=
  ⟨⟨point.addr, rfl⟩, rfl⟩

section Hits

variable {env : Externals γ} {stack : WatershedStack γ} {point : γ} {row : Row}

theorem hit_of_inspected_none (steady : env.Steady) (asks : stack.Asks env point)
    (judged : Inspected env stack row none) : hit env point row = none := by
  unfold hit
  cases judged with
  | skipped misses => rw [if_pos (by rw [← asks.bounds]; exact misses)]
  | outside now geom at' meets read isAt apart =>
    obtain ⟨addr, at_⟩ := asks.at_
    obtain rfl : at' = ⟨addr, point⟩ := Option.some.inj (isAt.symm.trans at_)
    rw [if_neg (by rw [← asks.bounds, meets]; simp)]
    have outside : env.covers 0 geom point ≠ 1 := steady now geom point ▸ apart
    unfold Row.region?
    rw [read]
    split
    · rename_i isSome
      cases isSome
      split <;> simp [coveredAt, outside]
    · rfl

theorem hit_of_inspected_some (steady : env.Steady) (asks : stack.Asks env point)
    {w : Watershed γ} (built : BuiltFrom row w) (judged : Inspected env stack row (some w.geom)) :
    hit env point row = some w.region := by
  obtain ⟨read, meets, now, at', isAt, covers⟩ := inspected_inside judged
  obtain ⟨addr, at_⟩ := asks.at_
  obtain rfl : at' = ⟨addr, point⟩ := Option.some.inj (isAt.symm.trans at_)
  unfold hit
  rw [if_neg (by rw [← asks.bounds, meets]; simp), builtFrom_region built read]
  have inside : env.covers 0 w.geom.geom point = 1 := steady now _ _ ▸ covers
  simp [coveredAt, Watershed.region, inside]

end Hits

section Refinement

variable {env : Externals γ} {d : Dataset} {point : γ}

theorem firstHit_at (ordered : env.Ordered) {list : List (Watershed γ)} {level : Level}
    (next : level.index = list.length) (now : Nat) :
    firstHit env point (list.map Watershed.region) =
      (env.rows now (level.query (codeBelow list))).findSome? (hit env point) := by
  unfold firstHit
  rw [Level.at?_eq_some (by rwa [List.length_map]), Option.bind_some,
    ← codeBelow_eq_patternBelow, ordered now]

/-- A search that returns has found what the tables give first. -/
theorem searchBelow_found (ordered : env.Ordered) (steady : env.Steady) {m m' : Machine γ}
    {list : List (Watershed γ)} {level : Level} {w : Watershed γ}
    (asks : m.stack.Asks env point) (next : level.index = list.length)
    (searched : (searchBelow env level list).run m = .ok w m') :
    firstHit env point (list.map Watershed.region) = some w.region := by
  obtain ⟨_, now, row, before, after, split, built, judged, missed⟩ :=
    (search_ends env _ _ _ m).returned searched
  have earlier : before.findSome? (hit env point) = none := by
    rw [List.findSome?_eq_none_iff]
    exact fun other member => hit_of_inspected_none steady asks (missed other member)
  have rows : env.rows now (level.query (codeBelow list)) = before ++ row :: after := split
  rw [firstHit_at ordered next now, rows, List.findSome?_append, earlier, Option.none_or,
    List.findSome?_cons, hit_of_inspected_some steady asks built judged]

/-- A search reports that there is no region only when the tables give none. -/
theorem searchBelow_absent (ordered : env.Ordered) (steady : env.Steady) {m m' : Machine γ}
    {list : List (Watershed γ)} {level : Level} (asks : m.stack.Asks env point) (next : level.index = list.length)
    (searched : (searchBelow env level list).run m = .error (.error .pointNotInDataset) m') :
    firstHit env point (list.map Watershed.region) = none := by
  obtain ⟨now, missed⟩ := ((search_ends env _ _ _ m).failed searched).2 rfl
  rw [firstHit_at ordered next now, List.findSome?_eq_none_iff]
  exact fun row member => hit_of_inspected_none steady asks (missed row member)

/-- Below a linked stack the characters are the whole code of its finest region. -/
theorem patternBelow_linked (hosts : Hosts env d) {stack : List (Region γ)}
    (linked : (regions env d.listed).Linked stack) :
    (∀ parent ∈ stack.head?, patternBelow stack = parent.code) ∧ IsDigits (patternBelow stack) := by
  cases linked with
  | nil => simp [patternBelow, IsDigits]
  | @cons r rest child below =>
    have whole : patternBelow (r :: rest) = r.code := region_prefix hosts.serves child.1
    obtain ⟨_, _, isCode, _⟩ := region_code hosts.serves child.1
    exact ⟨by simpa using whole, whole ▸ isCode.digits⟩

/-- What the tables give first below a linked stack lies there and covers the point. -/
theorem firstHit_child (hosts : Hosts env d) {stack : List (Region γ)} {r : Region γ}
    (linked : (regions env d.listed).Linked stack) (found : firstHit env point stack = some r) :
    (regions env d.listed).Child r stack ∧ (regions env d.listed).covers r point := by
  unfold firstHit at found
  obtain ⟨level, isLevel, found⟩ := Option.bind_eq_some_iff.mp found
  obtain ⟨row, member, isHit⟩ := List.exists_of_findSome?_eq_some found
  have at_ := Level.index_of_at? isLevel
  unfold hit at isHit
  split at isHit
  · cases isHit
  · obtain ⟨read, covers⟩ := Option.filter_eq_some_iff.mp isHit
    obtain ⟨pattern, digits⟩ := patternBelow_linked hosts linked
    have listed := hosts.mem _ _ _ _ digits member
    have isRegion : (regions env d.listed).region level.index r := ⟨level, row, rfl, listed, read⟩
    refine ⟨⟨at_ ▸ isRegion, ?_⟩, beq_iff_eq.mp covers⟩
    intro parent isHead
    obtain ⟨code, isSome, isCode⟩ := d.coded level row listed
    have begins := (hosts.like 0 level _ row code digits listed isSome).mp member
    rw [pattern parent isHead] at begins
    change parent.code <+: r.code
    rwa [show r.code = code from region_row_code isSome isCode read]

/-- The tables are a sound and complete search in the tower of their regions. -/
theorem firstHit_finds (hosts : Hosts env d) (boxed : Boxed env d) (point : γ) :
    Tower.Finds (regions env d.listed) point (firstHit env point) where
  sound stack r linked found := firstHit_child hosts linked found
  complete stack r linked absent child covers := by
    obtain ⟨level, row, at_, member, read⟩ := child.1
    obtain ⟨code, isSome, isCode⟩ := d.coded level row member
    have own : r.code = code := region_row_code isSome isCode read
    obtain ⟨pattern, digits⟩ := patternBelow_linked hosts linked
    have begins : patternBelow stack <+: code := by
      cases stack with
      | nil => exact List.nil_prefix
      | cons parent rest =>
        rw [pattern parent (by simp)]
        exact own ▸ child.2 parent (by simp)
    have served := (hosts.like 0 level _ row code digits member isSome).mpr begins
    have parsed := region_row_geom read
    have isHit : hit env point row = some r := by
      unfold hit
      have inside : env.covers 0 r.geom point = 1 := covers
      rw [if_neg (by rw [boxed.meets member parsed covers]; simp), read]
      simp [coveredAt, inside]
    rw [firstHit, Level.at?_eq_some at_, Option.bind_some, List.findSome?_eq_none_iff] at absent
    rw [absent row served] at isHit
    cases isHit

/-- The climb keeps what the point is still covered by. -/
theorem Revalidation.refines (steady : env.Steady) {m m' : Machine γ}
    {list kept : List (Watershed γ)} (climb : Revalidation env m list m' kept)
    (asks : m.stack.Asks env point) :
    kept.map Watershed.region =
      Tower.revalidate (coveredAt env point) (list.map Watershed.region) := by
  induction climb with
  | empty => rfl
  | vacant finer up ih => exact ih (asks.same (SameRequest.setSlot _ none _))
  | @covered m w rest at' isAt covers =>
    obtain ⟨addr, at_⟩ := asks.at_
    obtain rfl : at' = ⟨addr, point⟩ := Option.some.inj (isAt.symm.trans at_)
    have inside : coveredAt env point w.region = true :=
      beq_iff_eq.mpr ((steady _ _ _).symm.trans covers)
    rw [List.map_cons, Tower.revalidate_cons_of_covers _ _ _ inside]
  | @uncovered m m' w rest kept level at' isTop isAt apart up ih =>
    obtain ⟨addr, at_⟩ := asks.at_
    obtain rfl : at' = ⟨addr, point⟩ := Option.some.inj (isAt.symm.trans at_)
    have outside : coveredAt env point w.region = false :=
      beq_eq_false_iff_ne.mpr fun covers => apart ((steady _ _ _).trans covers)
    rw [List.map_cons, Tower.revalidate_cons_of_not_covers _ _ _ outside]
    exact ih (asks.same (SameRequest.setSlot _ none _))

/-- A descent without failures goes where the tables lead. It succeeds when it has
filled every level it may, or all of them but the last two. -/
theorem Descent.refines (ordered : env.Ordered) (steady : env.Steady) {m : Machine γ}
    {list final : List (Watershed γ)} {result : EStateM.Result Fault (Machine γ) Unit}
    (run : Descent env m list result final) (asks : m.stack.Asks env point) (clean : Clean result) :
    final.map Watershed.region = Tower.descend (firstHit env point)
        (m.stack.depth - list.length) (list.map Watershed.region) ∧
      (Succeeds result ↔ final.length = m.stack.depth ∨ final.length = 6) := by
  induction run with
  | full isFull => simp [isFull, Tower.descend]
  | @failed m m' list level fault next room searched raised =>
    obtain rfl := (clean_error fault m').mp clean
    have absent := searchBelow_absent ordered steady asks next searched
    have ordinary : list.length ≠ 6 := fun six =>
      raised (Level.index_injective (next.trans six)) rfl
    refine ⟨(Tower.descend_of_none _ absent _).symm, ?_⟩
    simp only [succeeds_error, false_iff, not_or]
    omega
  | @optional m m' list next room searched =>
    have absent := searchBelow_absent ordered steady asks next searched
    refine ⟨(Tower.descend_of_none _ absent _).symm, ?_⟩
    simp only [succeeds_ok, true_iff]
    exact .inr next.symm
  | @found m m' list final level w result next room searched rest ih =>
    have same := stored_sameRequest searched
    have hitNow := searchBelow_found ordered steady asks next searched
    have deeper := ih (asks.same same) clean
    rw [same.depth] at deeper
    refine ⟨?_, deeper.2⟩
    have steps : m.stack.depth - list.length = m.stack.depth - (list.length + 1) + 1 := by omega
    rw [deeper.1, steps, Tower.descend_of_some _ hitNow, List.length_cons, List.map_cons]

/-- Where GEOS makes a geometry, an update descends below the cached regions that still
cover it. -/
theorem update_descends (steady : env.Steady) (newPoint : Point) {m : Machine γ}
    {list : List (Watershed γ)} (holds : m.stack.Holds list) {geom : γ}
    (made : env.geometryOf newPoint.location = some geom) :
    ∃ m' kept final, m'.stack.Asks env geom ∧ m'.stack.depth = m.stack.depth ∧
      m'.stack.Holds kept ∧ kept.map Watershed.region =
        Tower.revalidate (coveredAt env geom) (list.map Watershed.region) ∧
      Descent env m' kept ((update env newPoint).run m) final := by
  obtain ⟨m', kept, final, climb, run⟩ := update_climbs newPoint holds made
  have asks : (m.asking newPoint.requestId env geom).stack.Asks env geom :=
    WatershedStack.asking_asks m.stack _ env ⟨m.calls, geom⟩
  obtain ⟨keptHeld, _, same⟩ := climb.holds holds
  exact ⟨m', kept, final, asks.same same, same.depth, keptHeld, climb.refines steady asks, run⟩

/-- The stack after an update without failures is the cached lookup of its point. -/
theorem update_refines (ordered : env.Ordered) (steady : env.Steady) (newPoint : Point)
    {m : Machine γ} {list : List (Watershed γ)} (holds : m.stack.Holds list)
    (clean : Clean ((update env newPoint).run m)) :
    ∃ geom final, env.geometryOf newPoint.location = some geom ∧
      (endState ((update env newPoint).run m)).stack.Holds final ∧
      final.map Watershed.region = Tower.lookup (coveredAt env geom) (firstHit env geom)
        m.stack.depth (list.map Watershed.region) ∧
      (Succeeds ((update env newPoint).run m) ↔
        final.length = m.stack.depth ∨ final.length = 6) := by
  cases made : env.geometryOf newPoint.location with
  | none =>
    rw [update_refused newPoint m made] at clean
    obtain ⟨requestId, text | ⟨x, y⟩⟩ := newPoint <;> cases clean
  | some geom =>
    obtain ⟨m', kept, final, asks, depth, keptHeld, revalidated, run⟩ :=
      update_descends steady newPoint holds made
    obtain ⟨reached, succeeds⟩ := run.refines ordered steady asks clean
    refine ⟨geom, final, rfl, (run.holds keptHeld).1, ?_, ?_⟩
    · rw [reached, Tower.lookup, ← revalidated, List.length_map, depth]
    · rw [← depth]
      exact succeeds

end Refinement

end WatershedOracle
