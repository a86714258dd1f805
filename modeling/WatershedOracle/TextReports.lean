import WatershedOracle.LineFaults
import WatershedOracle.Session

set_option autoImplicit false

/-! A session without --json: the text that is printed for each point, and nothing for the
points that lie outside the dataset. -/

namespace WatershedOracle

open Effect

variable {γ : Type}

/-! ### The text of a stack -/

/-- The line of a region: its code, filled up with spaces to sixteen characters, and its
name. -/
def Region.line (r : Region γ) : Bytes :=
  r.code ++ List.replicate (16 - r.code.length) 32 ++ Zig.ascii " : " ++ r.name ++ [Nmea.lineFeed]

/-- The text for a point and the regions it was found in, from the coarsest to the finest. -/
def reportOf (env : Externals γ) (point : γ) (found : List (Region γ)) : Bytes :=
  Zig.ascii "Point of interest: " ++ env.wktWriter point ++ [Nmea.lineFeed] ++
    (Zig.ascii "Watershed stack:\n" ++ found.flatMap Region.line)

theorem flatMap_option {α β δ : Type} (f : α → Option β) (g : β → List δ) (l : List α) :
    (l.flatMap fun a => ((f a).map g).getD []) = (l.filterMap f).flatMap g := by
  induction l with
  | nil => rfl
  | cons a rest ih =>
    rw [List.flatMap_cons, ih]
    cases known : f a with
    | none =>
      rw [List.filterMap_cons_none known]
      rfl
    | some b =>
      rw [List.filterMap_cons_some known, List.flatMap_cons]
      rfl

/-- The regions that a stack holds, from the coarsest to the finest. -/
def WatershedStack.found (stack : WatershedStack γ) : List (Region γ) :=
  (Level.all.filterMap stack.slot).map Watershed.region

section Stack

variable {env : Externals γ} {listed : Level → Row → Prop} {stack : WatershedStack γ}
variable {list : List (Watershed γ)}

theorem WatershedStack.Holds.occupied (holds : stack.Holds list) :
    Level.all.filterMap stack.slot = list.reverse := by
  rw [← holds.cached_eq, WatershedStack.cached, List.reverse_reverse]

theorem WatershedStack.Holds.found (holds : stack.Holds list) :
    stack.found = (list.map Watershed.region).reverse := by
  rw [WatershedStack.found, holds.occupied, List.map_reverse]

/-- Every code in a linked stack begins the finer ones. -/
theorem Linked.codes {regionsBelow : List (Region γ)}
    (linked : (regions env listed).Linked regionsBelow) :
    regionsBelow.Pairwise fun fine coarse => coarse.code <+: fine.code := by
  induction linked with
  | nil => exact .nil
  | @cons r rest child linked ih =>
    refine .cons ?_ ih
    intro coarse member
    cases rest with
    | nil => cases member
    | cons parent others =>
      have begins : parent.code <+: r.code := child.2 parent rfl
      rcases List.mem_cons.mp member with rfl | further
      · exact begins
      · exact (List.rel_of_pairwise_cons ih further).trans begins

/-- What `printStack` writes for one slot. -/
def Watershed.line (w : Watershed γ) : Bytes :=
  w.huc.toList ++ Zig.ascii " : " ++ w.name.bytes ++ [Nmea.lineFeed]

theorem Stacked.line (serves : Serves env listed) (stacked : Stacked env listed stack list)
    {w : Watershed γ} (member : w ∈ list) : w.line = w.region.line := by
  obtain ⟨finer, coarser, rfl⟩ := List.append_of_mem member
  have linked : (regions env listed).Linked ((w :: coarser).map Watershed.region) :=
    stacked.2.suffix ⟨finer.map Watershed.region, by rw [List.map_append]⟩
  obtain ⟨level, _, _, fits, padded⟩ := region_code serves linked.child.1
  have huc : w.huc.toList = w.region.code ++ List.replicate (16 - w.region.code.length) 32 := by
    rw [← padHuc_toList w.region.code fits, ← padded]
    rfl
  rw [Watershed.line, huc]
  rfl

theorem printStack_slots (stack : WatershedStack γ) :
    printStack stack = Zig.ascii "Watershed stack:\n" ++
      (Level.all.filterMap stack.slot).flatMap Watershed.line := by
  rw [← flatMap_option, printStack]
  congr 1
  apply List.flatMap_congr
  intro level _
  cases stack.slot level <;> rfl

theorem Stacked.printStack (serves : Serves env listed) (stacked : Stacked env listed stack list) :
    printStack stack = Zig.ascii "Watershed stack:\n" ++ stack.found.flatMap Region.line := by
  rw [printStack_slots, WatershedStack.found, List.flatMap_map]
  congr 1
  apply List.flatMap_congr
  intro w member
  rw [stacked.1.occupied] at member
  exact stacked.line serves (List.mem_reverse.mp member)

end Stack

/-! ### One point -/

/-- The regions of a lookup: from huc2 down without a gap, each around the point and
registered under the one above it, until the greatest depth or no further one is left. -/
structure Found (env : Externals γ) (d : Dataset) (depth : Nat) (point : γ)
    (found : List (Region γ)) : Prop where
  some_ : found ≠ []
  around : ∀ (level : Level) r, found[level.index]? = some r → d.RegionAt env level r point
  chained : found.Pairwise fun coarse fine => coarse.code <+: fine.code
  fits : found.length ≤ depth
  whole : found.length < depth → ∀ (level : Level) r, level.index = found.length →
    d.RegionAt env level r point → ∀ last ∈ found.getLast?, ¬ last.code <+: r.code

/-- The text tells all regions of a point, and nothing of a point outside the dataset. -/
structure Reports (env : Externals γ) (d : Dataset) (depth : Nat) (point : γ)
    (report : Bytes) : Prop where
  outside : ¬ d.CoversAt env .huc2 point → report = []
  inside : d.CoversAt env .huc2 point →
    ∃ found, Found env d depth point found ∧ report = reportOf env point found

section Update

variable {env : Externals γ} {d : Dataset}

/-- What an update leaves when GEOS can read its point, whatever the slots held. -/
structure Settles (env : Externals γ) (d : Dataset) (geom : γ) (stack : WatershedStack γ)
    (list : List (Watershed γ)) : Prop where
  point : ∃ addr, stack.point = some ⟨addr, geom⟩
  stacked : Stacked env d.listed stack list
  covering : AllCover env geom list
  root : stack.valid = true ↔ d.CoversAt env .huc2 geom
  stuck : list.length < stack.depth →
    ∀ r, (regions env d.listed).Child r (list.map Watershed.region) → env.covers 0 r.geom geom ≠ 1

theorem update_settles (hosts : Hosts env d) (steady : env.Steady) (boxed : Boxed env d)
    (faultless : env.Faultless) (readable : d.Readable env)
    (nested : (regions env d.listed).Nested) {m : Machine γ} (covered : Covered env d.listed m)
    (newPoint : Point) {geom : γ} (asked : env.geometryOf newPoint.location = some geom) :
    Clean ((update env newPoint).run m) ∧
      (endState ((update env newPoint).run m)).stack.depth = m.stack.depth ∧
      ∃ list, Settles env d geom (endState ((update env newPoint).run m)).stack list := by
  obtain ⟨before, stacked, _⟩ := id covered
  have clean := update_clean hosts steady faultless readable newPoint stacked asked
  obtain ⟨geom', final, asked', finalHolds, reached, _⟩ :=
    update_refines hosts.order steady newPoint stacked.1 clean
  obtain rfl : geom = geom' := Option.some.inj (asked.symm.trans asked')
  obtain ⟨addr, same⟩ := update_request newPoint stacked.1 asked
  obtain ⟨list, stacked', covered'⟩ :=
    update_covered hosts.serves steady nested newPoint m covered
  obtain rfl : final = list := finalHolds.cached_eq.symm.trans stacked'.1.cached_eq
  have finds := firstHit_finds hosts boxed geom
  have depth : (endState ((update env newPoint).run m)).stack.depth = m.stack.depth :=
    update_depth newPoint stacked.1
  refine ⟨clean, depth, final, ⟨addr, same.1⟩, stacked', covered' _ same.1, ?_, ?_⟩
  · exact update_root hosts steady boxed nested newPoint stacked asked clean
  · intro short r child
    rw [depth] at short
    have fits : (before.map Watershed.region).length ≤ m.stack.depth := by
      rw [List.length_map]
      exact stacked.1.1
    rw [reached] at child
    rw [← List.length_map Watershed.region, reached] at short
    exact Tower.lookup_stuck finds stacked.2 fits short child

theorem Stacked.region_at (hosts : Hosts env d) {stack : WatershedStack γ}
    {list : List (Watershed γ)} (stacked : Stacked env d.listed stack list) {point : γ}
    (covering : AllCover env point list) {level : Level} {r : Region γ}
    (isAt : stack.found[level.index]? = some r) : d.RegionAt env level r point := by
  rw [stacked.1.found, ← List.map_reverse, List.getElem?_map] at isAt
  obtain ⟨w, occupied, rfl⟩ := Option.map_eq_some_iff.mp isAt
  have listed := covering w (List.mem_reverse.mp (List.mem_of_getElem? occupied))
  rw [← stacked.1.slot] at occupied
  exact ⟨(stacked.row hosts occupied).1, listed⟩

variable (hosts : Hosts env d) (steady : env.Steady) (boxed : Boxed env d)
variable (faultless : env.Faultless) (readable : d.Readable env)
variable (nested : (regions env d.listed).Nested)
include hosts steady boxed faultless readable nested

omit steady boxed faultless readable nested in
theorem Settles.found {geom : γ} {stack : WatershedStack γ} {list : List (Watershed γ)}
    (settles : Settles env d geom stack list) (valid : stack.valid = true) :
    Found env d stack.depth geom stack.found := by
  have stacked := settles.stacked
  have found := stacked.1.found
  have length : stack.found.length = list.length := by
    rw [found, List.length_reverse, List.length_map]
  have occupied := (stacked.chain hosts.serves).valid_iff.mp valid
  have some_ : 0 < list.length := (stacked.1.isSome .huc2).mp occupied
  constructor
  · exact List.ne_nil_of_length_pos (by omega)
  · intro level r
    exact stacked.region_at hosts settles.covering
  · rw [found, List.pairwise_reverse]
    exact Linked.codes stacked.2
  · rw [length]
    exact stacked.1.1
  · intro short level r next at_ last isLast begins
    rw [length] at short next
    rw [found, List.getLast?_reverse] at isLast
    have child : (regions env d.listed).Child r (list.map Watershed.region) := by
      constructor
      · obtain ⟨row, member, read⟩ := at_.row
        rw [List.length_map]
        exact ⟨level, row, next, member, read⟩
      · intro parent isParent
        obtain rfl : last = parent := Option.some.inj (isLast.symm.trans isParent)
        exact begins
    exact settles.stuck short r child at_.covers

theorem update_reports (floatText : FloatText) {m : Machine γ} (covered : Covered env d.listed m)
    (newPoint : Point) {geom : γ} (asked : env.geometryOf newPoint.location = some geom) :
    Clean ((update env newPoint).run m) ∧
      (endState ((update env newPoint).run m)).stack.depth = m.stack.depth ∧
      Reports env d m.stack.depth geom
        (answer env floatText false (endState ((update env newPoint).run m)).stack) := by
  obtain ⟨clean, depth, list, settles⟩ :=
    update_settles hosts steady boxed faultless readable nested covered newPoint asked
  refine ⟨clean, depth, ?_⟩
  rw [← depth]
  generalize (endState ((update env newPoint).run m)).stack = stack at settles
  have text : answer env floatText false stack =
      if stack.valid then printPoint env stack ++ printStack stack else [] := rfl
  rw [text]
  constructor
  · intro uncovered
    exact if_neg fun valid => uncovered (settles.root.mp valid)
  · intro isCovered
    have valid := settles.root.mpr isCovered
    obtain ⟨addr, at_⟩ := settles.point
    refine ⟨stack.found, settles.found hosts valid, ?_⟩
    rw [if_pos valid, settles.stacked.printStack hosts.serves, printPoint, at_]
    rfl

/-! ### A session -/

omit hosts steady boxed faultless readable nested in
variable (env) in
/-- The geometry that GEOS makes of a line, if the line has a point. -/
def placeOf (provider : PointProvider) (line : Bytes) : Option γ :=
  (readLine provider false line).toOption.join.bind fun point => env.geometryOf point.location

omit hosts steady boxed faultless readable nested in
variable (env) in
/-- The source reads the line, and GEOS its point. -/
def Located (provider : PointProvider) (line : Bytes) : Prop :=
  ∃ found, readLine provider false line = .ok found ∧
    ∀ point, found = some point → ∃ geom, env.geometryOf point.location = some geom

theorem mainLoop_text (floatText : FloatText) (provider : PointProvider) (lines : List Bytes)
    (located : ∀ line ∈ lines, Located env provider line) {m : Machine γ}
    (covered : Covered env d.listed m) :
    ∃ reports, (mainLoop env floatText provider false m lines).output = reports.flatten ∧
      (mainLoop env floatText provider false m lines).result = .ok () ∧
      List.Forall₂ (Reports env d m.stack.depth) (lines.filterMap (placeOf env provider))
        reports := by
  induction lines generalizing m with
  | nil => exact ⟨[], by rw [mainLoop_nil]; rfl, by rw [mainLoop_nil], .nil⟩
  | cons line rest ih =>
    obtain ⟨first, others⟩ := List.forall_mem_cons.mp located
    obtain ⟨found, read, places⟩ := first
    cases found with
    | none =>
      have nowhere : placeOf env provider line = none := by
        rw [placeOf, read]
        rfl
      rw [mainLoop_pass rest read, List.filterMap_cons_none nowhere]
      exact ih others covered
    | some point =>
      obtain ⟨geom, asked⟩ := places point rfl
      have place : placeOf env provider line = some geom := by
        rw [placeOf, read]
        exact asked
      obtain ⟨clean, depth, reported⟩ := update_reports hosts steady boxed faultless readable nested
        floatText covered point asked
      have kept := update_covered hosts.serves steady nested point m covered
      obtain ⟨reports, printed, ended, told⟩ := ih others kept
      rw [depth] at told
      rw [mainLoop_answer rest read clean, List.filterMap_cons_some place]
      refine ⟨_ :: reports, ?_, ended, .cons reported told⟩
      rw [Run.after_output, printed, List.flatten_cons]

/-- Without --json the output is a text for every line with a point, in their order, each
about its own point whatever the lines before it were. -/
theorem main_text (floatText : FloatText) (provider : PointProvider) (skip : Bool)
    (lines : List Bytes) (whole : ∀ line ∈ lines, Nmea.lineFeed ∉ line)
    (located : ∀ line ∈ lines, Located env provider line) :
    ∃ reports, (main env floatText provider false skip (terminated lines)).output =
        reports.flatten ∧
      (main env floatText provider false skip (terminated lines)).result = .ok () ∧
      List.Forall₂ (Reports env d (if skip then 6 else 8))
        (lines.filterMap (placeOf env provider)) reports := by
  rw [main, terminatedLines_terminated lines whole]
  exact mainLoop_text hosts steady boxed faultless readable nested floatText provider lines
    located (covered_init skip)

end Update

/-- A point inside the square, then one outside. -/
def twoPoints : List Bytes := [Zig.ascii "POINT(1 1)", Zig.ascii "POINT(3 1)"]

theorem twoPoints_located : ∀ line ∈ twoPoints, Located (squareWorld 6) .stdin line := by
  have made : ∀ line ∈ twoPoints,
      ((squareWorld 6).geometryOf (.wkt (line.takeWhile (· ≠ 0)))).isSome := by decide +kernel
  intro line member
  refine ⟨_, rfl, ?_⟩
  intro point same
  cases same
  exact Option.isSome_iff_exists.mp (made line member)

theorem main_text_squares :
    ∃ reports,
      (main (squareWorld 6) wholeText .stdin false true (terminated twoPoints)).output =
        reports.flatten ∧
      (main (squareWorld 6) wholeText .stdin false true (terminated twoPoints)).result = .ok () ∧
      List.Forall₂ (Reports (squareWorld 6) (squares 6) 6)
        (twoPoints.filterMap (placeOf (squareWorld 6) .stdin)) reports :=
  main_text (serve_hosts (squares 6) boxes) (serve_steady _ _) (squares_boxed 6)
    (serve_faultless _ _) (squares_readable 6) (squares_nested 6) wholeText .stdin true twoPoints
    (by decide +kernel) twoPoints_located

end WatershedOracle
