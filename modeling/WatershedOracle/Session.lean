import WatershedOracle.Completeness
import WatershedOracle.Main

set_option autoImplicit false

/-! A session of JSON requests on the standard input: one answer line for each
request, about its own point whatever the requests before it were. -/

namespace WatershedOracle

open Effect

variable {γ : Type}

/-- GEOS makes a point of finite coordinates, whose bounding box is the point itself. -/
def Externals.PointsAt (env : Externals γ) : Prop :=
  ∀ x y : F64, x.isFinite → y.isFinite →
    ∃ geom, env.createPointFromXY x y = some geom ∧ env.boundsOf geom = ⟨x, x, y, y⟩

/-- `r` is read from a row of the level's table and covers the point. -/
structure Dataset.RegionAt (d : Dataset) (env : Externals γ) (level : Level) (r : Region γ)
    (point : γ) : Prop where
  row : ∃ row ∈ d.table level, row.region? env = some r
  covers : env.covers 0 r.geom point = 1

/-- What an answer says about a region. -/
def Region.member (r : Region γ) : Zig.Json.Node F64 :=
  .object [("name", .slice r.name), ("huc", .slice r.code)]

/-- `doc` answers `request`, whose point is `point`, and nothing else. -/
structure Answers (env : Externals γ) (d : Dataset) (request : PointJson) (point : γ)
    (doc : Zig.Json.Document F64) : Prop where
  requestId : ("requestId", .scalar (.integer request.requestId)) ∈ doc
  coordinates : ("point", .object [("WKT", .slice (env.wktWriter point)),
    ("longitude", .float request.longitude), ("latitude", .float request.latitude)]) ∈ doc
  flagged : ("pointNotInDataset", .scalar (.bool true)) ∈ doc ↔ ¬ d.CoversAt env .huc2 point
  outside : ¬ d.CoversAt env .huc2 point → ∀ (level : Level) node, (level.hucLevel, node) ∉ doc
  inside : d.CoversAt env .huc2 point → ∃ node, ("huc2", node) ∈ doc
  own : ∀ (level : Level) node, (level.hucLevel, node) ∈ doc →
    ∃ r, d.RegionAt env level r point ∧ node = r.member
  /-- No member is written twice. -/
  distinct : (doc.map Prod.fst).Nodup

/-! ### The members of a document -/

theorem Level.mem_all (level : Level) : level ∈ Level.all := by
  cases level <;> decide

theorem Level.hucLevel_injective {a b : Level} (same : a.hucLevel = b.hucLevel) : a = b := by
  cases a <;> cases b <;> first | rfl | exact absurd same (by decide)

theorem Level.hucLevel_ne (level : Level) :
    level.hucLevel ≠ "requestId" ∧ level.hucLevel ≠ "pointNotInDataset" ∧
      level.hucLevel ≠ "point" := by
  cases level <;> decide

section Document

variable (env : Externals γ) (stack : WatershedStack γ)

theorem document_keys :
    List.Sublist ((document env stack).map Prod.fst)
      (["requestId", "pointNotInDataset", "point"] ++ Level.all.map Level.hucLevel) := by
  have hucs : List.Sublist
      ((Level.all.filterMap fun level => (stack.slot level).map (hucMember level)).map Prod.fst)
      (Level.all.map Level.hucLevel) := by
    induction Level.all with
    | nil => exact List.nil_sublist _
    | cons level rest ih =>
      cases occupied : stack.slot level with
      | none => simpa [occupied] using ih.cons level.hucLevel
      | some w => simpa [occupied, hucMember] using ih
  simp only [document, List.map_append]
  refine List.Sublist.append ?_ hucs
  split <;> cases stack.point <;> simp [pointMember]

theorem document_distinct : ((document env stack).map Prod.fst).Nodup :=
  (document_keys env stack).nodup (by decide)

variable {env stack}

theorem mem_document_requestId :
    ("requestId", .scalar (.integer stack.requestId)) ∈ document env stack := by
  simp [document]

variable (env) in
theorem mem_document_point {point : GeomPtr γ} (at_ : stack.point = some point) :
    pointMember env stack point ∈ document env stack := by
  simp [document, at_]

theorem mem_document_flag :
    ("pointNotInDataset", .scalar (.bool true)) ∈ document env stack ↔ stack.valid = false := by
  cases isValid : stack.valid with
  | false => simp [document, isValid]
  | true =>
    have other : ∀ level : Level, level.hucLevel ≠ "pointNotInDataset" := fun level =>
      level.hucLevel_ne.2.1
    simp [document, isValid, pointMember, hucMember, other]

theorem hucMember_mem_document {level : Level} {w : Watershed γ}
    (occupied : stack.slot level = some w) : hucMember level w ∈ document env stack :=
  List.mem_append_right _ (List.mem_filterMap.mpr ⟨level, level.mem_all, by simp [occupied]⟩)

/-- A member under the name of a level comes from the slot of that level. -/
theorem slot_of_mem_document {level : Level} {node : Zig.Json.Node F64}
    (member : (level.hucLevel, node) ∈ document env stack) :
    ∃ w, stack.slot level = some w ∧ (level.hucLevel, node) = hucMember level w := by
  obtain ⟨notId, notFlag, notPoint⟩ := level.hucLevel_ne
  have inHucs : (level.hucLevel, node) ∈
      Level.all.filterMap fun level => (stack.slot level).map (hucMember level) := by
    simpa [document, pointMember, notId, notFlag, notPoint.symm] using member
  obtain ⟨level', _, isMember⟩ := List.mem_filterMap.mp inHucs
  obtain ⟨w, occupied, same⟩ := Option.map_eq_some_iff.mp isMember
  obtain rfl : level' = level := Level.hucLevel_injective (congrArg Prod.fst same)
  exact ⟨w, occupied, same.symm⟩

end Document

/-! ### One request -/

/-- The point that stdin.zig makes of a request. -/
def PointJson.asked (request : PointJson) : Point :=
  ⟨request.requestId, .xy request.longitude request.latitude⟩

section Request

variable {env : Externals γ} {d : Dataset}

/-- A cached watershed stands for a row of its own level. -/
theorem Stacked.row (hosts : Hosts env d) {stack : WatershedStack γ} {list : List (Watershed γ)}
    (stacked : Stacked env d.listed stack list) {level : Level} {w : Watershed γ}
    (occupied : stack.slot level = some w) :
    (∃ row ∈ d.table level, row.region? env = some w.region) ∧
      w.hucPrefix level.digits = w.region.code := by
  obtain ⟨finer, coarser, whole, length⟩ := stacked.1.split occupied
  have linked : (regions env d.listed).Linked ((w :: coarser).map Watershed.region) :=
    stacked.2.suffix ⟨finer.map Watershed.region, by rw [whole, List.map_append]⟩
  have isRegion := linked.child.1
  rw [List.length_map, length] at isRegion
  have code := region_prefix hosts.serves isRegion
  obtain ⟨level', row, at_, member, read⟩ := isRegion
  obtain rfl : level' = level := Level.index_injective at_
  exact ⟨⟨row, member, read⟩, code⟩

/-- A stack whose slots are about the point of the request answers the request. -/
theorem document_answers (hosts : Hosts env d) {stack : WatershedStack γ}
    {list : List (Watershed γ)} (stacked : Stacked env d.listed stack list) (request : PointJson)
    {point : GeomPtr γ} (sameId : stack.requestId = request.requestId)
    (at_ : stack.point = some point)
    (box : stack.pointBounds = ⟨request.longitude, request.longitude, request.latitude,
      request.latitude⟩)
    (covering : stack.Covering env)
    (root : stack.valid = true ↔ d.CoversAt env .huc2 point.geom) :
    Answers env d request point.geom (document env stack) where
  requestId := sameId ▸ mem_document_requestId
  coordinates := by
    have member := mem_document_point env at_
    simpa only [pointMember, box] using member
  flagged := by rw [mem_document_flag, ← root, Bool.not_eq_true]
  outside uncovered level node member := by
    obtain ⟨w, occupied, _⟩ := slot_of_mem_document member
    exact uncovered (root.mp (WatershedStack.valid_iff_slot.mpr ⟨level, by simp [occupied]⟩))
  inside covered := by
    obtain ⟨w, occupied⟩ := Option.isSome_iff_exists.mp
      ((stacked.chain hosts.serves).valid_iff.mp (root.mpr covered))
    have slot : stack.slot .huc2 = some w := occupied
    exact ⟨_, hucMember_mem_document slot⟩
  own level node member := by
    obtain ⟨w, occupied, same⟩ := slot_of_mem_document member
    obtain ⟨row, code⟩ := stacked.row hosts occupied
    refine ⟨w.region, ⟨row, covering point at_ level w occupied 0⟩, ?_⟩
    rw [(Prod.mk.inj same).2, code]
    rfl
  distinct := document_distinct env stack

/-- Whatever the slots held, the stack after a clean request is about its point. -/
theorem update_answers (hosts : Hosts env d) (steady : env.Steady) (boxed : Boxed env d)
    (nested : (regions env d.listed).Nested) {m : Machine γ} (covered : Covered env d.listed m)
    (request : PointJson) {geom : γ}
    (made : env.createPointFromXY request.longitude request.latitude = some geom)
    (box : env.boundsOf geom =
      ⟨request.longitude, request.longitude, request.latitude, request.latitude⟩)
    (clean : Clean ((update env request.asked).run m)) :
    Answers env d request geom
      (document env (endState ((update env request.asked).run m)).stack) := by
  obtain ⟨list, stacked, _⟩ := id covered
  have asked : env.geometryOf request.asked.location = some geom := made
  obtain ⟨addr, same⟩ := update_request request.asked stacked.1 asked
  obtain ⟨list', stacked', covered'⟩ :=
    update_covered hosts.serves steady nested request.asked m covered
  have covering : (endState ((update env request.asked).run m)).stack.Covering env := by
    intro point at_ level w occupied now
    rw [steady]
    rw [stacked'.1.slot] at occupied
    exact covered' point at_ w (List.mem_reverse.mp (List.mem_of_getElem? occupied))
  have root := update_root hosts steady boxed nested request.asked stacked asked clean
  exact document_answers hosts stacked' request same.2.2.1 same.1 (same.2.1.trans box) covering
    root

end Request

/-! ### A session -/

/-- The lines that `printJSON` writes for a list of documents. -/
def answerLines (floatText : FloatText) (docs : List (Zig.Json.Document F64)) : Bytes :=
  terminated (docs.map (Zig.Json.render floatText))

theorem answerLines_cons (floatText : FloatText) (doc : Zig.Json.Document F64)
    (docs : List (Zig.Json.Document F64)) :
    answerLines floatText (doc :: docs) =
      Zig.Json.render floatText doc ++ [Nmea.lineFeed] ++ answerLines floatText docs := by
  simp [answerLines, terminated, Lines.unlines_cons]

theorem lineFeed_notMem_of_printable {text : Bytes} (printable : Zig.Json.Printable text) :
    Nmea.lineFeed ∉ text :=
  fun member => absurd (printable _ member) (by decide)

/-- A line that holds a request is read as its point. -/
theorem readLine_request {line : Bytes} {request : PointJson}
    (isRequest : parsePointJson line = .ok request) :
    readLine .stdin true line = .ok (some request.asked) := by
  simp only [readLine, isRequest, ↓reduceIte]
  rfl

section Session

variable {env : Externals γ} {d : Dataset} {floatText : FloatText}

/-- The document answers the request about the point that GEOS makes of it. -/
def AnsweredBy (env : Externals γ) (d : Dataset) (request : PointJson)
    (doc : Zig.Json.Document F64) : Prop :=
  ∃ geom, env.createPointFromXY request.longitude request.latitude = some geom ∧
    Answers env d request geom doc

/-- One line of JSON for every request, in their order, each about its own point. -/
def Answered (env : Externals γ) (d : Dataset) (floatText : FloatText)
    (requests : List PointJson) (run : Run γ) : Prop :=
  ∃ docs, run.output = answerLines floatText docs ∧ run.result = .ok () ∧
    (∀ doc ∈ docs, Nmea.lineFeed ∉ Zig.Json.render floatText doc) ∧
    List.Forall₂ (AnsweredBy env d) requests docs

/-- No request of the session comes to a row without a name. The regions that a request finds
in the cache are those that the requests before it lead to, from `cached` on. -/
def NamedSession (env : Externals γ) (depth : Nat) :
    List (Region γ) → List PointJson → Prop
  | _, [] => True
  | cached, request :: rest =>
      ∀ geom, env.createPointFromXY request.longitude request.latitude = some geom →
        NamedPath env depth geom cached ∧
          NamedSession env depth
            (Tower.lookup (coveredAt env geom) (firstHit env geom) depth cached) rest

theorem namedSession_cons {depth : Nat} {cached : List (Region γ)} {request : PointJson}
    {rest : List PointJson} {geom : γ}
    (made : env.createPointFromXY request.longitude request.latitude = some geom) :
    NamedSession env depth cached (request :: rest) ↔
      NamedPath env depth geom cached ∧
        NamedSession env depth
          (Tower.lookup (coveredAt env geom) (firstHit env geom) depth cached) rest := by
  simp [NamedSession, made]

/-- Over readable tables no session comes to a row without a name. -/
theorem Dataset.Readable.namedSession (readable : d.Readable env) (hosts : Hosts env d)
    {depth : Nat} {cached : List (Region γ)} (linked : (regions env d.listed).Linked cached)
    (requests : List PointJson) : NamedSession env depth cached requests := by
  induction requests generalizing cached with
  | nil => trivial
  | cons request rest ih =>
    intro geom _
    have reached : (regions env d.listed).Linked
        (Tower.lookup (coveredAt env geom) (firstHit env geom) depth cached) :=
      (Leads.kept.descend _).linked hosts linked
    exact ⟨readable.named hosts linked, ih reached⟩

/-- What a clean request leaves in the cache is what its lookup leads to. -/
theorem asked_cached (hosts : Hosts env d) (steady : env.Steady) {m : Machine γ}
    (covered : Covered env d.listed m) (request : PointJson) {geom : γ}
    (made : env.createPointFromXY request.longitude request.latitude = some geom)
    (clean : Clean ((update env request.asked).run m)) :
    let stack := (endState ((update env request.asked).run m)).stack
    stack.depth = m.stack.depth ∧
      stack.cached.map Watershed.region = Tower.lookup (coveredAt env geom) (firstHit env geom)
        m.stack.depth (m.stack.cached.map Watershed.region) := by
  obtain ⟨list, stacked, _⟩ := covered
  obtain ⟨geom', final, made', holds, reached, _⟩ :=
    update_refines hosts.order steady request.asked stacked.1 clean
  obtain rfl : geom = geom' := Option.some.inj (made.symm.trans made')
  refine ⟨update_depth request.asked stacked.1, ?_⟩
  rw [holds.cached_eq, stacked.1.cached_eq, reached]

/-- A request is answered cleanly exactly when its searches come to named rows only. -/
theorem asked_clean_iff (hosts : Hosts env d) (steady : env.Steady) (faultless : env.Faultless)
    (shaped : d.Shaped env) {m : Machine γ} (covered : Covered env d.listed m)
    (request : PointJson) {geom : γ}
    (made : env.createPointFromXY request.longitude request.latitude = some geom) :
    Clean ((update env request.asked).run m) ↔
      NamedPath env m.stack.depth geom (m.stack.cached.map Watershed.region) := by
  obtain ⟨list, stacked, _⟩ := covered
  have asked : env.geometryOf request.asked.location = some geom := made
  rw [update_clean_iff_named hosts steady faultless shaped request.asked stacked asked,
    stacked.1.cached_eq]

section Loop

variable (hosts : Hosts env d) (steady : env.Steady) (boxed : Boxed env d)
variable (faultless : env.Faultless) (shaped : d.Shaped env) (points : env.PointsAt)
include hosts steady faultless shaped points

variable (floatText) in
/-- A loop that ends in order has come to named rows only. -/
theorem mainLoop_named (requests : List PointJson)
    (finite : ∀ request ∈ requests, request.longitude.isFinite ∧ request.latitude.isFinite)
    (lines : List Bytes) (parsed : lines.map parsePointJson = requests.map .ok)
    (nested : (regions env d.listed).Nested) {m : Machine γ} (covered : Covered env d.listed m)
    (ended : (mainLoop env floatText .stdin true m lines).result = .ok ()) :
    NamedSession env m.stack.depth (m.stack.cached.map Watershed.region) requests := by
  induction requests generalizing lines m with
  | nil => trivial
  | cons request requests ih =>
    obtain ⟨line, rest, rfl, isRequest, others⟩ := List.map_eq_cons_iff.mp parsed
    obtain ⟨first, later⟩ := List.forall_mem_cons.mp finite
    obtain ⟨geom, made, _⟩ := points _ _ first.1 first.2
    have read := readLine_request isRequest
    by_cases clean : Clean ((update env request.asked).run m)
    · rw [mainLoop_answer rest read clean, Run.after_result] at ended
      have named := ih later rest others
        (update_covered hosts.serves steady nested request.asked m covered) ended
      obtain ⟨depth, cached⟩ := asked_cached hosts steady covered request made clean
      rw [depth, cached] at named
      exact (namedSession_cons made).mpr
        ⟨(asked_clean_iff hosts steady faultless shaped covered request made).mp clean, named⟩
    · obtain ⟨fault, m', failed, other⟩ := not_clean clean
      rw [mainLoop_fail rest read failed other] at ended
      cases ended

include boxed

variable (floatText) in
/-- The loop over request lines answers each from the stack that the others left. -/
theorem mainLoop_session (nested : (regions env d.listed).Nested)
    (floats : ∀ x, Zig.Json.Printable (floatText x)) (requests : List PointJson)
    (finite : ∀ request ∈ requests, request.longitude.isFinite ∧ request.latitude.isFinite)
    (lines : List Bytes) (parsed : lines.map parsePointJson = requests.map .ok)
    {m : Machine γ} (covered : Covered env d.listed m)
    (named : NamedSession env m.stack.depth (m.stack.cached.map Watershed.region) requests) :
    Answered env d floatText requests (mainLoop env floatText .stdin true m lines) := by
  induction requests generalizing lines m with
  | nil =>
    obtain rfl : lines = [] := by simpa using parsed
    exact ⟨[], by rw [mainLoop_nil]; rfl, by rw [mainLoop_nil], by simp, .nil⟩
  | cons request requests ih =>
    obtain ⟨line, rest, rfl, isRequest, others⟩ := List.map_eq_cons_iff.mp parsed
    obtain ⟨first, later⟩ := List.forall_mem_cons.mp finite
    obtain ⟨geom, made, box⟩ := points _ _ first.1 first.2
    obtain ⟨own, remaining⟩ := (namedSession_cons made).mp named
    have clean := (asked_clean_iff hosts steady faultless shaped covered request made).mpr own
    have answers := update_answers hosts steady boxed nested covered request made box clean
    obtain ⟨depth, cached⟩ := asked_cached hosts steady covered request made clean
    rw [← cached, ← depth] at remaining
    obtain ⟨docs, printed, ended, _, answered⟩ := ih later rest others
      (update_covered hosts.serves steady nested request.asked m covered) remaining
    rw [mainLoop_answer rest (readLine_request isRequest) clean]
    refine ⟨_ :: docs, ?_, ended, ?_, .cons ⟨geom, made, answers⟩ answered⟩
    · rw [Run.after_output, printed, answerLines_cons]
      rfl
    · exact fun doc _ => lineFeed_notMem_of_printable (Zig.Json.render_printable floats doc)

/-- main answers every request line with one line of JSON, in their order, each about its
own point, exactly when no row is without a name that the searches come to. -/
theorem main_session_iff (nested : (d.rows env).Nested)
    (floats : ∀ x, Zig.Json.Printable (floatText x)) (skip : Bool) (lines : List Bytes)
    (requests : List PointJson) (whole : ∀ line ∈ lines, Nmea.lineFeed ∉ line)
    (parsed : lines.map parsePointJson = requests.map .ok)
    (finite : ∀ request ∈ requests, request.longitude.isFinite ∧ request.latitude.isFinite) :
    Answered env d floatText requests
        (main env floatText .stdin true skip (terminated lines)) ↔
      NamedSession env (if skip then 6 else 8) [] requests := by
  have levels := d.nested_regions nested
  have empty : Covered env d.listed ({ stack := .init skip } : Machine γ) := covered_init skip
  rw [main, terminatedLines_terminated lines whole]
  constructor
  · rintro ⟨docs, _, ended, _⟩
    exact mainLoop_named floatText hosts steady faultless shaped points requests finite lines
      parsed levels empty ended
  · exact mainLoop_session floatText hosts steady boxed faultless shaped points levels floats
      requests finite lines parsed empty

end Loop

end Session

/-- The text of small whole numbers, as std.fmt writes them. -/
def wholeText : FloatText
  | .finite value => Zig.Json.intText value.num ++ Zig.ascii "e0"
  | _ => Zig.ascii "nan"

theorem wholeText_printable (x : F64) : Zig.Json.Printable (wholeText x) := by
  have fixed : Zig.Json.Printable (Zig.ascii "e0") ∧ Zig.Json.Printable (Zig.ascii "nan") := by
    decide
  cases x with
  | finite value =>
    exact Zig.Json.printable_append.mpr ⟨Zig.Json.intText_printable _, fixed.1⟩
  | nan => exact fixed.2
  | negInf => exact fixed.2
  | posInf => exact fixed.2

theorem boxes_pointsAt (d : Dataset) : (d.serve boxes).PointsAt := by
  intro x y finiteX finiteY
  have proper : Bounds.Proper ⟨x, x, y, y⟩ := by
    cases x <;> cases y <;> simp_all [F64.isFinite]
    exact ⟨by simp [F64.le], by simp [F64.le]⟩
  exact ⟨⟨⟨x, x, y, y⟩, proper⟩, dif_pos proper, rfl⟩

theorem squares_pointsAt (deepest : Nat) : (squareWorld deepest).PointsAt := boxes_pointsAt _

/-- A request inside the square, then one outside without an id. -/
def twoRequests : List Bytes :=
  [Zig.ascii "\x7b\"requestId\":7,\"longitude\":1,\"latitude\":1\x7d",
    Zig.ascii "\x7b\"longitude\":3,\"latitude\":1\x7d"]

/-- Over the squares without their names main ends at the first request, and prints
nothing. -/
theorem main_session_fails :
    Hosts nullWorld nullSquares ∧ nullWorld.Steady ∧ Boxed nullWorld nullSquares ∧
      nullWorld.Faultless ∧ nullSquares.Shaped nullWorld ∧ nullWorld.PointsAt ∧
      (nullSquares.rows nullWorld).Nested ∧
      (twoRequests.take 1).map parsePointJson = [.ok ⟨7, .finite 1, .finite 1⟩] ∧
      ¬ Answered nullWorld nullSquares wholeText [⟨7, .finite 1, .finite 1⟩]
        (main nullWorld wholeText .stdin true true (terminated (twoRequests.take 1))) := by
  have parsed : (twoRequests.take 1).map parsePointJson = [.ok ⟨7, .finite 1, .finite 1⟩] := by
    decide +kernel
  refine ⟨serve_hosts _ _, serve_steady _ _, null_boxed, serve_faultless _ _, null_shaped,
    boxes_pointsAt _, null_nested, parsed, ?_⟩
  rintro ⟨docs, _, ended, _⟩
  obtain ⟨m', failed⟩ := null_trips
  rw [main, terminatedLines_terminated _ (by decide +kernel), twoRequests, List.take_succ_cons,
    mainLoop_fail _ (readLine_request (List.cons.inj parsed).1) failed (by simp)] at ended
  cases ended

theorem main_session_iff_squares :
    Answered (squareWorld 6) (squares 6) wholeText
        [⟨7, .finite 1, .finite 1⟩, ⟨0, .finite 3, .finite 1⟩]
        (main (squareWorld 6) wholeText .stdin true true (terminated twoRequests)) ∧
      NamedSession (squareWorld 6) 6 []
        [⟨7, .finite 1, .finite 1⟩, ⟨0, .finite 3, .finite 1⟩] := by
  have hosts := serve_hosts (squares 6) boxes
  have named : NamedSession (squareWorld 6) 6 []
      [⟨7, .finite 1, .finite 1⟩, ⟨0, .finite 3, .finite 1⟩] :=
    (squares_readable 6).namedSession hosts .nil _
  refine ⟨?_, named⟩
  exact (main_session_iff hosts (serve_steady _ _) (squares_boxed 6) (serve_faultless _ _)
    (squares_readable 6).shaped (squares_pointsAt 6) (squares_rows_nested 6 _)
    wholeText_printable true twoRequests _ (by decide +kernel) (by decide +kernel)
    (by decide)).mpr named

end WatershedOracle
