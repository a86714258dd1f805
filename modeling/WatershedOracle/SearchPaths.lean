import WatershedOracle.SearchCode
import WatershedOracle.TableFaults

set_option autoImplicit false

/-! The rows that the searches of one update come to. Where no call fails, they alone
decide whether the update trips a safety check. -/

namespace WatershedOracle

open Effect

variable {γ : Type} {env : Externals γ} {point : γ}

/-! ### Where the tables lead -/

/-- The stacks that the tables lead to: what still covers the point, then at each
level the first row below that covers it. -/
inductive Leads (env : Externals γ) (point : γ) (cached : List (Region γ)) :
    List (Region γ) → Prop
  | kept : Leads env point cached (Tower.revalidate (coveredAt env point) cached)
  | next {stack : List (Region γ)} {r : Region γ} (above : Leads env point cached stack)
      (first : firstHit env point stack = some r) : Leads env point cached (r :: stack)

section Leads

variable {cached : List (Region γ)}

theorem Leads.descend {stack : List (Region γ)} (leads : Leads env point cached stack)
    (room : Nat) : Leads env point cached (Tower.descend (firstHit env point) room stack) := by
  induction room generalizing stack with
  | zero => exact leads
  | succ room ih =>
    cases found : firstHit env point stack with
    | none => rwa [Tower.descend_of_none _ found]
    | some r =>
      rw [Tower.descend_of_some _ found]
      exact ih (leads.next found)

theorem Leads.eq_descend {stack : List (Region γ)} (leads : Leads env point cached stack) :
    ∃ room, stack.length = (Tower.revalidate (coveredAt env point) cached).length + room ∧
      stack = Tower.descend (firstHit env point) room
        (Tower.revalidate (coveredAt env point) cached) := by
  induction leads with
  | kept => exact ⟨0, rfl, rfl⟩
  | @next stack r above first ih =>
    obtain ⟨room, length, reached⟩ := ih
    refine ⟨room + 1, by rw [List.length_cons, length]; rfl, ?_⟩
    rw [Tower.descend_add, ← reached, Tower.descend_of_some _ first]
    rfl

theorem Leads.linked {d : Dataset} (hosts : Hosts env d) {stack : List (Region γ)}
    (leads : Leads env point cached stack) (linked : (regions env d.listed).Linked cached) :
    (regions env d.listed).Linked stack := by
  induction leads with
  | kept => exact linked.suffix (Tower.revalidate_suffix _ cached)
  | next above first ih => exact .cons (firstHit_child hosts ih first).1 ih

end Leads

/-- The rows of the search below a stack. -/
def rowsBelow (env : Externals γ) (stack : List (Region γ)) : List Row :=
  (Level.at? stack.length).elim [] fun level => env.rows 0 (level.query (patternBelow stack))

theorem rowsBelow_at {list : List (Watershed γ)} {level : Level}
    (next : level.index = list.length) :
    rowsBelow env (list.map Watershed.region) = env.rows 0 (level.query (codeBelow list)) := by
  rw [rowsBelow, Level.at?_eq_some (by rwa [List.length_map]), codeBelow_eq_patternBelow]
  rfl

/-- Below a linked stack SQLite returns rows of the dataset. -/
theorem rowsBelow_listed {d : Dataset} (hosts : Hosts env d) {stack : List (Region γ)}
    (linked : (regions env d.listed).Linked stack) {row : Row} (member : row ∈ rowsBelow env stack) :
    ∃ level, row ∈ d.table level := by
  unfold rowsBelow at member
  cases isLevel : Level.at? stack.length with
  | none =>
    rw [isLevel] at member
    cases member
  | some level =>
    rw [isLevel] at member
    exact ⟨level, hosts.mem 0 level _ row (patternBelow_linked hosts linked).2 member⟩

/-- Every row that the searches of an update come to, from the regions that were cached
before it down to `depth` levels, is `Good`. -/
def PathRows (env : Externals γ) (depth : Nat) (point : γ) (cached : List (Region γ))
    (Good : Row → Prop) : Prop :=
  ∀ stack, Leads env point cached stack → stack.length < depth →
    ∀ before row rest, rowsBelow env stack = before ++ row :: rest →
      (∀ other ∈ before, other.PassedOver env point (env.boundsOf point)) → Good row

/-- None of them trips a safety check. -/
def HarmlessPath (env : Externals γ) (depth : Nat) (point : γ) (cached : List (Region γ)) : Prop :=
  PathRows env depth point cached fun row => row.Harmless env point (env.boundsOf point)

/-- None of them has NULL for its name. -/
def NamedPath (env : Externals γ) (depth : Nat) (point : γ) (cached : List (Region γ)) : Prop :=
  PathRows env depth point cached fun row => row.name ≠ none

/-! ### What a descent comes to -/

theorem Descent.faults {m m' : Machine γ} {list final : List (Watershed γ)}
    {result : EStateM.Result Fault (Machine γ) Unit} (run : Descent env m list result final)
    {fault : Fault} (failed : result = .error fault m') : SearchFault fault := by
  induction run with
  | full => cases failed
  | failed next room searched raised =>
    cases failed
    exact (search_faults env _ _ _ _).failed searched
  | optional => cases failed
  | found next room searched rest ih => exact ih failed

/-- What a search below a list answers, read off the rows there. -/
theorem searchBelow_answers (ordered : env.Ordered) (steady : env.Steady) {m : Machine γ}
    {list : List (Watershed γ)} {level : Level} (asks : m.stack.Asks env point)
    (next : level.index = list.length) :
    Ends (searchBelow env level list) m
      (fun w _ => answerOf env point (env.boundsOf point)
        (rowsBelow env (list.map Watershed.region)) = .ok w.region)
      (fun fault _ => Refused env fault ∨ answerOf env point (env.boundsOf point)
        (rowsBelow env (list.map Watershed.region)) = .error fault) := by
  obtain ⟨addr, at_⟩ := asks.at_
  have answers := search_answers steady level.hucLevel level.tableName (codeBelow list) at_
  rw [ordered, asks.bounds] at answers
  rw [rowsBelow_at next]
  exact answers

/-- A search that returns has come to harmless rows only. -/
theorem searchBelow_harmless (ordered : env.Ordered) (steady : env.Steady) {m m' : Machine γ}
    {list : List (Watershed γ)} {level : Level} {w : Watershed γ}
    (asks : m.stack.Asks env point) (next : level.index = list.length)
    (searched : (searchBelow env level list).run m = .ok w m') :
    HarmlessRows env point (env.boundsOf point) (rowsBelow env (list.map Watershed.region)) := by
  apply (answerOf_calm_iff _).mp
  intro fault answered
  cases answered.symm.trans ((searchBelow_answers ordered steady asks next).returned searched)

/-- So has one that finds nothing. -/
theorem searchBelow_absent_harmless (ordered : env.Ordered) (steady : env.Steady)
    {m m' : Machine γ} {list : List (Watershed γ)} {level : Level}
    (asks : m.stack.Asks env point) (next : level.index = list.length)
    (searched : (searchBelow env level list).run m = .error (.error .pointNotInDataset) m') :
    HarmlessRows env point (env.boundsOf point) (rowsBelow env (list.map Watershed.region)) := by
  apply (answerOf_calm_iff _).mp
  intro fault answered
  rcases (searchBelow_answers ordered steady asks next).failed searched with refused | answered'
  · rcases refused.kind with impossible | ⟨_, impossible⟩ <;> cases impossible
  · cases answered.symm.trans answered'
    exact calm_error _

section Descent

variable {m : Machine γ} {list final : List (Watershed γ)}
  {result : EStateM.Result Fault (Machine γ) Unit}

/-- A descent that fails was refused a call, or fails as the rows on its path say. -/
theorem Descent.raised (ordered : env.Ordered) (steady : env.Steady)
    (run : Descent env m list result final) (asks : m.stack.Asks env point) {fault : Fault}
    {m' : Machine γ} (failed : result = .error fault m') :
    Refused env fault ∨ ∃ room,
      (Tower.descend (firstHit env point) room (list.map Watershed.region)).length <
          m.stack.depth ∧
        answerOf env point (env.boundsOf point) (rowsBelow env
          (Tower.descend (firstHit env point) room (list.map Watershed.region))) =
            .error fault := by
  induction run with
  | full => cases failed
  | @failed m n list level _ next room searched raised =>
    cases failed
    rcases (searchBelow_answers ordered steady asks next).failed searched with refused | answered
    · exact .inl refused
    · exact .inr ⟨0, by simpa [Tower.descend] using room, answered⟩
  | optional => cases failed
  | @found m n list final level w result next room searched rest ih =>
    have same := stored_sameRequest searched
    have first := searchBelow_found ordered steady asks next searched
    have later := ih (asks.same same) failed
    rw [same.depth, List.map_cons] at later
    apply later.imp_right
    rintro ⟨room, short, answered⟩
    exact ⟨room + 1, by rw [Tower.descend_of_some _ first]; exact ⟨short, answered⟩⟩

/-- A clean descent has come to harmless rows only. -/
theorem Descent.harmless (ordered : env.Ordered) (steady : env.Steady)
    (run : Descent env m list result final) (asks : m.stack.Asks env point)
    (clean : Clean result) (room : Nat)
    (short : (Tower.descend (firstHit env point) room (list.map Watershed.region)).length <
      m.stack.depth) :
    HarmlessRows env point (env.boundsOf point) (rowsBelow env
      (Tower.descend (firstHit env point) room (list.map Watershed.region))) := by
  induction run generalizing room with
  | @full m list isFull =>
    have suffix := Tower.descend_suffix (firstHit env point) room (list.map Watershed.region)
    have enough := suffix.length_le
    rw [List.length_map] at enough
    omega
  | @failed m n list level fault next _ searched raised =>
    obtain rfl := (clean_error fault n).mp clean
    rw [Tower.descend_of_none _ (searchBelow_absent ordered steady asks next searched)]
    exact searchBelow_absent_harmless ordered steady asks next searched
  | @optional m n list next _ searched =>
    rw [Tower.descend_of_none _ (searchBelow_absent ordered steady asks next searched)]
    exact searchBelow_absent_harmless ordered steady asks next searched
  | @found m n list final level w result next _ searched rest ih =>
    have same := stored_sameRequest searched
    have first := searchBelow_found ordered steady asks next searched
    cases room with
    | zero => exact searchBelow_harmless ordered steady asks next searched
    | succ room =>
      rw [Tower.descend_of_some _ first] at short ⊢
      apply ih (asks.same same) clean
      rwa [same.depth]

end Descent

/-! ### What an update comes to -/

/-- Neither SQLite nor the allocator ended the update. -/
def Unrefused {σ : Type} (result : EStateM.Result Fault σ Unit) : Prop :=
  ∀ fault s, result = .error fault s →
    fault ≠ .error .OutOfMemory ∧ ∀ e, fault ≠ .error (.sqlite e)

theorem Clean.unrefused {σ : Type} {result : EStateM.Result Fault σ Unit} (clean : Clean result) :
    Unrefused result := by
  rintro fault s rfl
  obtain rfl := (clean_error fault s).mp clean
  simp

section Update

variable {m : Machine γ} {list : List (Watershed γ)} {geom : γ}

/-- An update that fails was refused a call, or fails as the rows on its path say. -/
theorem update_raised (ordered : env.Ordered) (steady : env.Steady) (newPoint : Point)
    (holds : m.stack.Holds list) (made : env.geometryOf newPoint.location = some geom)
    {fault : Fault} {s : Machine γ} (failed : (update env newPoint).run m = .error fault s) :
    Refused env fault ∨ ∃ stack, Leads env geom (list.map Watershed.region) stack ∧
      stack.length < m.stack.depth ∧
      answerOf env geom (env.boundsOf geom) (rowsBelow env stack) = .error fault := by
  obtain ⟨m', kept, final, asks, depth, _, revalidated, run⟩ :=
    update_descends steady newPoint holds made
  have path := run.raised ordered steady asks failed
  rw [revalidated, depth] at path
  apply path.imp_right
  rintro ⟨room, short, answered⟩
  exact ⟨_, Leads.kept.descend room, short, answered⟩

theorem update_harmless (ordered : env.Ordered) (steady : env.Steady) (newPoint : Point)
    (holds : m.stack.Holds list) (made : env.geometryOf newPoint.location = some geom)
    (clean : Clean ((update env newPoint).run m)) :
    HarmlessPath env m.stack.depth geom (list.map Watershed.region) := by
  obtain ⟨m', kept, final, asks, depth, _, revalidated, run⟩ :=
    update_descends steady newPoint holds made
  intro stack leads short
  obtain ⟨room, _, rfl⟩ := leads.eq_descend
  have harmless := run.harmless ordered steady asks clean room
  rw [revalidated, depth] at harmless
  exact harmless short

/-- An update that trips a check has come to a row that is not harmless. -/
theorem update_calm (ordered : env.Ordered) (steady : env.Steady) (newPoint : Point)
    (holds : m.stack.Holds list) (made : env.geometryOf newPoint.location = some geom)
    (harmless : HarmlessPath env m.stack.depth geom (list.map Watershed.region))
    {fault : Fault} {s : Machine γ} (failed : (update env newPoint).run m = .error fault s) :
    Calm fault := by
  rcases update_raised ordered steady newPoint holds made failed with
    refused | ⟨stack, leads, short, answered⟩
  · exact refused.calm
  · exact (answerOf_calm_iff _).mpr (harmless stack leads short) fault answered

/-- An update that no failed call ends and that trips no check is clean. -/
theorem Unrefused.clean (newPoint : Point) (holds : m.stack.Holds list)
    (made : env.geometryOf newPoint.location = some geom)
    (unrefused : Unrefused ((update env newPoint).run m))
    (calm : ∀ check s, (update env newPoint).run m ≠ .error (.panic check) s) :
    Clean ((update env newPoint).run m) := by
  obtain ⟨_, _, _, _, descent⟩ := update_climbs newPoint holds made
  cases run : (update env newPoint).run m with
  | ok _ s => exact .success s
  | error fault s =>
    obtain ⟨memory, sqlite⟩ := unrefused fault s run
    apply (clean_error fault s).mpr
    cases descent.faults run with
    | tripped check => exact absurd run (calm check s)
    | memory => exact absurd rfl memory
    | sqlite e => exact absurd rfl (sqlite e)
    | outside => rfl

/-- An update that no failed call ends is clean exactly when every row that its searches
come to is harmless. -/
theorem update_clean_iff (ordered : env.Ordered) (steady : env.Steady) (newPoint : Point)
    (holds : m.stack.Holds list) (made : env.geometryOf newPoint.location = some geom)
    (unrefused : Unrefused ((update env newPoint).run m)) :
    Clean ((update env newPoint).run m) ↔
      HarmlessPath env m.stack.depth geom (list.map Watershed.region) := by
  constructor
  · exact update_harmless ordered steady newPoint holds made
  · intro harmless
    apply unrefused.clean newPoint holds made
    intro check s panicked
    exact not_calm_panic check
      (update_calm ordered steady newPoint holds made harmless panicked)

end Update

/-! ### Tables without faults of their own -/

/-- Every shape of the dataset is a header, an envelope and WKB that GEOS can parse. -/
def Dataset.Shaped (d : Dataset) (env : Externals γ) : Prop :=
  ∀ level, ∀ row ∈ d.table level, headerSize ≤ row.shape.length ∧
    env.wkbReader (row.shape.drop headerSize) ≠ none

theorem Dataset.Readable.shaped {d : Dataset} (readable : d.Readable env) : d.Shaped env := by
  intro level row member
  obtain ⟨_, _, geom, _, _, _, read⟩ := (readable level row member).columns
  exact ⟨(readable level row member).header, by rw [read]; exact Option.some_ne_none geom⟩

/-- Of a listed row whose shape can be read, only the name can be missing. -/
theorem Dataset.Shaped.harmless_iff {d : Dataset} (shaped : d.Shaped env) {level : Level}
    {row : Row} (member : row ∈ d.table level) (bounds : Bounds) :
    row.Harmless env point bounds ↔ row.name ≠ none := by
  obtain ⟨code, isCode, digits⟩ := d.coded level row member
  constructor
  · exact fun harmless => harmless.name
  · intro name
    refine ⟨by simp [isCode], name, fun _ => (shaped level row member).2, ?_⟩
    intro _ _ _ _ other isOther
    obtain rfl : code = other := Option.some.inj (isCode.symm.trans isOther)
    exact digits.fits

/-- Over rows whose headers can be read the only error is that no row covers. -/
theorem answerOf_whole {bounds : Bounds} {rows : List Row}
    (whole : ∀ row ∈ rows, headerSize ≤ row.shape.length) {e : ZigError}
    (answered : answerOf env point bounds rows = .error (.error e)) : e = .pointNotInDataset := by
  induction rows with
  | nil =>
    cases answered
    rfl
  | cons row rest ih =>
    obtain ⟨long, others⟩ := List.forall_mem_cons.mp whole
    rw [answerOf] at answered
    split at answered
    · rename_i judged
      cases answered
      unfold Row.judge at judged
      rw [if_neg (Nat.not_lt_of_le long)] at judged
      split at judged
      · cases judged
      · split at judged
        · cases judged
        · split at judged <;> cases judged
    · exact ih others answered
    · split at answered <;> cases answered

section Tables

variable {d : Dataset} {m : Machine γ} {list : List (Watershed γ)} {geom : γ}

theorem namedPath_iff (hosts : Hosts env d) (shaped : d.Shaped env) {depth : Nat}
    {cached : List (Region γ)} (linked : (regions env d.listed).Linked cached) :
    HarmlessPath env depth point cached ↔ NamedPath env depth point cached := by
  have rowwise : ∀ {stack : List (Region γ)}, Leads env point cached stack →
      ∀ row ∈ rowsBelow env stack,
        row.Harmless env point (env.boundsOf point) ↔ row.name ≠ none := by
    intro stack leads row member
    obtain ⟨level, listed⟩ := rowsBelow_listed hosts (leads.linked hosts linked) member
    exact shaped.harmless_iff listed _
  constructor
  · intro harmless stack leads short before row rest split passed
    exact (rowwise leads row (by simp [split])).mp (harmless stack leads short before row rest
      split passed)
  · intro named stack leads short before row rest split passed
    exact (rowwise leads row (by simp [split])).mpr (named stack leads short before row rest
      split passed)

/-- Without faults, over shapes that can be read, no failed call ends an update. -/
theorem update_unrefused (hosts : Hosts env d) (steady : env.Steady) (faultless : env.Faultless)
    (shaped : d.Shaped env) (newPoint : Point) (stacked : Stacked env d.listed m.stack list) :
    Unrefused ((update env newPoint).run m) := by
  intro fault s failed
  cases made : env.geometryOf newPoint.location with
  | none =>
    rw [update_refused newPoint m made] at failed
    cases failed
    cases newPoint.location <;> simp [PointLocation.failure]
  | some geom =>
    rcases update_raised hosts.order steady newPoint stacked.1 made failed with
      refused | ⟨stack, leads, _, answered⟩
    · exact absurd faultless refused.faulty
    · have whole : ∀ row ∈ rowsBelow env stack, headerSize ≤ row.shape.length := by
        intro row member
        obtain ⟨level, listed⟩ := rowsBelow_listed hosts (leads.linked hosts stacked.2) member
        exact (shaped level row listed).1
      cases fault with
      | panic check => simp
      | error e =>
        obtain rfl := answerOf_whole whole answered
        simp

/-- Without faults, over shapes that can be read, an update is clean exactly when every
row that its searches come to has a name. -/
theorem update_clean_iff_named (hosts : Hosts env d) (steady : env.Steady)
    (faultless : env.Faultless) (shaped : d.Shaped env) (newPoint : Point)
    (stacked : Stacked env d.listed m.stack list)
    (made : env.geometryOf newPoint.location = some geom) :
    Clean ((update env newPoint).run m) ↔
      NamedPath env m.stack.depth geom (list.map Watershed.region) := by
  rw [update_clean_iff hosts.order steady newPoint stacked.1 made
    (update_unrefused hosts steady faultless shaped newPoint stacked)]
  exact namedPath_iff hosts shaped stacked.2

/-- Over readable tables no path is without names. -/
theorem Dataset.Readable.named (readable : d.Readable env) (hosts : Hosts env d) {depth : Nat}
    {cached : List (Region γ)} (linked : (regions env d.listed).Linked cached) :
    NamedPath env depth point cached := by
  intro stack leads short before row rest split _
  obtain ⟨level, listed⟩ := rowsBelow_listed hosts (leads.linked hosts linked)
    (show row ∈ rowsBelow env stack by simp [split])
  obtain ⟨_, name, _, _, _, isName, _⟩ := (readable level row listed).columns
  simp [isName]

/-- Without faults, over readable tables, an update with a geometry is clean. -/
theorem update_clean (hosts : Hosts env d) (steady : env.Steady) (faultless : env.Faultless)
    (readable : d.Readable env) (newPoint : Point) (stacked : Stacked env d.listed m.stack list)
    (made : env.geometryOf newPoint.location = some geom) :
    Clean ((update env newPoint).run m) :=
  (update_clean_iff_named hosts steady faultless readable.shaped newPoint stacked made).mpr
    (readable.named hosts stacked.2)

/-- Without faults, over readable tables, every update is clean or has no geometry. -/
theorem update_clean_or_unmade (hosts : Hosts env d) (steady : env.Steady)
    (faultless : env.Faultless) (readable : d.Readable env) (newPoint : Point)
    (stacked : Stacked env d.listed m.stack list) :
    Clean ((update env newPoint).run m) ∨ env.geometryOf newPoint.location = none := by
  cases made : env.geometryOf newPoint.location with
  | none => exact .inr rfl
  | some geom => exact .inl (update_clean hosts steady faultless readable newPoint stacked made)

end Tables

end WatershedOracle
