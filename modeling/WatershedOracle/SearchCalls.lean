import WatershedOracle.Lookup
import WatershedOracle.SearchCode

set_option autoImplicit false

/-! On which row a search comes to rest, when any call may fail: a walk over the rows
that knows, at each of them, the number of the next external call. -/

namespace WatershedOracle

open Effect

variable {γ : Type}

section Walk

variable (env : Externals γ) (point : γ) (bounds : Bounds)

/-- The three calls from `now` on step to the row, open its blob and read its header. -/
structure Row.Opens (now : Nat) (row : Row) : Prop where
  stepped : env.sqliteFails now = none
  huc : row.huc ≠ none
  name : row.name ≠ none
  opened : env.sqliteFails (now + 1) = none
  header : headerSize ≤ row.shape.length
  read : env.sqliteFails (now + 2) = none

/-- The envelope lets the query geometry through, and two further calls allocate and fill
a buffer of WKB that is parsed. -/
structure Row.Parses (now : Nat) (row : Row) (geom : γ) : Prop where
  opens : row.Opens env now
  meets : (EnvelopeXY.ofShape row.shape).misses bounds = false
  buffer : row.shape.length - headerSize ≠ 0 → env.allocates (now + 3) = true
  filled : env.sqliteFails (now + 4) = none
  parsed : env.wkbReader (row.shape.drop headerSize) = some geom

/-- What a row that is come to at call `now` gives, and the number of the call after it. -/
inductive Row.Takes (row : Row) (now : Nat) : Option γ → Nat → Prop
  | far (opens : row.Opens env now)
      (misses : (EnvelopeXY.ofShape row.shape).misses bounds = true) :
      Row.Takes row now none (now + 3)
  | apart {geom : γ} (parses : row.Parses env bounds now geom)
      (outside : env.covers (now + 6) geom point ≠ 1) : Row.Takes row now none (now + 7)
  | inside {geom : γ} (parses : row.Parses env bounds now geom)
      (covers : env.covers (now + 6) geom point = 1) : Row.Takes row now (some geom) (now + 7)

/-- The rows that are come to from call `now` on end with one that covers, whose geometry
is there before call `last`. -/
inductive RestsOn : Nat → List Row → Row → γ → Nat → Prop
  | here {now last : Nat} {row : Row} {rest : List Row} {geom : γ}
      (takes : row.Takes env point bounds now (some geom) last) :
      RestsOn now (row :: rest) row geom last
  | further {now next last : Nat} {row found : Row} {rest : List Row} {geom : γ}
      (takes : row.Takes env point bounds now none next)
      (rests : RestsOn next rest found geom last) : RestsOn now (row :: rest) found geom last

/-- The search for a query that starts at call `now` comes to rest on this row. -/
structure Query.RestsOn (query : Query) (now : Nat) (row : Row) (geom : γ) (last : Nat) :
    Prop where
  text : env.allocates now = true
  prepared : env.sqliteFails (now + 1) = none
  rests : WatershedOracle.RestsOn env point bounds (now + 3) (env.rows (now + 2) query) row geom last

end Walk

section Unique

variable {env : Externals γ} {point : γ} {bounds : Bounds} {row : Row} {now : Nat}

theorem Row.Parses.unique {one two : γ} (first : row.Parses env bounds now one)
    (second : row.Parses env bounds now two) : one = two :=
  Option.some.inj (first.parsed.symm.trans second.parsed)

theorem Row.Takes.unique {one two : Option γ} {next next' : Nat}
    (first : row.Takes env point bounds now one next)
    (second : row.Takes env point bounds now two next') : one = two ∧ next = next' := by
  cases first with
  | far opens misses =>
    cases second with
    | far => exact ⟨rfl, rfl⟩
    | apart parses => cases misses.symm.trans parses.meets
    | inside parses => cases misses.symm.trans parses.meets
  | apart parses outside =>
    cases second with
    | far opens misses => cases misses.symm.trans parses.meets
    | apart => exact ⟨rfl, rfl⟩
    | inside other covers =>
      obtain rfl := parses.unique other
      exact absurd covers outside
  | inside parses covers =>
    cases second with
    | far opens misses => cases misses.symm.trans parses.meets
    | apart other outside =>
      obtain rfl := parses.unique other
      exact absurd covers outside
    | inside other => exact ⟨by rw [parses.unique other], rfl⟩

theorem RestsOn.unique {rows : List Row} {one two : Row} {geom geom' : γ} {last last' : Nat}
    (first : RestsOn env point bounds now rows one geom last)
    (second : RestsOn env point bounds now rows two geom' last') : one = two ∧ last = last' := by
  induction first with
  | here takes =>
    cases second with
    | here takes' => exact ⟨rfl, (takes.unique takes').2⟩
    | further takes' => cases (takes.unique takes').1
  | further takes rests ih =>
    cases second with
    | here takes' => cases (takes.unique takes').1
    | further takes' rests' =>
      obtain ⟨_, rfl⟩ := takes.unique takes'
      exact ih rests'

theorem Query.RestsOn.unique {query : Query} {one two : Row} {geom geom' : γ} {last last' : Nat}
    (first : query.RestsOn env point bounds now one geom last)
    (second : query.RestsOn env point bounds now two geom' last') : one = two ∧ last = last' :=
  first.rests.unique second.rests

theorem Row.Takes.opens {found : Option γ} {next : Nat}
    (takes : row.Takes env point bounds now found next) : row.Opens env now := by
  cases takes with
  | far opens => exact opens
  | apart parses => exact parses.opens
  | inside parses => exact parses.opens

/-- A row that is not skipped has to be parsed. -/
theorem Row.Takes.parses {found : Option γ} {next : Nat}
    (takes : row.Takes env point bounds now found next)
    (meets : (EnvelopeXY.ofShape row.shape).misses bounds = false) :
    ∃ geom, row.Parses env bounds now geom := by
  cases takes with
  | far opens misses => cases misses.symm.trans meets
  | apart parses => exact ⟨_, parses⟩
  | inside parses => exact ⟨_, parses⟩

/-- A row is come to, read and left by later and later calls. -/
theorem Row.Takes.later {found : Option γ} {next : Nat}
    (takes : row.Takes env point bounds now found next) : now < next := by
  cases takes <;> omega

theorem RestsOn.later {rows : List Row} {geom : γ} {last : Nat}
    (rests : RestsOn env point bounds now rows row geom last) : now < last := by
  induction rests with
  | here takes => exact takes.later
  | further takes rests ih => exact Nat.lt_trans takes.later ih

end Unique

/-! ### The walk of the code -/

section Calls

variable {m : Machine γ}

theorem calls_sqliteCall (env : Externals γ) {Q : Unit → Machine γ → Prop}
    {E : Fault → Machine γ → Prop} (returns : env.sqliteFails m.calls = none → Q () m.ticked)
    (fails : ∀ fault, env.sqliteFails m.calls ≠ none → E fault m.ticked) :
    Ends (sqliteCall env) m Q E := by
  unfold sqliteCall
  rw [ends_bind, ends_tick]
  cases failed : env.sqliteFails m.calls with
  | none => exact returns failed
  | some code =>
    obtain ⟨code, e, raised⟩ := code
    simp only [raised, ends_ofExcept_error]
    exact fails _ (by simp [failed])

theorem calls_blobRead (env : Externals γ) (shape : Bytes) (size offset : Nat)
    {Q : Unit → Machine γ → Prop} {E : Fault → Machine γ → Prop}
    (returns : offset + size ≤ shape.length → env.sqliteFails m.calls = none → Q () m.ticked)
    (fails : ∀ fault m', (offset + size ≤ shape.length → env.sqliteFails m.calls ≠ none) →
      E fault m') : Ends (blobRead env shape size offset) m Q E := by
  unfold blobRead
  split
  · rename_i short
    exact fails _ _ fun enough => absurd enough (by omega)
  · rename_i enough
    exact calls_sqliteCall env (returns (by omega)) fun fault failed => fails fault _ fun _ => failed

theorem calls_alloc (env : Externals γ) (size : Nat) {Q : Nat → Machine γ → Prop}
    {E : Fault → Machine γ → Prop}
    (returns : (size ≠ 0 → env.allocates m.calls = true) → Q m.calls m.ticked)
    (fails : size ≠ 0 → env.allocates m.calls = false → E (.error .OutOfMemory) m.ticked) :
    Ends (alloc env size) m Q E := by
  unfold alloc
  rw [ends_bind, ends_tick]
  split
  · rename_i refused
    exact fails refused.1 refused.2
  · rename_i granted
    apply returns
    intro filled
    rw [← Bool.not_eq_false]
    exact fun denied => granted ⟨filled, denied⟩

variable {point : GeomPtr γ}

/-- Once the shape of a row is open, three calls after its step, a step goes on as the walk. -/
theorem inspectShape_takes (env : Externals γ) (row : Row) (at_ : m.stack.point = some point)
    (opens : row.Opens env m.calls) :
    Ends (inspectShape env row) m.ticked.ticked.ticked
      (fun found m' => row.Takes env point.geom m.stack.pointBounds m.calls
        (found.map GeomPtr.geom) m'.calls)
      (fun _ _ => ∀ found next,
        ¬ row.Takes env point.geom m.stack.pointBounds m.calls found next) := by
  unfold inspectShape
  rw [ends_bind, ends_get]
  split
  · rename_i misses
    exact .far opens misses
  · rename_i meets
    have meets : (EnvelopeXY.ofShape row.shape).misses m.stack.pointBounds = false := by
      simpa using meets
    have long := opens.header
    rw [if_neg (Nat.not_lt_of_le long)]
    simp only [ends_bind]
    apply calls_alloc env
    · intro buffer
      apply calls_blobRead env
      · intro _ filled
        cases parsed : env.wkbReader (row.shape.drop headerSize) with
        | none =>
          intro found next takes
          obtain ⟨geom, parses⟩ := takes.parses meets
          cases parsed.symm.trans parses.parsed
        | some geom =>
          have parses : row.Parses env m.stack.pointBounds m.calls geom :=
            ⟨opens, meets, buffer, filled, parsed⟩
          apply ends_askGeometry env geom
          · intro asked isAt covers
            obtain rfl : point = asked := Option.some.inj (at_.symm.trans isAt)
            exact .inside parses covers
          · intro asked isAt outside
            obtain rfl : point = asked := Option.some.inj (at_.symm.trans isAt)
            exact .apart parses outside
          · intro missing
            cases at_.symm.trans missing
      · intro fault m' failed found next takes
        obtain ⟨geom, parses⟩ := takes.parses meets
        exact failed (by omega) parses.filled
    · intro filled denied found next takes
      obtain ⟨geom, parses⟩ := takes.parses meets
      cases denied.symm.trans (parses.buffer filled)

/-- A step on a row makes the calls of the walk, and fails where the walk ends. -/
theorem searchStep_takes (env : Externals γ) (row : Row) (at_ : m.stack.point = some point) :
    Ends (searchStep env (some row)) m
      (fun found m' => row.Takes env point.geom m.stack.pointBounds m.calls
        (found.map GeomPtr.geom) m'.calls)
      (fun _ _ => ∀ found next,
        ¬ row.Takes env point.geom m.stack.pointBounds m.calls found next) := by
  unfold searchStep
  rw [ends_bind, ends_tick, ends_bind]
  cases stepped : env.sqliteFails m.calls with
  | some code =>
    obtain ⟨e, raised⟩ := stepCheck_failure code
    simp only [raised, ends_ofExcept_error]
    intro found next takes
    cases stepped.symm.trans takes.opens.stepped
  | none =>
    simp only [Option.isSome_some, ↓reduceIte, stepCheck, ends_ofExcept_ok, ends_bind]
    cases huc : row.huc with
    | none => exact fun found next takes => takes.opens.huc huc
    | some code =>
      cases name : row.name with
      | none => exact fun found next takes => takes.opens.name name
      | some text =>
        simp only [columnText, ends_pure]
        apply calls_sqliteCall env
        · intro opened
          apply calls_blobRead env
          · intro enough read
            exact inspectShape_takes env row at_
              ⟨stepped, by simp [huc], by simp [name], opened, by simpa using enough, read⟩
          · intro fault m' failed found next takes
            exact failed (by simpa using takes.opens.header) takes.opens.read
        · intro fault failed found next takes
          exact failed takes.opens.opened

/-- The loop comes to rest where the walk does, or nowhere. -/
theorem searchLoop_rests (env : Externals γ) (rows : List Row) (at_ : m.stack.point = some point) :
    Ends (searchLoop env rows) m
      (fun found m' => RestsOn env point.geom m.stack.pointBounds m.calls rows found.1
        found.2.geom m'.calls)
      (fun _ _ => ∀ row geom last,
        ¬ RestsOn env point.geom m.stack.pointBounds m.calls rows row geom last) := by
  induction rows generalizing m with
  | nil =>
    unfold searchLoop
    rw [ends_bind]
    apply (searchStep_done env m).mono
    · exact fun _ _ impossible => impossible.elim
    · intro fault m' _ row geom last rests
      cases rests
  | cons row rest ih =>
    unfold searchLoop
    rw [ends_bind]
    apply ((searchStep_row env row m).and (searchStep_takes env row at_)).mono
    · rintro (_ | geometry) m' ⟨⟨kept, _⟩, takes⟩
      · apply (ih (m := m') (by rw [kept]; exact at_)).mono
        · intro found m'' rests
          rw [kept] at rests
          exact .further takes rests
        · intro fault m'' nowhere found geom last rests
          rw [kept] at nowhere
          cases rests with
          | here takes' => cases (takes.unique takes').1
          | further takes' rests =>
            rw [← (takes.unique takes').2] at rests
            exact nowhere found geom last rests
      · exact .here takes
    · rintro fault m' ⟨_, nowhere⟩ found geom last rests
      cases rests with
      | here takes => exact nowhere _ _ takes
      | further takes rests => exact nowhere _ _ takes

/-- The first half of a search, as a walk over the rows of its statement. -/
theorem findRow_rests (env : Externals γ) (query : Query) (at_ : m.stack.point = some point) :
    Ends (findRow env query) m
      (fun found m' => query.RestsOn env point.geom m.stack.pointBounds m.calls found.1
        found.2.geom m'.calls)
      (fun _ _ => ∀ row geom last,
        ¬ query.RestsOn env point.geom m.stack.pointBounds m.calls row geom last) := by
  unfold findRow
  rw [ends_bind]
  apply calls_alloc env
  · intro text
    rw [ends_bind]
    apply calls_sqliteCall env
    · intro prepared
      rw [ends_bind, ends_tick]
      apply (searchLoop_rests env _ (m := m.ticked.ticked.ticked) at_).mono
      · intro found m' rests
        exact ⟨text (Nat.succ_ne_zero _), prepared, rests⟩
      · intro fault m' nowhere row geom last rests
        exact nowhere row geom last rests.rests
    · intro fault failed row geom last rests
      exact failed rests.prepared
  · intro _ denied row geom last rests
    cases denied.symm.trans rests.text

end Calls

/-! ### The row that is stored -/

section Columns

variable (env : Externals γ)

/-- The columns of the row can be stored, but the call to come allocates no memory. -/
structure NameUnallocated (row : Row) (now : Nat) : Prop where
  huc : ∃ code, row.huc = some code ∧ code.length ≤ 16
  name : ∃ name, row.name = some name ∧ name ≠ []
  refused : env.allocates now = false

/-- There is memory for the name of the row, or its name takes none. -/
def NameAllocated (row : Row) (now : Nat) : Prop :=
  row.name = some [] ∨ env.allocates now = true

variable {env} in
theorem NameUnallocated.not_allocated {row : Row} {now : Nat}
    (unallocated : NameUnallocated env row now) : ¬ NameAllocated env row now := by
  rintro (empty | granted)
  · obtain ⟨name, isName, filled⟩ := unallocated.name
    exact filled (Option.some.inj (isName.symm.trans empty))
  · cases granted.symm.trans unallocated.refused

/-- The second half of a search stores the region of the row. -/
theorem readColumns_region (row : Row) {newGeom : GeomPtr γ} {m : Machine γ}
    (parsed : env.wkbReader (row.shape.drop headerSize) = some newGeom.geom) :
    Ends (readColumns env row newGeom) m
      (fun w m' => row.region? env = some w.region ∧ NameAllocated env row m.calls ∧
        m'.calls = m.calls + 1)
      (fun fault _ => (row.region? env = none ∨ ¬ NameAllocated env row m.calls) ∧
        ((∃ e, fault = .error e) → NameUnallocated env row m.calls)) := by
  unfold readColumns Row.region?
  cases huc : row.huc with
  | none => exact ⟨.inl rfl, by simp⟩
  | some code =>
    simp only [columnText, ends_bind, ends_pure]
    cases name : row.name with
    | none =>
      split
      · exact ⟨.inl rfl, by simp⟩
      · exact ⟨.inl rfl, by simp⟩
    | some text =>
      simp only [parsed]
      split
      · simp only [ends_bind, ends_pure, ends_record]
        apply calls_alloc env
        · intro granted
          refine ⟨rfl, ?_, rfl⟩
          by_cases empty : text = []
          · exact .inl (by rw [name, empty])
          · exact .inr (granted (by simpa using empty))
        · rename_i fits
          intro filled denied
          have unallocated : NameUnallocated env row m.calls :=
            ⟨⟨code, huc, fits⟩, ⟨text, name, by simpa using filled⟩, denied⟩
          exact ⟨.inr unallocated.not_allocated, fun _ => unallocated⟩
      · exact ⟨.inl rfl, by simp⟩

variable (point : γ) (bounds : Bounds)

/-- The search for a query that starts at call `now` returns this region, and the next
call has that number. -/
def Query.Gives (query : Query) (now : Nat) (r : Region γ) (next : Nat) : Prop :=
  ∃ row geom last, query.RestsOn env point bounds now row geom last ∧
    row.region? env = some r ∧ NameAllocated env row last ∧ next = last + 1

/-- The search comes to a geometry that covers the point and then fails to allocate
the name, with no `errdefer` for the geometry. -/
def LosesGeometry (query : Query) (now : Nat) : Prop :=
  ∃ row geom last, query.RestsOn env point bounds now row geom last ∧ NameUnallocated env row last

/-- From call `now` on, the searches below a stack of regions come to one that loses a
geometry: the next one, or one below the region that the next one returns. -/
inductive Loses (depth : Nat) : Nat → List (Region γ) → Prop
  | here {now : Nat} {stack : List (Region γ)} {level : Level}
      (next : level.index = stack.length) (room : stack.length < depth)
      (loses : LosesGeometry env point bounds (level.query (patternBelow stack)) now) :
      Loses depth now stack
  | further {now later : Nat} {stack : List (Region γ)} {level : Level} {r : Region γ}
      (next : level.index = stack.length) (room : stack.length < depth)
      (gives : (level.query (patternBelow stack)).Gives env point bounds now r later)
      (deeper : Loses depth later (r :: stack)) : Loses depth now stack

end Columns

section Gives

variable {env : Externals γ} {point : γ} {bounds : Bounds} {query : Query} {now : Nat}

theorem RestsOn.parsed {rows : List Row} {row : Row} {geom : γ} {last : Nat}
    (rests : RestsOn env point bounds now rows row geom last) :
    env.wkbReader (row.shape.drop headerSize) = some geom := by
  induction rests with
  | here takes =>
    cases takes with
    | inside parses covers => exact parses.parsed
  | further takes rests ih => exact ih

theorem Query.Gives.unique {one two : Region γ} {next next' : Nat}
    (first : query.Gives env point bounds now one next)
    (second : query.Gives env point bounds now two next') : one = two ∧ next = next' := by
  obtain ⟨row, geom, last, rests, isRegion, _, rfl⟩ := first
  obtain ⟨row', geom', last', rests', isRegion', _, rfl⟩ := second
  obtain ⟨rfl, rfl⟩ := rests.unique rests'
  exact ⟨Option.some.inj (isRegion.symm.trans isRegion'), rfl⟩

theorem Query.Gives.keeps {r : Region γ} {next : Nat}
    (gives : query.Gives env point bounds now r next) : ¬ LosesGeometry env point bounds query now := by
  rintro ⟨row, geom, last, rests, unallocated⟩
  obtain ⟨row', geom', last', rests', _, allocated, _⟩ := gives
  obtain ⟨rfl, rfl⟩ := rests.unique rests'
  exact unallocated.not_allocated allocated

/-- One search decides whether it loses a geometry or leaves that to the searches below. -/
theorem loses_iff {depth : Nat} {stack : List (Region γ)} {level : Level}
    (next : level.index = stack.length) (room : stack.length < depth) :
    Loses env point bounds depth now stack ↔
      LosesGeometry env point bounds (level.query (patternBelow stack)) now ∨
        ∃ r later, (level.query (patternBelow stack)).Gives env point bounds now r later ∧
          Loses env point bounds depth later (r :: stack) := by
  constructor
  · intro loses
    cases loses with
    | @here _ _ other next' _ loses =>
      obtain rfl : level = other := Level.index_injective (next.trans next'.symm)
      exact .inl loses
    | @further _ later _ other r next' _ gives deeper =>
      obtain rfl : level = other := Level.index_injective (next.trans next'.symm)
      exact .inr ⟨r, later, gives, deeper⟩
  · rintro (loses | ⟨r, later, gives, deeper⟩)
    · exact .here next room loses
    · exact .further next room gives deeper

/-- Only a refused allocation loses a geometry. -/
theorem Loses.refused {depth : Nat} {stack : List (Region γ)}
    (loses : Loses env point bounds depth now stack) :
    ∃ last, now < last ∧ env.allocates last = false := by
  induction loses with
  | @here now stack level next room loses =>
    obtain ⟨row, geom, last, rests, unallocated⟩ := loses
    have walked := rests.rests.later
    exact ⟨last, by omega, unallocated.refused⟩
  | @further now later stack level r next room gives deeper ih =>
    obtain ⟨row, geom, last, rests, _, _, rfl⟩ := gives
    obtain ⟨refused, after_, denied⟩ := ih
    have walked := rests.rests.later
    exact ⟨refused, by omega, denied⟩

end Gives

/-- A search returns what the walk gives, and fails where the walk gives nothing. -/
theorem search_gives (env : Externals γ) (hucLevel tableName : String) (likePattern : Bytes)
    {m : Machine γ} {point : GeomPtr γ} (at_ : m.stack.point = some point) :
    Ends (search env hucLevel tableName likePattern) m
      (fun w m' => Query.Gives env point.geom m.stack.pointBounds
        ⟨hucLevel, tableName, likePattern⟩ m.calls w.region m'.calls)
      (fun _ _ => ∀ r next, ¬ Query.Gives env point.geom m.stack.pointBounds
        ⟨hucLevel, tableName, likePattern⟩ m.calls r next) := by
  rw [search_eq, ends_bind, ends_record, ends_bind]
  let asked := m.recorded (.searched ⟨hucLevel, tableName, likePattern⟩)
  apply (findRow_rests env ⟨hucLevel, tableName, likePattern⟩ (m := asked) at_).mono
  · rintro ⟨row, newGeom⟩ m' rests
    have parsed := rests.rests.parsed
    apply (readColumns_region env row parsed).mono
    · rintro w m'' ⟨isRegion, allocated, later⟩
      exact ⟨row, newGeom.geom, m'.calls, rests, isRegion, allocated, later⟩
    · rintro fault m'' ⟨unstored, _⟩ r next ⟨row', geom', last, rests', isRegion, allocated, _⟩
      obtain ⟨rfl, rfl⟩ := rests'.unique rests
      rcases unstored with absent | unallocated
      · cases absent.symm.trans isRegion
      · exact unallocated allocated
  · rintro fault m' nowhere r next ⟨row, geom, last, rests, _⟩
    exact nowhere row geom last rests

end WatershedOracle
