import WatershedOracle.SearchSpec

set_option autoImplicit false

/-! What a search is made of: calls, records, looks at the stack and failures of its
own kinds. What holds of each of these holds of a search. -/

namespace WatershedOracle

open Effect

variable {γ : Type}

/-- The ways in which a search fails. -/
inductive SearchFault : Fault → Prop
  | tripped (check : SafetyCheck) : SearchFault (.panic check)
  | memory : SearchFault (.error .OutOfMemory)
  | sqlite (e : SqliteError) : SearchFault (.error (.sqlite e))
  | outside : SearchFault (.error .pointNotInDataset)

/-- The query of a search that an event records. -/
def Event.query? : Event → Option Query
  | .searched query => some query
  | _ => none

/-- Programs that look at the stack without changing it and start no search. -/
inductive SearchCode : {α : Type} → Zig γ α → Prop
  | pure {α : Type} (a : α) : SearchCode (pure a : Zig γ α)
  | fails {α : Type} {fault : Fault} (own : SearchFault fault) :
      SearchCode (throw fault : Zig γ α)
  | tick : SearchCode tick
  | record {event : Event} (inner : event.query? = none) : SearchCode (record event)
  | look {α : Type} {f : Machine γ → Zig γ α}
      (only : ∀ m m', m'.stack = m.stack → f m = f m') (next : ∀ m, SearchCode (f m)) :
      SearchCode (get >>= f)
  | bind {α β : Type} {x : Zig γ α} {f : α → Zig γ β} (first : SearchCode x)
      (second : ∀ a, SearchCode (f a)) : SearchCode (x >>= f)

namespace SearchCode

variable {α : Type}

theorem sqliteError (e : SqliteError) : SearchCode (throw (.error (.sqlite e)) : Zig γ α) :=
  .fails (.sqlite e)

theorem columnText (text : Option Bytes) : SearchCode (columnText text : Zig γ Bytes) := by
  cases text with
  | none => exact .fails (.tripped _)
  | some bytes => exact .pure bytes

theorem stepCheck (code : SqliteErrorEnum) :
    SearchCode (ofExcept (stepCheck code) : Zig γ SqliteErrorEnum) := by
  cases code <;> first | exact .pure _ | exact sqliteError _

variable (env : Externals γ)

theorem sqliteCall : SearchCode (sqliteCall env) := by
  apply SearchCode.tick.bind
  intro now
  cases env.sqliteFails now with
  | none => exact .pure ()
  | some failure =>
    obtain ⟨code, e, failed⟩ := failure
    simp only [failed]
    exact sqliteError e

theorem alloc (size : Nat) : SearchCode (alloc env size) := by
  apply SearchCode.tick.bind
  intro now
  split
  · exact .fails .memory
  · exact .pure now

theorem blobRead (shape : Bytes) (size offset : Nat) :
    SearchCode (blobRead env shape size offset) := by
  unfold WatershedOracle.blobRead
  split
  · exact sqliteError _
  · exact sqliteCall env

theorem pointCoveredBy (geom : GeomPtr γ) : SearchCode (pointCoveredBy env geom) := by
  apply SearchCode.look
  · intro m m' same
    simp only [same]
  intro m
  cases m.stack.point with
  | none => exact .fails (.tripped _)
  | some point =>
    apply SearchCode.tick.bind
    intro now
    apply (SearchCode.record rfl).bind
    intro _
    exact .pure _

theorem searchStep (next : Option Row) : SearchCode (searchStep env next) := by
  apply SearchCode.tick.bind
  intro now
  apply (stepCheck _).bind
  intro _
  cases next with
  | none => exact .fails .outside
  | some row =>
    apply (columnText _).bind
    intro _
    apply (columnText _).bind
    intro _
    apply (sqliteCall env).bind
    intro _
    apply (blobRead env _ _ _).bind
    intro _
    apply SearchCode.look
    · intro m m' same
      simp only [same]
    intro m
    split
    · exact .pure none
    split
    · exact .fails (.tripped _)
    apply (alloc env _).bind
    intro _
    apply (blobRead env _ _ _).bind
    intro _
    split
    · exact .fails (.tripped _)
    · apply SearchCode.tick.bind
      intro addr
      apply (SearchCode.record rfl).bind
      intro _
      apply (pointCoveredBy env _).bind
      intro covered
      split
      · exact .pure _
      · apply (SearchCode.record rfl).bind
        intro _
        exact .pure none

theorem searchLoop (rows : List Row) : SearchCode (searchLoop env rows) := by
  induction rows with
  | nil =>
    apply (searchStep env none).bind
    intro _
    exact .fails (.tripped _)
  | cons row rest ih =>
    apply (searchStep env (some row)).bind
    intro found
    cases found with
    | none => exact ih
    | some geometry => exact .pure _

end SearchCode

/-! ### The two halves of a search -/

/-- The first half of `search` after its query is recorded, up to the row it rests on. -/
def findRow (env : Externals γ) (query : Query) : Zig γ (Row × GeomPtr γ) := do
  let _ ← alloc env (query.likePattern.length + 1)
  sqliteCall env
  let now ← tick
  searchLoop env (env.rows now query)

/-- The second half of `search`, which reads the columns of the row. -/
def readColumns (env : Externals γ) (row : Row) (newGeom : GeomPtr γ) : Zig γ (Watershed γ) := do
  let hucSpan ← columnText row.huc
  if fits : hucSpan.length ≤ 16 then
    let nameSpan ← columnText row.name
    let addr ← alloc env nameSpan.length
    record (.nameAllocated addr)
    pure ⟨padHuc hucSpan fits, ⟨addr, nameSpan⟩, newGeom⟩
  else
    panic .indexOutOfBounds

section Halves

variable (env : Externals γ)

theorem search_eq (hucLevel tableName : String) (likePattern : Bytes) :
    search env hucLevel tableName likePattern = (do
      record (.searched ⟨hucLevel, tableName, likePattern⟩)
      let found ← findRow env ⟨hucLevel, tableName, likePattern⟩
      readColumns env found.1 found.2) := by
  simp only [search, findRow, readColumns, bind_assoc]

theorem SearchCode.findRow (query : Query) : SearchCode (findRow env query) := by
  apply (SearchCode.alloc env _).bind
  intro _
  apply (SearchCode.sqliteCall env).bind
  intro _
  apply SearchCode.tick.bind
  intro now
  exact SearchCode.searchLoop env _

theorem SearchCode.readColumns (row : Row) (newGeom : GeomPtr γ) :
    SearchCode (readColumns env row newGeom) := by
  apply (SearchCode.columnText _).bind
  intro hucSpan
  split
  · apply (SearchCode.columnText _).bind
    intro nameSpan
    apply (SearchCode.alloc env _).bind
    intro addr
    apply (SearchCode.record rfl).bind
    intro _
    exact .pure _
  · exact .fails (.tripped _)

theorem SearchCode.halves (query : Query) : SearchCode (do
    let found ← WatershedOracle.findRow env query
    WatershedOracle.readColumns env found.1 found.2) := by
  apply (SearchCode.findRow env query).bind
  intro found
  exact SearchCode.readColumns env found.1 found.2

end Halves

/-! ### What holds of every such program -/

section Consequences

variable {α : Type} {x : Zig γ α}

/-- They fail in the ways of a search. -/
theorem SearchCode.faults (code : SearchCode x) : FailsIn SearchFault x := by
  induction code with
  | pure a => exact failsIn_pure a
  | fails own => exact failsIn_throw own
  | tick => exact fun _ => trivial
  | record inner => exact fun _ => trivial
  | look only next ih => exact failsIn_get.bind ih
  | bind first second ih ih' => exact ih.bind ih'

/-- Machines that differ in their records only. -/
structure Machine.Alike (m m' : Machine γ) : Prop where
  stack : m'.stack = m.stack
  calls : m'.calls = m.calls

/-- They do the same whatever was recorded before. -/
theorem SearchCode.blind (code : SearchCode x) : Respects Machine.Alike x := by
  induction code with
  | pure a => exact respects_pure a
  | fails own => exact respects_throw _
  | tick =>
    intro m m' alike
    show SameEnd _ (.ok m.calls m.ticked) (.ok m'.calls m'.ticked)
    rw [alike.calls]
    exact .ok _ ⟨alike.stack, by simp [Machine.ticked, alike.calls]⟩
  | record inner => exact fun m m' alike => .ok () ⟨alike.stack, alike.calls⟩
  | look only next ih =>
    apply respects_get_bind
    · exact fun m m' alike => only m m' alike.stack
    · exact ih
  | bind first second ih ih' => exact ih.bind ih'

/-- The searches made so far, newest first. -/
def Machine.searches (m : Machine γ) : List Query := m.events.filterMap Event.query?

/-- They start no search. -/
theorem SearchCode.searches (code : SearchCode x) (m : Machine γ) :
    Ends x m (fun _ m' => m'.searches = m.searches) (fun _ m' => m'.searches = m.searches) := by
  induction code generalizing m with
  | pure a => rfl
  | fails own => rfl
  | tick => rfl
  | @record event inner =>
    rw [ends_record]
    simp [Machine.searches, Machine.recorded, inner]
  | look only next ih =>
    rw [ends_bind, ends_get]
    exact ih m m
  | bind first second ih ih' =>
    rw [ends_bind]
    apply (ih m).mono
    · intro a m' same
      rw [← same]
      exact ih' a m'
    · exact fun _ _ same => same

end Consequences

section Search

variable (env : Externals γ) (hucLevel tableName : String) (likePattern : Bytes)

theorem search_faults : FailsIn SearchFault (search env hucLevel tableName likePattern) := by
  have recorded : FailsIn SearchFault
      (record (.searched ⟨hucLevel, tableName, likePattern⟩) : Zig γ Unit) := fun _ => trivial
  rw [search_eq]
  apply recorded.bind
  intro _
  exact (SearchCode.halves env _).faults

theorem search_blind : Respects Machine.Alike (search env hucLevel tableName likePattern) := by
  have recorded : Respects Machine.Alike
      (record (.searched ⟨hucLevel, tableName, likePattern⟩) : Zig γ Unit) :=
    fun _ _ alike => .ok () ⟨alike.stack, alike.calls⟩
  rw [search_eq]
  apply recorded.bind
  intro _
  exact (SearchCode.halves env _).blind

/-- A search records its own query and no other. -/
theorem search_searches (m : Machine γ) :
    Ends (search env hucLevel tableName likePattern) m
      (fun _ m' => m'.searches = ⟨hucLevel, tableName, likePattern⟩ :: m.searches)
      (fun _ m' => m'.searches = ⟨hucLevel, tableName, likePattern⟩ :: m.searches) := by
  rw [search_eq, ends_bind, ends_record]
  exact (SearchCode.halves env _).searches _

end Search

end WatershedOracle
