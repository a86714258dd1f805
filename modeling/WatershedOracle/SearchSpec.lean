import WatershedOracle.Library.Effect
import WatershedOracle.WatershedStack

set_option autoImplicit false

/-! What `search` returns, read off its row loop: it leaves the stack alone, and
its result is the first row that passes the envelope test and covers the point. -/

namespace WatershedOracle

open Effect

variable {γ : Type}

namespace Machine

/-- One external call later. -/
def ticked (m : Machine γ) : Machine γ := { m with calls := m.calls + 1 }

@[simp] theorem ticked_stack (m : Machine γ) : m.ticked.stack = m.stack := rfl

def recorded (m : Machine γ) (event : Event) : Machine γ :=
  { m with events := event :: m.events }

@[simp] theorem recorded_stack (m : Machine γ) (event : Event) :
    (m.recorded event).stack = m.stack := rfl

end Machine

section Primitives

variable {α : Type} {m : Machine γ} {E : Fault → Machine γ → Prop}

@[simp] theorem ends_tick {Q : Nat → Machine γ → Prop} :
    Ends (tick : Zig γ Nat) m Q E ↔ Q m.calls m.ticked := Iff.rfl

@[simp] theorem ends_record (event : Event) {Q : Unit → Machine γ → Prop} :
    Ends (record event : Zig γ Unit) m Q E ↔ Q () (m.recorded event) := Iff.rfl

@[simp] theorem ends_modifyStack (f : WatershedStack γ → WatershedStack γ)
    {Q : Unit → Machine γ → Prop} :
    Ends (modifyStack f) m Q E ↔ Q () { m with stack := f m.stack } := Iff.rfl

@[simp] theorem ends_ofExcept_ok (a : α) {Q : α → Machine γ → Prop} :
    Ends (ofExcept (.ok a) : Zig γ α) m Q E ↔ Q a m := Iff.rfl

@[simp] theorem ends_ofExcept_error (e : ZigError) {Q : α → Machine γ → Prop} :
    Ends (ofExcept (.error e) : Zig γ α) m Q E ↔ E (.error e) m := Iff.rfl

@[simp] theorem ends_destroyGeom (geom : GeomPtr γ) {Q : Unit → Machine γ → Prop} :
    Ends (destroyGeom geom) m Q E ↔ Q () (m.recorded (.geomDestroyed geom.addr)) := Iff.rfl

theorem ends_sqliteCall (env : Externals γ) {Q : Unit → Machine γ → Prop}
    (returns : Q () m.ticked) (fails : ∀ e, E (.error (.sqlite e)) m.ticked) :
    Ends (sqliteCall env) m Q E := by
  unfold sqliteCall
  rw [ends_bind, ends_tick]
  cases env.sqliteFails m.calls with
  | none => exact returns
  | some code =>
    obtain ⟨code, e, failed⟩ := code
    simpa only [failed, ends_ofExcept_error] using fails e

theorem ends_alloc (env : Externals γ) (size : Nat) {Q : Nat → Machine γ → Prop}
    (returns : Q m.calls m.ticked) (fails : E (.error .OutOfMemory) m.ticked) :
    Ends (alloc env size) m Q E := by
  unfold alloc
  rw [ends_bind, ends_tick]
  split
  · exact fails
  · exact returns

theorem ends_blobRead (env : Externals γ) (shape : Bytes) (size offset : Nat)
    {Q : Unit → Machine γ → Prop} (returns : offset + size ≤ shape.length → Q () m.ticked)
    (fails : ∀ e m', m'.stack = m.stack → E (.error (.sqlite e)) m') :
    Ends (blobRead env shape size offset) m Q E := by
  unfold blobRead
  split
  · exact fails _ m rfl
  · exact ends_sqliteCall env (returns (by omega)) fun e => fails e _ rfl

theorem ends_columnText (text : Option Bytes) {Q : Bytes → Machine γ → Prop}
    (returns : ∀ bytes, text = some bytes → Q bytes m)
    (fails : ∀ check, E (.panic check) m) : Ends (columnText text) m Q E := by
  cases text with
  | none => exact fails _
  | some bytes => exact returns bytes rfl

theorem ends_pointCoveredBy (env : Externals γ) (geom : GeomPtr γ)
    {Q : Bool → Machine γ → Prop}
    (returns : ∀ point, m.stack.point = some point →
      Q (env.covers m.calls geom.geom point.geom == 1)
        (m.ticked.recorded (.coversCalled geom.addr point.addr)))
    (fails : m.stack.point = none → E (.panic .nullUnwrap) m) :
    Ends (pointCoveredBy env geom) m Q E := by
  unfold pointCoveredBy
  rw [ends_bind, ends_get]
  cases h : m.stack.point with
  | none => exact fails h
  | some point => exact returns point h

/-- The end of a step: whether the geometry that GEOS has just made covers the point. -/
def askGeometry (env : Externals γ) (geom : γ) : Zig γ (Option (GeomPtr γ)) := do
  let addr ← tick
  let geometry : GeomPtr γ := ⟨addr, geom⟩
  record (.geomCreated addr)
  let covered ← pointCoveredBy env geometry
  if covered then
    pure (some geometry)
  else
    destroyGeom geometry
    pure none

theorem ends_askGeometry (env : Externals γ) (geom : γ)
    {Q : Option (GeomPtr γ) → Machine γ → Prop}
    (inside : ∀ point, m.stack.point = some point → env.covers (m.calls + 1) geom point.geom = 1 →
      Q (some ⟨m.calls, geom⟩) (((m.ticked.recorded (.geomCreated m.calls)).ticked).recorded
        (.coversCalled m.calls point.addr)))
    (outside : ∀ point, m.stack.point = some point → env.covers (m.calls + 1) geom point.geom ≠ 1 →
      Q none ((((m.ticked.recorded (.geomCreated m.calls)).ticked).recorded
        (.coversCalled m.calls point.addr)).recorded (.geomDestroyed m.calls)))
    (fails : m.stack.point = none →
      E (.panic .nullUnwrap) (m.ticked.recorded (.geomCreated m.calls))) :
    Ends (askGeometry env geom) m Q E := by
  unfold askGeometry
  simp only [ends_bind, ends_tick, ends_record]
  apply ends_pointCoveredBy
  · intro point at_
    split
    · rename_i covered
      exact inside point at_ (beq_iff_eq.mp covered)
    · rename_i uncovered
      rw [ends_bind, ends_destroyGeom, ends_pure]
      exact outside point at_ fun covers => uncovered (beq_iff_eq.mpr covers)
  · exact fails

/-- The part of a step that starts with the envelope of its row. -/
def inspectShape (env : Externals γ) (row : Row) : Zig γ (Option (GeomPtr γ)) := do
  let m ← get
  if (EnvelopeXY.ofShape row.shape).misses m.stack.pointBounds then
    pure none
  else
    if row.shape.length < headerSize then panic .integerOverflow else
    let _ ← alloc env (row.shape.length - headerSize)
    blobRead env row.shape (row.shape.length - headerSize) headerSize
    match env.wkbReader (row.shape.drop headerSize) with
    | none => panic .nullUnwrap
    | some geom => askGeometry env geom

end Primitives

/-- How one row was judged, on a stack whose point and bounds are `stack`'s. -/
inductive Inspected (env : Externals γ) (stack : WatershedStack γ) (row : Row) :
    Option (GeomPtr γ) → Prop
  | skipped (misses : (EnvelopeXY.ofShape row.shape).misses stack.pointBounds = true) :
      Inspected env stack row none
  | outside (now : Nat) (geom : γ) (point : GeomPtr γ)
      (meets : (EnvelopeXY.ofShape row.shape).misses stack.pointBounds = false)
      (read : env.wkbReader (row.shape.drop headerSize) = some geom)
      (at_ : stack.point = some point) (apart : env.covers now geom point.geom ≠ 1) :
      Inspected env stack row none
  | inside (now : Nat) (geom : GeomPtr γ) (point : GeomPtr γ)
      (meets : (EnvelopeXY.ofShape row.shape).misses stack.pointBounds = false)
      (read : env.wkbReader (row.shape.drop headerSize) = some geom.geom)
      (at_ : stack.point = some point) (covers : env.covers now geom.geom point.geom = 1) :
      Inspected env stack row (some geom)

theorem inspectShape_row (env : Externals γ) (row : Row) (m : Machine γ)
    (enough : headerSize ≤ row.shape.length) :
    Ends (inspectShape env row) m
      (fun found m' => m'.stack = m.stack ∧ Inspected env m.stack row found)
      (fun fault m' => m'.stack = m.stack ∧ fault ≠ .error .pointNotInDataset) := by
  unfold inspectShape
  rw [ends_bind, ends_get]
  split
  · rename_i misses
    exact ⟨rfl, .skipped misses⟩
  · rename_i meets
    have meets : (EnvelopeXY.ofShape row.shape).misses m.stack.pointBounds = false := by
      simpa using meets
    rw [if_neg (Nat.not_lt_of_le enough)]
    simp only [ends_bind]
    apply ends_alloc env _ _ ⟨rfl, by simp⟩
    apply ends_blobRead env _ _ _ _ fun _ m' kept => ⟨by simpa using kept, by simp⟩
    intro _
    split
    · exact ⟨rfl, by simp⟩
    · rename_i geom read
      apply ends_askGeometry env geom
      · exact fun point at_ covers => ⟨rfl, .inside _ ⟨_, geom⟩ point meets read at_ covers⟩
      · exact fun point at_ apart => ⟨rfl, .outside _ geom point meets read at_ apart⟩
      · exact fun _ => ⟨rfl, by simp⟩

/-- A step on a row leaves the stack alone and never reports the end of the rows. -/
theorem searchStep_row (env : Externals γ) (row : Row) (m : Machine γ) :
    Ends (searchStep env (some row)) m
      (fun found m' => m'.stack = m.stack ∧ Inspected env m.stack row found)
      (fun fault m' => m'.stack = m.stack ∧ fault ≠ .error .pointNotInDataset) := by
  unfold searchStep
  rw [ends_bind, ends_tick, ends_bind]
  refine Ends.mono (Q := fun _ m' => m' = m.ticked)
    (E := fun fault m' => m'.stack = m.stack ∧ fault ≠ .error .pointNotInDataset) ?_
    (fun _ m' same => ?_) fun _ _ failed => failed
  · cases env.sqliteFails m.calls with
    | none => rfl
    | some code =>
      obtain ⟨e, failed⟩ := stepCheck_failure code
      simp [failed]
  · subst same
    simp only [ends_bind]
    refine ends_columnText _ (fun _ _ => ?_) fun _ => ⟨rfl, by simp⟩
    refine ends_columnText _ (fun _ _ => ?_) fun _ => ⟨rfl, by simp⟩
    refine ends_sqliteCall env ?_ fun _ => ⟨rfl, by simp⟩
    refine ends_blobRead env _ _ _ (fun enough => ?_) fun _ m' kept => ⟨by simpa using kept, by simp⟩
    exact inspectShape_row env row m.ticked.ticked.ticked (by simpa using enough)

/-- The step past the last row always fails. -/
theorem searchStep_done (env : Externals γ) (m : Machine γ) :
    Ends (searchStep env none) m (fun _ _ => False) (fun _ m' => m'.stack = m.stack) := by
  unfold searchStep
  rw [ends_bind, ends_tick, ends_bind]
  cases env.sqliteFails m.calls with
  | none => rfl
  | some code =>
    obtain ⟨e, failed⟩ := stepCheck_failure code
    simp [failed]

/-- The loop ends on the first row judged to cover the point; it reports that
there is none only after judging every row. -/
theorem searchLoop_ends (env : Externals γ) (rows : List Row) (m : Machine γ) :
    Ends (searchLoop env rows) m
      (fun found m' => m'.stack = m.stack ∧ Inspected env m.stack found.1 (some found.2) ∧
        ∃ before after, rows = before ++ found.1 :: after ∧
          ∀ row ∈ before, Inspected env m.stack row none)
      (fun fault m' => m'.stack = m.stack ∧
        (fault = .error .pointNotInDataset → ∀ row ∈ rows, Inspected env m.stack row none)) := by
  induction rows generalizing m with
  | nil =>
    unfold searchLoop
    rw [ends_bind]
    refine (searchStep_done env m).mono (fun _ _ impossible => impossible.elim) ?_
    intro fault m' kept
    exact ⟨kept, by simp⟩
  | cons row rest ih =>
    unfold searchLoop
    rw [ends_bind]
    refine (searchStep_row env row m).mono ?_ ?_
    · rintro (_ | geometry) m' ⟨kept, judged⟩
      · refine (ih m').mono ?_ ?_
        · rintro ⟨hit, geom⟩ m'' ⟨same, covers, before, after, split, missed⟩
          rw [kept] at same covers missed
          refine ⟨same, covers, row :: before, after, by rw [split]; rfl, ?_⟩
          exact List.forall_mem_cons.mpr ⟨judged, missed⟩
        · rintro fault m'' ⟨same, missed⟩
          rw [kept] at same missed
          exact ⟨same, fun absent => List.forall_mem_cons.mpr ⟨judged, missed absent⟩⟩
      · exact ⟨kept, judged, [], rest, rfl, by simp⟩
    · rintro fault m' ⟨kept, other⟩
      exact ⟨kept, fun absent => absurd absent other⟩

/-- A watershed as `search` builds it from a row and the geometry found on it. -/
structure BuiltFrom (row : Row) (w : Watershed γ) : Prop where
  huc : ∃ code, ∃ fits : code.length ≤ 16, row.huc = some code ∧ w.huc = padHuc code fits
  name : row.name = some w.name.bytes

/-- `search` leaves the stack alone. On success one row gave code, name and
geometry, and every row before it was judged not to cover the point. -/
theorem search_ends (env : Externals γ) (hucLevel tableName : String) (likePattern : Bytes)
    (m : Machine γ) :
    Ends (search env hucLevel tableName likePattern) m
      (fun w m' => m'.stack = m.stack ∧ ∃ now row before after,
        env.rows now ⟨hucLevel, tableName, likePattern⟩ = before ++ row :: after ∧
          BuiltFrom row w ∧ Inspected env m.stack row (some w.geom) ∧
          ∀ other ∈ before, Inspected env m.stack other none)
      (fun fault m' => m'.stack = m.stack ∧ (fault = .error .pointNotInDataset → ∃ now,
        ∀ row ∈ env.rows now ⟨hucLevel, tableName, likePattern⟩,
          Inspected env m.stack row none)) := by
  simp only [search, ends_bind, ends_record, ends_tick]
  refine ends_alloc env _ ?_ ⟨rfl, by simp⟩
  refine ends_sqliteCall env ?_ fun _ => ⟨rfl, by simp⟩
  refine (searchLoop_ends env _ _).mono ?_ ?_
  · rintro ⟨row, geom⟩ m' ⟨kept, covers, before, after, split, missed⟩
    refine ends_columnText _ (fun code isCode => ?_) fun _ => ⟨by simpa using kept, by simp⟩
    split
    · rename_i fits
      simp only [ends_bind]
      refine ends_columnText _ (fun name isName => ?_) fun _ => ⟨by simpa using kept, by simp⟩
      refine ends_alloc env _ ?_ ⟨by simpa using kept, by simp⟩
      rw [ends_record, ends_pure]
      exact ⟨by simpa using kept, _, row, before, after, split,
        ⟨⟨code, fits, isCode, rfl⟩, isName⟩, covers, missed⟩
    · exact ⟨by simpa using kept, by simp⟩
  · rintro fault m' ⟨kept, missed⟩
    exact ⟨by simpa using kept, fun absent => ⟨_, missed absent⟩⟩

end WatershedOracle
