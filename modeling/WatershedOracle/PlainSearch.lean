import WatershedOracle.Lookup

set_option autoImplicit false

/-! What `search` answers unless an SQLite call or an allocation fails under it: a function
of the rows, the query geometry and its bounds, also over rows that cannot be read. -/

namespace WatershedOracle

open Effect

variable {γ : Type} {env : Externals γ}

/-- What a step makes of a row: the geometry if it covers the query geometry. -/
def Row.judge (env : Externals γ) (point : γ) (bounds : Bounds) (row : Row) :
    Except Fault (Option γ) :=
  if row.huc = none ∨ row.name = none then .error (.panic .unreachableReached)
  else if row.shape.length < headerSize then .error (.error (.sqlite .SQLITE_ERROR))
  else if (EnvelopeXY.ofShape row.shape).misses bounds then .ok none
  else match env.wkbReader (row.shape.drop headerSize) with
    | none => .error (.panic .nullUnwrap)
    | some geom => .ok (if env.covers 0 geom point = 1 then some geom else none)

/-- What the rows of a statement come to, in their order. -/
def answerOf (env : Externals γ) (point : γ) (bounds : Bounds) : List Row → Except Fault (Region γ)
  | [] => .error (.error .pointNotInDataset)
  | row :: rest =>
      match row.judge env point bounds with
      | .error fault => .error fault
      | .ok none => answerOf env point bounds rest
      | .ok (some _) =>
          match row.region? env with
          | some region => .ok region
          | none => .error (.panic .indexOutOfBounds)

section Judge

variable {point : γ} {bounds : Bounds} {row : Row}

theorem judge_nameless (missing : row.huc = none ∨ row.name = none) :
    row.judge env point bounds = .error (.panic .unreachableReached) :=
  if_pos missing

theorem judge_short (huc : row.huc ≠ none) (name : row.name ≠ none)
    (short : row.shape.length < headerSize) :
    row.judge env point bounds = .error (.error (.sqlite .SQLITE_ERROR)) := by
  rw [Row.judge, if_neg (by simp [huc, name]), if_pos short]

theorem judge_misses (huc : row.huc ≠ none) (name : row.name ≠ none)
    (long : headerSize ≤ row.shape.length)
    (misses : (EnvelopeXY.ofShape row.shape).misses bounds = true) :
    row.judge env point bounds = .ok none := by
  rw [Row.judge, if_neg (by simp [huc, name]), if_neg (Nat.not_lt_of_le long), if_pos misses]

theorem judge_unparsed (huc : row.huc ≠ none) (name : row.name ≠ none)
    (long : headerSize ≤ row.shape.length)
    (meets : (EnvelopeXY.ofShape row.shape).misses bounds = false)
    (unparsed : env.wkbReader (row.shape.drop headerSize) = none) :
    row.judge env point bounds = .error (.panic .nullUnwrap) := by
  rw [Row.judge, if_neg (by simp [huc, name]), if_neg (Nat.not_lt_of_le long),
    if_neg (by simp [meets]), unparsed]

variable (point) in
theorem judge_parsed (huc : row.huc ≠ none) (name : row.name ≠ none)
    (long : headerSize ≤ row.shape.length)
    (meets : (EnvelopeXY.ofShape row.shape).misses bounds = false) {geom : γ}
    (parsed : env.wkbReader (row.shape.drop headerSize) = some geom) :
    row.judge env point bounds = .ok (if env.covers 0 geom point = 1 then some geom else none) := by
  rw [Row.judge, if_neg (by simp [huc, name]), if_neg (Nat.not_lt_of_le long),
    if_neg (by simp [meets]), parsed]

end Judge

/-- A failed call ended the run; over externals without faults there is none. -/
structure Refused (env : Externals γ) (fault : Fault) : Prop where
  faulty : ¬ env.Faultless
  kind : fault = .error .OutOfMemory ∨ ∃ e, fault = .error (.sqlite e)

section Refused

variable {m : Machine γ}

theorem Refused.of_sqlite {now : Nat} {code : FailureCode} (failed : env.sqliteFails now = some code)
    (e : SqliteError) : Refused env (.error (.sqlite e)) := by
  refine ⟨fun faultless => ?_, .inr ⟨e, rfl⟩⟩
  cases (faultless.sqlite now).symm.trans failed

theorem refuses_sqliteCall {Q : Unit → Machine γ → Prop} {E : Fault → Machine γ → Prop}
    (returns : Q () m.ticked) (fails : ∀ fault m', Refused env fault → E fault m') :
    Ends (sqliteCall env) m Q E := by
  unfold sqliteCall
  rw [ends_bind, ends_tick]
  cases failed : env.sqliteFails m.calls with
  | none => exact returns
  | some code =>
    obtain ⟨code, e, raised⟩ := code
    simp only [raised, ends_ofExcept_error]
    exact fails _ _ (.of_sqlite failed e)

theorem refuses_alloc (size : Nat) {Q : Nat → Machine γ → Prop} {E : Fault → Machine γ → Prop}
    (returns : Q m.calls m.ticked) (fails : ∀ fault m', Refused env fault → E fault m') :
    Ends (alloc env size) m Q E := by
  unfold alloc
  rw [ends_bind, ends_tick]
  split
  · rename_i refused
    apply fails
    refine ⟨fun faultless => ?_, .inl rfl⟩
    cases (faultless.memory m.calls).symm.trans refused.2
  · exact returns

theorem refuses_blobRead {shape : Bytes} {size offset : Nat} (enough : offset + size ≤ shape.length)
    {Q : Unit → Machine γ → Prop} {E : Fault → Machine γ → Prop}
    (returns : Q () m.ticked) (fails : ∀ fault m', Refused env fault → E fault m') :
    Ends (blobRead env shape size offset) m Q E := by
  unfold blobRead
  rw [if_neg (by omega)]
  exact refuses_sqliteCall returns fails

end Refused

section Search

variable {m : Machine γ} {point : GeomPtr γ}

theorem inspectShape_judge (steady : env.Steady) (row : Row) (at_ : m.stack.point = some point)
    (huc : row.huc ≠ none) (name : row.name ≠ none) (long : headerSize ≤ row.shape.length) :
    Ends (inspectShape env row) m
      (fun found _ => row.judge env point.geom m.stack.pointBounds =
        .ok (found.map GeomPtr.geom))
      (fun fault _ => Refused env fault ∨
        row.judge env point.geom m.stack.pointBounds = .error fault) := by
  have refused : ∀ (fault : Fault) (_ : Machine γ), Refused env fault → Refused env fault ∨
      row.judge env point.geom m.stack.pointBounds = .error fault := fun _ _ => .inl
  unfold inspectShape
  rw [ends_bind, ends_get]
  split
  · rename_i misses
    exact judge_misses huc name long misses
  · rename_i meets
    have meets : (EnvelopeXY.ofShape row.shape).misses m.stack.pointBounds = false := by
      simpa using meets
    rw [if_neg (Nat.not_lt_of_le long)]
    simp only [ends_bind]
    apply refuses_alloc _ _ refused
    apply refuses_blobRead (by omega) _ refused
    cases parsed : env.wkbReader (row.shape.drop headerSize) with
    | none => exact .inr (judge_unparsed huc name long meets parsed)
    | some geom =>
      have judged := judge_parsed point.geom huc name long meets parsed
      apply ends_askGeometry env geom
      · intro asked isAt covers
        obtain rfl : point = asked := Option.some.inj (at_.symm.trans isAt)
        rw [steady] at covers
        rw [if_pos covers] at judged
        exact judged
      · intro asked isAt outside
        obtain rfl : point = asked := Option.some.inj (at_.symm.trans isAt)
        rw [steady] at outside
        rw [if_neg outside] at judged
        exact judged
      · intro missing
        cases at_.symm.trans missing

/-- A step makes of a row what `judge` says, unless a call fails under it. -/
theorem searchStep_judge (steady : env.Steady) (row : Row) (at_ : m.stack.point = some point) :
    Ends (searchStep env (some row)) m
      (fun found _ => row.judge env point.geom m.stack.pointBounds =
        .ok (found.map GeomPtr.geom))
      (fun fault _ => Refused env fault ∨
        row.judge env point.geom m.stack.pointBounds = .error fault) := by
  have refused : ∀ (fault : Fault) (_ : Machine γ), Refused env fault → Refused env fault ∨
      row.judge env point.geom m.stack.pointBounds = .error fault := fun _ _ => .inl
  unfold searchStep
  rw [ends_bind, ends_tick, ends_bind]
  apply Ends.mono (Q := fun _ m' => m' = m.ticked) (E := fun fault _ => Refused env fault)
  · cases failed : env.sqliteFails m.calls with
    | none => rfl
    | some code =>
      obtain ⟨e, raised⟩ := stepCheck_failure code
      simp only [raised, ends_ofExcept_error]
      exact .of_sqlite failed e
  · rintro _ m' rfl
    rw [ends_bind]
    cases huc : row.huc with
    | none => exact .inr (judge_nameless (.inl huc))
    | some code =>
      have hasHuc : row.huc ≠ none := by simp [huc]
      cases name : row.name with
      | none => exact .inr (judge_nameless (.inr name))
      | some text =>
        have hasName : row.name ≠ none := by simp [name]
        simp only [columnText, ends_pure, ends_bind]
        apply refuses_sqliteCall _ refused
        by_cases short : row.shape.length < headerSize
        · unfold blobRead
          rw [if_pos (by simpa using short)]
          exact .inr (judge_short hasHuc hasName short)
        · have long := Nat.le_of_not_lt short
          apply refuses_blobRead (by simpa using long) _ refused
          exact inspectShape_judge steady row (m := m.ticked.ticked.ticked) at_ hasHuc hasName long
  · exact refused

/-- The loop comes to rest where the rows say, on a row that can be read so far. -/
theorem searchLoop_answers (steady : env.Steady) (rows : List Row)
    (at_ : m.stack.point = some point) :
    Ends (searchLoop env rows) m
      (fun found _ => ∃ before rest, rows = before ++ found.1 :: rest ∧
        (∀ row ∈ before, row.judge env point.geom m.stack.pointBounds = .ok none) ∧
        found.1.judge env point.geom m.stack.pointBounds = .ok (some found.2.geom))
      (fun fault _ => Refused env fault ∨
        answerOf env point.geom m.stack.pointBounds rows = .error fault) := by
  induction rows generalizing m with
  | nil =>
    unfold searchLoop searchStep
    rw [ends_bind, ends_bind, ends_tick, ends_bind]
    cases failed : env.sqliteFails m.calls with
    | none => exact .inr rfl
    | some code =>
      obtain ⟨e, raised⟩ := stepCheck_failure code
      simp only [raised, ends_ofExcept_error]
      exact .inl (.of_sqlite failed e)
  | cons row rest ih =>
    unfold searchLoop
    rw [ends_bind]
    apply ((searchStep_row env row m).and (searchStep_judge steady row at_)).mono
    · rintro (_ | geometry) m' ⟨⟨kept, _⟩, judged⟩
      · apply (ih (m := m') (by rw [kept]; exact at_)).mono
        · rintro found m'' ⟨before, back, split, passed, covering⟩
          rw [kept] at passed covering
          refine ⟨row :: before, back, by rw [split]; rfl, ?_, covering⟩
          exact List.forall_mem_cons.mpr ⟨judged, passed⟩
        · rintro fault m'' (refused | answered)
          · exact .inl refused
          · rw [kept] at answered
            rw [answerOf, judged]
            exact .inr answered
      · exact ⟨[], rest, rfl, by simp, judged⟩
    · rintro fault m' ⟨_, refused | judged⟩
      · exact .inl refused
      · exact .inr (by rw [answerOf, judged])

theorem answerOf_passed {query : γ} {bounds : Bounds} {before rest : List Row}
    (passed : ∀ row ∈ before, row.judge env query bounds = .ok none) :
    answerOf env query bounds (before ++ rest) = answerOf env query bounds rest := by
  induction before with
  | nil => rfl
  | cons row before ih =>
    obtain ⟨first, later⟩ := List.forall_mem_cons.mp passed
    rw [List.cons_append, answerOf, first]
    exact ih later

/-- A row found has both texts, and its blob was read and covers the query geometry. -/
structure FoundOn (env : Externals γ) (query : γ) (bounds : Bounds) (row : Row) (geom : γ) :
    Prop where
  huc : row.huc ≠ none
  name : row.name ≠ none
  header : headerSize ≤ row.shape.length
  meets : (EnvelopeXY.ofShape row.shape).misses bounds = false
  parsed : env.wkbReader (row.shape.drop headerSize) = some geom
  covers : env.covers 0 geom query = 1

theorem judge_some {query geom : γ} {bounds : Bounds} {row : Row}
    (judged : row.judge env query bounds = .ok (some geom)) :
    FoundOn env query bounds row geom := by
  unfold Row.judge at judged
  split at judged
  · cases judged
  · rename_i texts
    rw [not_or] at texts
    split at judged
    · cases judged
    · rename_i long
      split at judged
      · cases judged
      · rename_i meets
        split at judged
        · cases judged
        · rename_i parsed
          split at judged
          · rename_i covers
            cases judged
            exact ⟨texts.1, texts.2, Nat.le_of_not_lt long, by simpa using meets, parsed, covers⟩
          · cases judged

/-- `search` answers what the rows of its statement say, unless a call fails under it. -/
theorem search_answers (steady : env.Steady) (hucLevel tableName : String) (likePattern : Bytes)
    (at_ : m.stack.point = some point) :
    Ends (search env hucLevel tableName likePattern) m
      (fun w _ => answerOf env point.geom m.stack.pointBounds
        (env.rows (m.calls + 2) ⟨hucLevel, tableName, likePattern⟩) = .ok w.region)
      (fun fault _ => Refused env fault ∨ answerOf env point.geom m.stack.pointBounds
        (env.rows (m.calls + 2) ⟨hucLevel, tableName, likePattern⟩) = .error fault) := by
  have refused : ∀ (fault : Fault) (_ : Machine γ), Refused env fault → Refused env fault ∨
      answerOf env point.geom m.stack.pointBounds
        (env.rows (m.calls + 2) ⟨hucLevel, tableName, likePattern⟩) = .error fault :=
    fun _ _ => .inl
  simp only [search, ends_bind, ends_record, ends_tick]
  apply refuses_alloc _ _ refused
  apply refuses_sqliteCall _ refused
  let prepared := ((m.recorded (.searched ⟨hucLevel, tableName, likePattern⟩)).ticked.ticked).ticked
  apply (searchLoop_answers steady _ (m := prepared) at_).mono
  · rintro ⟨row, newGeom⟩ m' ⟨before, rest, split, passed, covering⟩
    have passed : ∀ other ∈ before, other.judge env point.geom m.stack.pointBounds = .ok none :=
      passed
    have covering : row.judge env point.geom m.stack.pointBounds = .ok (some newGeom.geom) :=
      covering
    have rows : env.rows (m.calls + 2) ⟨hucLevel, tableName, likePattern⟩ =
        before ++ row :: rest := split
    have found := judge_some covering
    have parsed := found.parsed
    obtain ⟨code, isCode⟩ := Option.ne_none_iff_exists'.mp found.huc
    obtain ⟨name, isName⟩ := Option.ne_none_iff_exists'.mp found.name
    have answered : answerOf env point.geom m.stack.pointBounds
        (env.rows (m.calls + 2) ⟨hucLevel, tableName, likePattern⟩) =
          (match row.region? env with
          | some region => .ok region
          | none => .error (.panic .indexOutOfBounds)) := by
      rw [rows, answerOf_passed passed, answerOf, covering]
    simp only [Row.region?, isCode, isName, parsed] at answered
    simp only [isCode, isName, columnText, ends_pure]
    split
    · rename_i fits
      rw [dif_pos fits] at answered
      simp only [ends_bind]
      apply refuses_alloc _ _ refused
      rw [ends_record, ends_pure]
      exact answered
    · rename_i long
      rw [dif_neg long] at answered
      exact .inr answered
  · intro fault m' answered
    exact answered

/-- Without faults `search` answers what the rows of its statement say. -/
theorem search_answer (faultless : env.Faultless) (steady : env.Steady)
    (hucLevel tableName : String) (likePattern : Bytes) (at_ : m.stack.point = some point) :
    Ends (search env hucLevel tableName likePattern) m
      (fun w _ => answerOf env point.geom m.stack.pointBounds
        (env.rows (m.calls + 2) ⟨hucLevel, tableName, likePattern⟩) = .ok w.region)
      (fun fault _ => answerOf env point.geom m.stack.pointBounds
        (env.rows (m.calls + 2) ⟨hucLevel, tableName, likePattern⟩) = .error fault) := by
  apply (search_answers steady hucLevel tableName likePattern at_).mono
  · exact fun _ _ answered => answered
  · rintro fault m' (refused | answered)
    · exact absurd faultless refused.faulty
    · exact answered

end Search

end WatershedOracle
