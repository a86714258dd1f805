import WatershedOracle.Library.Tower
import WatershedOracle.UpdateRuns

set_option autoImplicit false

/-! The stack read as a tower of regions. A region is a watershed without the
addresses of its buffers; every state the updates can reach holds a linked one. -/

namespace WatershedOracle

open Effect

variable {γ : Type}

structure Region (γ : Type) where
  huc : Vector UInt8 16
  name : Bytes
  geom : γ

/-- The code without the spaces it was filled up with. -/
def Region.code (r : Region γ) : Bytes := r.huc.toList.takeWhile (· ≠ 32)

def Watershed.region (w : Watershed γ) : Region γ := ⟨w.huc, w.name.bytes, w.geom.geom⟩

/-- The region a row describes, when its columns and its blob can be read. -/
def Row.region? (env : Externals γ) (row : Row) : Option (Region γ) :=
  match row.huc, row.name, env.wkbReader (row.shape.drop headerSize) with
  | some code, some name, some geom =>
      if fits : code.length ≤ 16 then some ⟨padHuc code fits, name, geom⟩ else none
  | _, _, _ => none

def IsDigits (code : Bytes) : Prop := ∀ byte ∈ code, 48 ≤ byte ∧ byte ≤ 57

instance (code : Bytes) : Decidable (IsDigits code) :=
  List.decidableBAll (fun byte => 48 ≤ byte ∧ byte ≤ 57) code

/-- `k` decimal digits, for the level whose codes have `k` characters. -/
structure IsCode (level : Level) (code : Bytes) : Prop where
  length : code.length = level.digits
  digits : IsDigits code

theorem IsCode.fits {level : Level} {code : Bytes} (isCode : IsCode level code) :
    code.length ≤ 16 :=
  isCode.length ▸ level.digits_le

theorem padHuc_toList (code : Bytes) (fits : code.length ≤ 16) :
    (padHuc code fits).toList = code ++ List.replicate (16 - code.length) 32 := rfl

theorem padHuc_prefix (code : Bytes) (fits : code.length ≤ 16) :
    (padHuc code fits).toList.take code.length = code := by
  rw [padHuc_toList, List.take_left]

theorem padHuc_code {code : Bytes} (fits : code.length ≤ 16) (digits : IsDigits code) :
    (padHuc code fits).toList.takeWhile (· ≠ 32) = code := by
  have noSpace : ∀ byte ∈ code, (decide (byte ≠ 32)) = true := by
    intro byte member
    have bounds := digits byte member
    simp only [ne_eq, decide_eq_true_eq]
    rintro rfl
    exact absurd bounds.1 (by decide)
  rw [padHuc_toList, List.takeWhile_append_of_pos noSpace]
  cases 16 - code.length <;> simp [List.replicate_succ]

/-- What the theorems below ask of SQLite and of the tables it serves: a query with
the pattern of a digit string returns rows that are `listed` for its level and whose
code starts with that string; and listed codes have the digits of their level. -/
structure Serves (env : Externals γ) (listed : Level → Row → Prop) : Prop where
  mem : ∀ (now : Nat) (level : Level) (likePattern : Bytes) (row : Row),
    IsDigits likePattern → row ∈ env.rows now (level.query likePattern) → listed level row
  code : ∀ level row, listed level row → ∃ code, row.huc = some code ∧ IsCode level code
  like : ∀ (now : Nat) (level : Level) (likePattern : Bytes) (row : Row) (code : Bytes),
    IsDigits likePattern → row ∈ env.rows now (level.query likePattern) →
      row.huc = some code → likePattern <+: code

/-- The listed rows as a tower: a region lies under those whose code begins its own. -/
def regions (env : Externals γ) (listed : Level → Row → Prop) : Tower.Regions (Region γ) γ where
  region n r := ∃ level row, level.index = n ∧ listed level row ∧ row.region? env = some r
  under fine coarse := coarse.code <+: fine.code
  covers r point := env.covers 0 r.geom point = 1

section Linked

variable {env : Externals γ} {listed : Level → Row → Prop}

theorem region_row_geom {row : Row} {r : Region γ} (read : row.region? env = some r) :
    env.wkbReader (row.shape.drop headerSize) = some r.geom := by
  unfold Row.region? at read
  split at read
  · rename_i geom _ _ parsed
    split at read
    · cases read
      exact parsed
    · cases read
  · cases read

/-- The code of a region is the whole text of its row's code column. -/
theorem region_row_code {row : Row} {r : Region γ} {level : Level} {code : Bytes}
    (isSome : row.huc = some code) (isCode : IsCode level code)
    (read : row.region? env = some r) : r.code = code := by
  unfold Row.region? at read
  rw [isSome] at read
  split at read
  · rename_i same _ _
    cases same
    rw [dif_pos isCode.fits] at read
    cases read
    exact padHuc_code isCode.fits isCode.digits
  · cases read

/-- A region of a level carries a code of that level, padded. -/
theorem region_code (serves : Serves env listed) {n : Nat} {r : Region γ}
    (isRegion : (regions env listed).region n r) :
    ∃ level : Level, level.index = n ∧ IsCode level r.code ∧
      ∃ fits, r.huc = padHuc r.code fits := by
  obtain ⟨level, row, at_, member, read⟩ := isRegion
  obtain ⟨code, isSome, isCode⟩ := serves.code level row member
  refine ⟨level, at_, ?_⟩
  unfold Row.region? at read
  rw [isSome] at read
  split at read
  · rename_i code' name geom same _ _
    cases same
    rw [dif_pos isCode.fits] at read
    cases read
    have bare : Region.code ⟨padHuc code isCode.fits, name, geom⟩ = code :=
      padHuc_code isCode.fits isCode.digits
    rw [bare]
    exact ⟨isCode, isCode.fits, rfl⟩
  · cases read

/-- The characters `search` takes from a stored code are the whole code. -/
theorem region_prefix (serves : Serves env listed) {n : Nat} {r : Region γ}
    (isRegion : (regions env listed).region n r) : r.huc.toList.take (2 * (n + 1)) = r.code := by
  obtain ⟨level, rfl, isCode, fits, padded⟩ := region_code serves isRegion
  have whole := padHuc_prefix r.code fits
  rw [isCode.length, Level.digits] at whole
  rw [padded, whole]

theorem codeBelow_eq (serves : Serves env listed) {list : List (Watershed γ)}
    (linked : (regions env listed).Linked (list.map Watershed.region)) :
    codeBelow list = ((list.head?.map fun w => w.region.code).getD []) := by
  cases list with
  | nil => rfl
  | cons w rest => exact region_prefix serves (by simpa using linked.child.1)

theorem codeBelow_digits (serves : Serves env listed) {list : List (Watershed γ)}
    (linked : (regions env listed).Linked (list.map Watershed.region)) :
    IsDigits (codeBelow list) := by
  rw [codeBelow_eq serves linked]
  cases list with
  | nil => simp [IsDigits]
  | cons w rest =>
    obtain ⟨level, _, isCode, _⟩ := region_code serves linked.child.1
    exact isCode.digits

theorem builtFrom_region {row : Row} {w : Watershed γ} (built : BuiltFrom row w)
    (read : env.wkbReader (row.shape.drop headerSize) = some w.geom.geom) :
    row.region? env = some w.region := by
  obtain ⟨⟨code, fits, isCode, padded⟩, isName⟩ := built
  simp only [Row.region?, isCode, isName, read, fits, ↓reduceDIte, Option.some.injEq]
  simp only [Watershed.region, padded]

theorem inspected_inside {stack : WatershedStack γ} {row : Row} {geom : GeomPtr γ}
    (judged : Inspected env stack row (some geom)) :
    env.wkbReader (row.shape.drop headerSize) = some geom.geom ∧
      (EnvelopeXY.ofShape row.shape).misses stack.pointBounds = false ∧
      ∃ now point, stack.point = some point ∧ env.covers now geom.geom point.geom = 1 := by
  cases judged with
  | inside now _ point meets read at_ covers => exact ⟨read, meets, now, point, at_, covers⟩

/-- What a search below a linked stack finds may be pushed onto it. -/
theorem searchBelow_child (serves : Serves env listed) {level : Level}
    {list : List (Watershed γ)} {m m' : Machine γ} {w : Watershed γ}
    (linked : (regions env listed).Linked (list.map Watershed.region))
    (next : level.index = list.length)
    (searched : (searchBelow env level list).run m = .ok w m') :
    (regions env listed).Child w.region (list.map Watershed.region) := by
  obtain ⟨_, now, row, before, after, split, built, judged, _⟩ :=
    (search_ends env _ _ _ m).returned searched
  have read := (inspected_inside judged).1
  have digits := codeBelow_digits serves linked
  have member : row ∈ env.rows now (level.query (codeBelow list)) := by
    rw [show level.query (codeBelow list) = ⟨_, _, _⟩ from rfl, split]
    simp
  have isListed := serves.mem _ _ _ _ digits member
  have isRegion : (regions env listed).region level.index w.region :=
    ⟨level, row, rfl, isListed, builtFrom_region built read⟩
  refine ⟨by simpa [next] using isRegion, ?_⟩
  intro parent isHead
  obtain ⟨⟨code, fits, isCode, padded⟩, _⟩ := built
  have begins := serves.like _ _ _ _ _ digits member isCode
  have bare : w.region.code = code := by
    obtain ⟨code', isCode', shape⟩ := serves.code level row isListed
    obtain rfl : code = code' := Option.some.inj (isCode.symm.trans isCode')
    simpa [Region.code, Watershed.region, padded] using padHuc_code fits shape.digits
  rw [codeBelow_eq serves linked] at begins
  cases list with
  | nil => simp at isHead
  | cons top rest =>
    obtain rfl : top.region = parent := by simpa using isHead
    change top.region.code <+: w.region.code
    rw [bare]
    simpa using begins

end Linked

section Runs

variable {env : Externals γ} {listed : Level → Row → Prop}

/-- The slots hold a linked list of regions. -/
def Stacked (env : Externals γ) (listed : Level → Row → Prop) (stack : WatershedStack γ)
    (list : List (Watershed γ)) : Prop :=
  stack.Holds list ∧ (regions env listed).Linked (list.map Watershed.region)

/-- A descent pushes children. -/
theorem Descent.linked (serves : Serves env listed) {m : Machine γ}
    {list final : List (Watershed γ)} {result : EStateM.Result Fault (Machine γ) Unit}
    (run : Descent env m list result final)
    (linked : (regions env listed).Linked (list.map Watershed.region)) :
    (regions env listed).Linked (final.map Watershed.region) := by
  induction run with
  | full => exact linked
  | failed => exact linked
  | optional => exact linked
  | found next room searched rest ih =>
    exact ih (.cons (searchBelow_child serves linked next searched) linked)

/-- One update keeps the tower, whatever it returns. -/
theorem update_stacked (serves : Serves env listed) (newPoint : Point) (m : Machine γ)
    {list : List (Watershed γ)} (stacked : Stacked env listed m.stack list) :
    ∃ final, Stacked env listed (endState ((update env newPoint).run m)).stack final := by
  rcases update_run env newPoint m stacked.1 with
    ⟨m', _, runs, stack⟩ | ⟨geom, addr, m', m'', kept, final, _, stack, climb, run⟩
  · rw [runs, endState_error, stack]
    exact ⟨list, stacked⟩
  · obtain ⟨held, suffix, _⟩ := climb.holds (by rw [stack]; exact stacked.1)
    exact ⟨final, (run.holds held).1,
      run.linked serves (stacked.2.suffix (suffix.map Watershed.region))⟩

/-- Every reachable stack is a linked tower. -/
theorem after_stacked (serves : Serves env listed) (skip : Bool) (history : List Point) :
    ∃ list, Stacked env listed (after env skip history).stack list := by
  let Inv : Machine γ → Prop := fun m => ∃ list, Stacked env listed m.stack list
  suffices kept : ∀ newPoint m, Inv m → Inv (endState ((update env newPoint).run m)) from
    after_invariant skip ⟨[], WatershedStack.init_holds skip, .nil⟩ kept history
  rintro newPoint m ⟨list, stacked⟩
  exact update_stacked serves newPoint m stacked

end Runs

end WatershedOracle
