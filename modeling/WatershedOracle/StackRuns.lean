import WatershedOracle.SearchSpec

set_option autoImplicit false

/-! The sixteen check and update functions as one run: first the finest cached
regions are dropped until one covers the point, then the levels below it are
searched. The slots of such a run are a list, finest region first. -/

namespace WatershedOracle

open Effect

variable {γ : Type}

namespace Level

/-- The position of a level from coarse to fine. -/
def index : Level → Nat
  | .huc2 => 0
  | .huc4 => 1
  | .huc6 => 2
  | .huc8 => 3
  | .huc10 => 4
  | .huc12 => 5
  | .huc14 => 6
  | .huc16 => 7

/-- The number of characters in a code of this level. -/
def digits (level : Level) : Nat := 2 * (level.index + 1)

def hucLevel : Level → String
  | .huc2 => "huc2"
  | .huc4 => "huc4"
  | .huc6 => "huc6"
  | .huc8 => "huc8"
  | .huc10 => "huc10"
  | .huc12 => "huc12"
  | .huc14 => "huc14"
  | .huc16 => "huc16"

def tableName : Level → String
  | .huc2 => "WBDHU2"
  | .huc4 => "WBDHU4"
  | .huc6 => "WBDHU6"
  | .huc8 => "WBDHU8"
  | .huc10 => "WBDHU10"
  | .huc12 => "WBDHU12"
  | .huc14 => "WBDHU14"
  | .huc16 => "WBDHU16"

/-- The query for the rows of a level whose code starts with `likePattern`. -/
def query (level : Level) (likePattern : Bytes) : Query :=
  ⟨level.hucLevel, level.tableName, likePattern⟩

/-- Every level, coarse to fine. -/
def all : List Level := [.huc2, .huc4, .huc6, .huc8, .huc10, .huc12, .huc14, .huc16]

theorem all_index : all.map index = List.range 8 := rfl

theorem index_injective {a b : Level} (same : a.index = b.index) : a = b := by
  cases a <;> cases b <;> first | rfl | cases same

theorem digits_le (level : Level) : level.digits ≤ 16 := by
  cases level <;> decide

theorem exists_index {n : Nat} (inside : n < 8) : ∃ level : Level, level.index = n := by
  match n, inside with
  | 0, _ => exact ⟨.huc2, rfl⟩
  | 1, _ => exact ⟨.huc4, rfl⟩
  | 2, _ => exact ⟨.huc6, rfl⟩
  | 3, _ => exact ⟨.huc8, rfl⟩
  | 4, _ => exact ⟨.huc10, rfl⟩
  | 5, _ => exact ⟨.huc12, rfl⟩
  | 6, _ => exact ⟨.huc14, rfl⟩
  | 7, _ => exact ⟨.huc16, rfl⟩

end Level

namespace WatershedStack

variable (stack : WatershedStack γ) (value : Option (Watershed γ)) (level : Level)

theorem slot_setSlot (other : Level) :
    (stack.setSlot value level).slot other = if other = level then value else stack.slot other := by
  cases level <;> cases other <;> rfl

@[simp] theorem setSlot_point : (stack.setSlot value level).point = stack.point := by
  cases level <;> rfl

@[simp] theorem setSlot_pointBounds :
    (stack.setSlot value level).pointBounds = stack.pointBounds := by
  cases level <;> rfl

@[simp] theorem setSlot_requestId : (stack.setSlot value level).requestId = stack.requestId := by
  cases level <;> rfl

@[simp] theorem setSlot_skip :
    (stack.setSlot value level).skipHuc14and16 = stack.skipHuc14and16 := by
  cases level <;> rfl

/-- How many levels are ever searched. -/
def depth : Nat := if stack.skipHuc14and16 then 6 else 8

@[simp] theorem setSlot_depth : (stack.setSlot value level).depth = stack.depth := by
  simp only [depth, setSlot_skip]

theorem depth_le : stack.depth ≤ 8 := by
  unfold depth
  split <;> omega

theorem depth_pos : 0 < stack.depth := by
  unfold depth
  split <;> decide

theorem depth_of_skip {stack : WatershedStack γ} (skipped : stack.skipHuc14and16 = true) :
    stack.depth = 6 := by
  simp [depth, skipped]

theorem depth_of_not_skip {stack : WatershedStack γ}
    (unskipped : stack.skipHuc14and16 = false) : stack.depth = 8 := by
  simp [depth, unskipped]

variable {stack value level}

/-- The slots hold exactly the list, whose head is the finest region. -/
def Holds (stack : WatershedStack γ) (list : List (Watershed γ)) : Prop :=
  list.length ≤ stack.depth ∧ ∀ level, stack.slot level = list.reverse[level.index]?

theorem Holds.slot {list : List (Watershed γ)} (holds : stack.Holds list) (level : Level) :
    stack.slot level = list.reverse[level.index]? :=
  holds.2 level

theorem Holds.vacant {list : List (Watershed γ)} (holds : stack.Holds list)
    (finer : list.length ≤ level.index) : stack.slot level = none := by
  rw [holds.slot, List.getElem?_eq_none (by simpa using finer)]

theorem Holds.top {w : Watershed γ} {rest : List (Watershed γ)}
    (holds : stack.Holds (w :: rest)) (at_ : level.index = rest.length) :
    stack.slot level = some w := by
  rw [holds.slot, at_, List.reverse_cons, List.getElem?_append_right (by simp)]
  simp

theorem Holds.push {list : List (Watershed γ)} (holds : stack.Holds list) (w : Watershed γ)
    (next : level.index = list.length) (room : list.length < stack.depth) :
    (stack.setSlot (some w) level).Holds (w :: list) := by
  refine ⟨by simpa [Nat.succ_le_iff] using room, fun other => ?_⟩
  rw [slot_setSlot, List.reverse_cons]
  by_cases same : other = level
  · subst same
    rw [if_pos rfl, next, List.getElem?_append_right (by simp)]
    simp
  · have apart : other.index ≠ list.length := fun equal =>
      same (Level.index_injective (equal.trans next.symm))
    rw [if_neg same, holds.slot]
    by_cases coarser : other.index < list.length
    · rw [List.getElem?_append_left (by simpa using coarser)]
    · rw [List.getElem?_eq_none (by simpa using coarser),
        List.getElem?_eq_none (by simp; omega)]

theorem Holds.pop {w : Watershed γ} {rest : List (Watershed γ)}
    (holds : stack.Holds (w :: rest)) (at_ : level.index = rest.length) :
    (stack.setSlot none level).Holds rest := by
  have fits := holds.1
  simp only [List.length_cons] at fits
  refine ⟨by rw [setSlot_depth]; omega, fun other => ?_⟩
  rw [slot_setSlot]
  by_cases same : other = level
  · subst same
    rw [if_pos rfl, at_, List.getElem?_eq_none (by simp)]
  · have apart : other.index ≠ rest.length := fun equal =>
      same (Level.index_injective (equal.trans at_.symm))
    rw [if_neg same, holds.slot, List.reverse_cons]
    by_cases coarser : other.index < rest.length
    · rw [List.getElem?_append_left (by simpa using coarser)]
    · rw [List.getElem?_eq_none (by simp; omega),
        List.getElem?_eq_none (by simpa using coarser)]

theorem Holds.clear {list : List (Watershed γ)} (holds : stack.Holds list)
    (finer : list.length ≤ level.index) : (stack.setSlot none level).Holds list := by
  refine ⟨by simpa using holds.1, fun other => ?_⟩
  rw [slot_setSlot]
  split
  · rename_i same
    subst same
    rw [← holds.slot, holds.vacant finer]
  · exact holds.slot other

theorem init_holds (skip : Bool) : (WatershedStack.init skip : WatershedStack γ).Holds [] := by
  refine ⟨Nat.zero_le _, fun level => ?_⟩
  cases level <;> rfl

/-- The slots read back as a list. -/
theorem Holds.unique {first second : List (Watershed γ)} (one : stack.Holds first)
    (two : stack.Holds second) : first = second := by
  apply List.reverse_inj.mp
  apply List.ext_getElem?
  intro i
  by_cases inside : i < 8
  · obtain ⟨level, rfl⟩ := Level.exists_index inside
    rw [← one.slot, ← two.slot]
  · have deep := stack.depth_le
    have h1 := one.1
    have h2 := two.1
    rw [List.getElem?_eq_none (by simp; omega), List.getElem?_eq_none (by simp; omega)]

/-- The occupied slots, finest first. -/
def cached (stack : WatershedStack γ) : List (Watershed γ) :=
  (Level.all.filterMap stack.slot).reverse

theorem filterMap_range_getElem? {α : Type} (l : List α) (n : Nat) :
    (List.range n).filterMap (fun i => l[i]?) = l.take n := by
  induction n with
  | zero => simp
  | succ n ih =>
    rw [List.range_succ, List.filterMap_append, ih, List.take_add_one]
    cases h : l[n]? <;> simp [h]

theorem Holds.cached_eq {list : List (Watershed γ)} (holds : stack.Holds list) :
    stack.cached = list := by
  have fits := Nat.le_trans holds.1 stack.depth_le
  have slots : Level.all.filterMap stack.slot = list.reverse := by
    calc Level.all.filterMap stack.slot
        = Level.all.filterMap (fun level => list.reverse[level.index]?) := by
          simp only [funext holds.slot]
      _ = (List.range 8).filterMap (fun i => list.reverse[i]?) := by
          rw [← Level.all_index, List.filterMap_map]
          rfl
      _ = list.reverse := by
          rw [filterMap_range_getElem?, List.take_of_length_le (by simpa using fits)]
  rw [cached, slots, List.reverse_reverse]

end WatershedStack

namespace Machine

/-- After `storeSlot`. -/
def stored (m : Machine γ) (level : Level) (value : Option (Watershed γ)) : Machine γ :=
  { m with
    stack := m.stack.setSlot value level
    events := .slotWritten level ((m.stack.slot level).map fun w => (w.geom.addr, w.name.addr)) ::
      m.events }

@[simp] theorem stored_stack (m : Machine γ) (level : Level) (value : Option (Watershed γ)) :
    (m.stored level value).stack = m.stack.setSlot value level := rfl

/-- After the question whether `geom` covers `point`. -/
def asked (m : Machine γ) (geom point : GeomPtr γ) : Machine γ :=
  m.ticked.recorded (.coversCalled geom.addr point.addr)

@[simp] theorem asked_stack (m : Machine γ) (geom point : GeomPtr γ) :
    (m.asked geom point).stack = m.stack := rfl

/-- After the geometry and the name of a region that does not cover were given up. -/
def released (m : Machine γ) (w : Watershed γ) (level : Level) : Machine γ :=
  ((m.recorded (.geomDestroyed w.geom.addr)).recorded (.nameFreed w.name.addr)).stored level none

@[simp] theorem released_stack (m : Machine γ) (w : Watershed γ) (level : Level) :
    (m.released w level).stack = m.stack.setSlot none level := rfl

end Machine

@[simp] theorem storeSlot_run (level : Level) (value : Option (Watershed γ)) (m : Machine γ) :
    (storeSlot level value).run m = .ok () (m.stored level value) := rfl

theorem pointCoveredBy_run (env : Externals γ) (geom : GeomPtr γ) {m : Machine γ}
    {point : GeomPtr γ} (at_ : m.stack.point = some point) :
    (pointCoveredBy env geom).run m =
      .ok (env.covers m.calls geom.geom point.geom == 1) (m.asked geom point) := by
  simp only [pointCoveredBy, EStateM.run_bind, EStateM.run_get, at_]
  rfl

/-- The part of the parent's code that the next finer level is searched with. -/
def codeBelow : List (Watershed γ) → Bytes
  | [] => []
  | parent :: rest => parent.hucPrefix (2 * (rest.length + 1))

/-- The search for the level below the list. -/
def searchBelow (env : Externals γ) (level : Level) (list : List (Watershed γ)) :
    Zig γ (Watershed γ) :=
  search env level.hucLevel level.tableName (codeBelow list)

/-- A descent from the list to the final list, and how it ended. -/
inductive Descent (env : Externals γ) : Machine γ → List (Watershed γ) →
    EStateM.Result Fault (Machine γ) Unit → List (Watershed γ) → Prop
  | full {m : Machine γ} {list : List (Watershed γ)} (isFull : list.length = m.stack.depth) :
      Descent env m list (.ok () m) list
  | failed {m m' : Machine γ} {list : List (Watershed γ)} {level : Level} {fault : Fault}
      (next : level.index = list.length) (room : list.length < m.stack.depth)
      (searched : (searchBelow env level list).run m = .error fault m')
      (raised : level = .huc14 → fault ≠ .error .pointNotInDataset) :
      Descent env m list (.error fault m') list
  | optional {m m' : Machine γ} {list : List (Watershed γ)}
      (next : Level.huc14.index = list.length) (room : list.length < m.stack.depth)
      (searched : (searchBelow env .huc14 list).run m = .error (.error .pointNotInDataset) m') :
      Descent env m list (.ok () m') list
  | found {m m' : Machine γ} {list final : List (Watershed γ)} {level : Level}
      {w : Watershed γ} {result : EStateM.Result Fault (Machine γ) Unit}
      (next : level.index = list.length) (room : list.length < m.stack.depth)
      (searched : (searchBelow env level list).run m = .ok w m')
      (rest : Descent env (m'.stored level (some w)) (w :: list) result final) :
      Descent env m list result final

/-- The climb through the cached regions, ending at the first that covers. -/
inductive Revalidation (env : Externals γ) : Machine γ → List (Watershed γ) →
    Machine γ → List (Watershed γ) → Prop
  | empty {m : Machine γ} : Revalidation env m [] m []
  | vacant {m m' : Machine γ} {list kept : List (Watershed γ)} {level : Level}
      (finer : list.length ≤ level.index)
      (up : Revalidation env (m.stored level none) list m' kept) :
      Revalidation env m list m' kept
  | covered {m : Machine γ} {w : Watershed γ} {rest : List (Watershed γ)} {point : GeomPtr γ}
      (at_ : m.stack.point = some point)
      (covers : env.covers m.calls w.geom.geom point.geom = 1) :
      Revalidation env m (w :: rest) (m.asked w.geom point) (w :: rest)
  | uncovered {m m' : Machine γ} {w : Watershed γ} {rest kept : List (Watershed γ)}
      {level : Level} {point : GeomPtr γ} (isTop : level.index = rest.length)
      (at_ : m.stack.point = some point)
      (apart : env.covers m.calls w.geom.geom point.geom ≠ 1)
      (up : Revalidation env ((m.asked w.geom point).released w level) rest m' kept) :
      Revalidation env m (w :: rest) m' kept

section Updates

variable (env : Externals γ)

/-- `x` runs the descent from any list of `n` regions. -/
def UpdatesFrom (n : Nat) (x : Zig γ Unit) : Prop :=
  ∀ m list, m.stack.Holds list → list.length = n → n ≤ m.stack.depth →
    ∃ final, Descent env m list (x.run m) final

variable {env}

theorem search_stack {hucLevel tableName : String} {likePattern : Bytes} {m m' : Machine γ}
    {w : Watershed γ}
    (searched : (search env hucLevel tableName likePattern).run m = .ok w m') :
    m'.stack = m.stack :=
  ((search_ends env hucLevel tableName likePattern m).returned searched).1

theorem search_failed_stack {hucLevel tableName : String} {likePattern : Bytes}
    {m m' : Machine γ} {fault : Fault}
    (searched : (search env hucLevel tableName likePattern).run m = .error fault m') :
    m'.stack = m.stack :=
  ((search_ends env hucLevel tableName likePattern m).failed searched).1

variable (env)

/-- The step every level but huc14 makes: search, store, go on. -/
theorem descent_step (level : Level) (next : Zig γ Unit) {m : Machine γ}
    {list : List (Watershed γ)} (holds : m.stack.Holds list) (at_ : level.index = list.length)
    (room : list.length < m.stack.depth) (ordinary : level ≠ .huc14)
    (below : UpdatesFrom env (list.length + 1) next) :
    ∃ final, Descent env m list
      ((searchBelow env level list >>= fun found => storeSlot level (some found) >>= fun _ =>
        next).run m) final := by
  rw [EStateM.run_bind]
  cases searched : (searchBelow env level list).run m with
  | error fault m' =>
    exact ⟨list, .failed at_ room searched fun special => absurd special ordinary⟩
  | ok w m' =>
    have kept := search_stack searched
    obtain ⟨final, run⟩ := below (m'.stored level (some w)) (w :: list)
      (by rw [Machine.stored_stack, kept]; exact holds.push w at_ room) rfl
      (by rw [Machine.stored_stack, kept, WatershedStack.setSlot_depth]; omega)
    exact ⟨final, .found at_ room searched run⟩

theorem done_updates : UpdatesFrom env 8 (pure () : Zig γ Unit) := by
  intro m list holds length inside
  have deep := m.stack.depth_le
  exact ⟨list, .full (by omega)⟩

theorem updateHUC16_updates : UpdatesFrom env 7 (updateHUC16 env) := by
  intro m list holds length inside
  cases skipped : m.stack.skipHuc14and16 with
  | true => rw [WatershedStack.depth_of_skip skipped] at inside; omega
  | false =>
    have deep := WatershedStack.depth_of_not_skip skipped
    match list, length with
    | w :: rest, length =>
      have bottom : rest.length = 6 := by simpa using length
      have top : m.stack.huc14 = some w :=
        holds.top (show Level.huc14.index = rest.length from bottom.symm)
      have code : codeBelow (w :: rest) = w.hucPrefix 14 := by simp only [codeBelow, bottom]
      obtain ⟨final, run⟩ := descent_step env .huc16 (pure ()) holds
        length.symm (by omega) (by decide) (by rw [length]; exact done_updates env)
      refine ⟨final, ?_⟩
      simp only [searchBelow, code, EStateM.run_bind, storeSlot_run] at run
      simp only [updateHUC16, EStateM.run_bind, EStateM.run_get, skipped, top,
        Bool.false_eq_true, ↓reduceIte, storeSlot_run]
      exact run

theorem unlessNotInDataset_run {α : Type} (x : Zig γ α) (m : Machine γ) :
    (unlessNotInDataset x).run m =
      match x.run m with
      | .ok a m' => .ok (some a) m'
      | .error (.error .pointNotInDataset) m' => .ok none m'
      | .error fault m' => .error fault m' := by
  cases run : x.run m with
  | ok a m' =>
    have mapped : (some <$> x).run m = .ok (some a) m' := by
      simp only [EStateM.run, Functor.map, EStateM.map] at run ⊢
      rw [run]
    exact run_tryCatch_ok mapped
  | error fault m' =>
    have mapped : (some <$> x).run m = .error fault m' := by
      simp only [EStateM.run, Functor.map, EStateM.map] at run ⊢
      rw [run]
    rw [unlessNotInDataset, run_tryCatch_error mapped]
    rcases fault with (_ | _) | _ <;> rfl

theorem updateHUC14_updates : UpdatesFrom env 6 (updateHUC14 env) := by
  intro m list holds length inside
  cases skipped : m.stack.skipHuc14and16 with
  | true =>
    refine ⟨list, ?_⟩
    simp only [updateHUC14, EStateM.run_bind, EStateM.run_get, skipped, ↓reduceIte,
      EStateM.run_pure]
    exact .full (length.trans (WatershedStack.depth_of_skip skipped).symm)
  | false =>
    have deep := WatershedStack.depth_of_not_skip skipped
    match list, length with
    | w :: rest, length =>
      have bottom : rest.length = 5 := by simpa using length
      have top : m.stack.huc12 = some w :=
        holds.top (show Level.huc12.index = rest.length from bottom.symm)
      have next : Level.huc14.index = (w :: rest).length := length.symm
      have room : (w :: rest).length < m.stack.depth := by omega
      have same : search env "huc14" "WBDHU14" (w.hucPrefix 12) =
          searchBelow env .huc14 (w :: rest) := by
        simp only [searchBelow, codeBelow, bottom]
        rfl
      simp only [updateHUC14, EStateM.run_bind, EStateM.run_get, skipped, top,
        Bool.false_eq_true, ↓reduceIte, unlessNotInDataset_run, same]
      cases searched : (searchBelow env .huc14 (w :: rest)).run m with
      | ok found m' =>
        have kept := search_stack searched
        obtain ⟨final, run⟩ := updateHUC16_updates env (m'.stored .huc14 (some found))
          (found :: w :: rest)
          (by rw [Machine.stored_stack, kept]; exact holds.push found next room)
          (by simpa using bottom)
          (by rw [Machine.stored_stack, kept, WatershedStack.setSlot_depth]; omega)
        exact ⟨final, .found next room searched run⟩
      | error fault m' =>
        refine ⟨w :: rest, ?_⟩
        by_cases absent : fault = .error .pointNotInDataset
        · subst absent
          exact .optional length.symm room searched
        · have passed := Descent.failed next room searched fun _ => absent
          rcases fault with e | check
          · cases e <;> first | exact passed | exact absurd rfl absent
          · exact passed

/-- One lemma for updateHUC4 to updateHUC12. -/
theorem updateBelow_updates (parent level : Level) {next : Zig γ Unit} {n : Nat}
    (above : parent.index = n) (below : level.index = n + 1) (ordinary : n < 5)
    (updates : UpdatesFrom env (n + 2) next) :
    UpdatesFrom env (n + 1)
      (updateBelow env parent level level.hucLevel level.tableName parent.digits next) := by
  intro m list holds length inside
  match list, length with
  | w :: rest, length =>
    have bottom : rest.length = n := by simpa using length
    have top : m.stack.slot parent = some w := holds.top (above.trans bottom.symm)
    have room : (w :: rest).length < m.stack.depth := by
      unfold WatershedStack.depth at *
      split <;> omega
    have code : codeBelow (w :: rest) = w.hucPrefix parent.digits := by
      simp only [codeBelow, Level.digits, bottom, above]
    obtain ⟨final, run⟩ := descent_step env level next holds
      (below.trans length.symm) room (by rintro rfl; cases below; omega)
      (by rw [length]; exact updates)
    refine ⟨final, ?_⟩
    simp only [searchBelow, code, EStateM.run_bind, storeSlot_run] at run
    simp only [updateBelow, EStateM.run_bind, EStateM.run_get, top, storeSlot_run]
    exact run

theorem updateHUC12_updates : UpdatesFrom env 5 (updateHUC12 env) :=
  updateBelow_updates env .huc10 .huc12 rfl rfl (by omega) (updateHUC14_updates env)

theorem updateHUC10_updates : UpdatesFrom env 4 (updateHUC10 env) :=
  updateBelow_updates env .huc8 .huc10 rfl rfl (by omega) (updateHUC12_updates env)

theorem updateHUC8_updates : UpdatesFrom env 3 (updateHUC8 env) :=
  updateBelow_updates env .huc6 .huc8 rfl rfl (by omega) (updateHUC10_updates env)

theorem updateHUC6_updates : UpdatesFrom env 2 (updateHUC6 env) :=
  updateBelow_updates env .huc4 .huc6 rfl rfl (by omega) (updateHUC8_updates env)

theorem updateHUC4_updates : UpdatesFrom env 1 (updateHUC4 env) :=
  updateBelow_updates env .huc2 .huc4 rfl rfl (by omega) (updateHUC6_updates env)

theorem updateHUC2_updates : UpdatesFrom env 0 (updateHUC2 env) := by
  intro m list holds length inside
  obtain rfl : list = [] := by simpa using length
  have room : ([] : List (Watershed γ)).length < m.stack.depth := by
    unfold WatershedStack.depth
    split <;> simp
  exact descent_step env .huc2 _ holds rfl room (by decide) (updateHUC4_updates env)

end Updates

section Checks

variable (env : Externals γ)

/-- `x` drops and then searches, from any list of at most `n` regions. -/
def ChecksFrom (n : Nat) (x : Zig γ Unit) : Prop :=
  ∀ m list point, m.stack.Holds list → list.length ≤ n → n ≤ m.stack.depth →
    m.stack.point = some point →
    ∃ m' kept final, Revalidation env m list m' kept ∧ Descent env m' kept (x.run m) final

theorem updateHUC2_checks : ChecksFrom env 0 (updateHUC2 env) := by
  intro m list point holds length inside _
  obtain rfl : list = [] := by simpa using length
  obtain ⟨final, run⟩ := updateHUC2_updates env m [] holds rfl inside
  exact ⟨m, [], final, .empty, run⟩

/-- One lemma for the eight checks. -/
theorem checkLevel_checks {level : Level} {down up : Zig γ Unit} {n : Nat}
    (at_ : level.index = n) (updates : UpdatesFrom env (n + 1) down)
    (checks : ChecksFrom env n up) : ChecksFrom env (n + 1) (checkLevel env level down up) := by
  intro m list point holds length inside isPoint
  by_cases occupied : list.length = n + 1
  · match list, occupied with
    | w :: rest, occupied =>
      have bottom : level.index = rest.length := by
        rw [at_]
        simpa using occupied.symm
      simp only [checkLevel, EStateM.run_bind, EStateM.run_get, holds.top bottom,
        pointCoveredBy_run env w.geom isPoint]
      by_cases covers : env.covers m.calls w.geom.geom point.geom = 1
      · obtain ⟨final, run⟩ := updates (m.asked w.geom point) (w :: rest) holds occupied inside
        refine ⟨_, _, final, .covered isPoint covers, ?_⟩
        simpa [covers] using run
      · obtain ⟨m', kept, final, climb, run⟩ := checks ((m.asked w.geom point).released w level)
          rest point (holds.pop bottom) (by simp at occupied; omega)
          (by rw [Machine.released_stack, WatershedStack.setSlot_depth]; exact Nat.le_of_succ_le inside)
          (by simpa using isPoint)
        refine ⟨m', kept, final, .uncovered bottom isPoint covers climb, ?_⟩
        have no : (env.covers m.calls w.geom.geom point.geom == 1) = false := by simpa using covers
        simp only [no, Bool.false_eq_true, ↓reduceIte, EStateM.run_bind, storeSlot_run]
        exact run
  · have finer : list.length ≤ level.index := by omega
    simp only [checkLevel, EStateM.run_bind, EStateM.run_get, holds.vacant finer, storeSlot_run]
    obtain ⟨m', kept, final, climb, run⟩ := checks (m.stored level none) list point
      (holds.clear finer) (by omega)
      (by rw [Machine.stored_stack, WatershedStack.setSlot_depth]; exact Nat.le_of_succ_le inside)
      (by simpa using isPoint)
    exact ⟨m', kept, final, .vacant finer climb, run⟩

theorem checkHUC2_checks : ChecksFrom env 1 (checkHUC2 env) :=
  checkLevel_checks env rfl (updateHUC4_updates env) (updateHUC2_checks env)

theorem checkHUC4_checks : ChecksFrom env 2 (checkHUC4 env) :=
  checkLevel_checks env rfl (updateHUC6_updates env) (checkHUC2_checks env)

theorem checkHUC6_checks : ChecksFrom env 3 (checkHUC6 env) :=
  checkLevel_checks env rfl (updateHUC8_updates env) (checkHUC4_checks env)

theorem checkHUC8_checks : ChecksFrom env 4 (checkHUC8 env) :=
  checkLevel_checks env rfl (updateHUC10_updates env) (checkHUC6_checks env)

theorem checkHUC10_checks : ChecksFrom env 5 (checkHUC10 env) :=
  checkLevel_checks env rfl (updateHUC12_updates env) (checkHUC8_checks env)

theorem checkHUC12_checks : ChecksFrom env 6 (checkHUC12 env) :=
  checkLevel_checks env rfl (updateHUC14_updates env) (checkHUC10_checks env)

theorem checkHUC14_checks : ChecksFrom env 7 (checkHUC14 env) :=
  checkLevel_checks env rfl (updateHUC16_updates env) (checkHUC12_checks env)

theorem checkHUC16_checks : ChecksFrom env 8 (checkHUC16 env) :=
  checkLevel_checks env rfl (done_updates env) (checkHUC14_checks env)

/-- The machine on which `updateStack` starts its checks. -/
def Machine.bounded (m : Machine γ) (env : Externals γ) (point : GeomPtr γ) : Machine γ :=
  { m with stack := { m.stack with pointBounds := env.boundsOf point.geom } }

/-- Whichever check it starts with, updateStack drops and then searches. -/
theorem updateStack_runs {m : Machine γ} {list : List (Watershed γ)} {point : GeomPtr γ}
    (holds : m.stack.Holds list) (isPoint : m.stack.point = some point) :
    ∃ m' kept final, Revalidation env (m.bounded env point) list m' kept ∧
      Descent env m' kept ((updateStack env).run m) final := by
  have fits := holds.1
  cases skipped : m.stack.skipHuc14and16 with
  | true =>
    have deep := WatershedStack.depth_of_skip skipped
    obtain ⟨m', kept, final, climb, run⟩ := checkHUC12_checks env
      (m.bounded env point) list point holds (by omega) (Nat.le_of_eq deep.symm) isPoint
    refine ⟨m', kept, final, climb, ?_⟩
    simp only [updateStack, EStateM.run_bind, EStateM.run_get, isPoint, skipped, ↓reduceIte]
    exact run
  | false =>
    have deep := WatershedStack.depth_of_not_skip skipped
    obtain ⟨m', kept, final, climb, run⟩ := checkHUC16_checks env
      (m.bounded env point) list point holds (by omega) (Nat.le_of_eq deep.symm) isPoint
    refine ⟨m', kept, final, climb, ?_⟩
    simp only [updateStack, EStateM.run_bind, EStateM.run_get, isPoint, skipped,
      Bool.false_eq_true, ↓reduceIte]
    exact run

end Checks

end WatershedOracle
