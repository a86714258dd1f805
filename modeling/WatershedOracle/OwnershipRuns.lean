import Mathlib.Data.List.Induction
import WatershedOracle.Coverage
import WatershedOracle.Ownership

set_option autoImplicit false

/-! Ownership over whole runs: from `init` through any updates to `deinit`, what is
live is what the stack owns as long as no search loses a geometry, and only then. -/

namespace WatershedOracle

open Effect

variable {γ : Type} {env : Externals γ}

/-! ### The climb is a function of the stack and of the answers of GEOS -/

/-- The cached regions that an update keeps when it asks about them from the given call
on, and the number of the call after that. -/
def climbed (env : Externals γ) (point : γ) : Nat → List (Watershed γ) → List (Watershed γ) × Nat
  | calls, [] => ([], calls)
  | calls, w :: rest =>
      if env.covers calls w.geom.geom point = 1 then (w :: rest, calls + 1)
      else climbed env point (calls + 1) rest

variable (env) in
theorem climbed_later (point : γ) (calls : Nat) (list : List (Watershed γ)) :
    calls ≤ (climbed env point calls list).2 := by
  induction list generalizing calls with
  | nil => exact Nat.le_refl calls
  | cons w rest ih =>
    rw [climbed]
    split
    · exact Nat.le_succ calls
    · exact Nat.le_of_succ_le (ih (calls + 1))

theorem Revalidation.climbed_eq {m m' : Machine γ} {list kept : List (Watershed γ)}
    (climb : Revalidation env m list m' kept) {point : GeomPtr γ}
    (at_ : m.stack.point = some point) :
    climbed env point.geom m.calls list = (kept, m'.calls) := by
  induction climb with
  | empty => rfl
  | vacant finer up ih => exact ih (by simpa using at_)
  | @covered m w rest asked isAt covers =>
    obtain rfl : point = asked := Option.some.inj (at_.symm.trans isAt)
    simp [climbed, covers, Machine.asked, Machine.ticked, Machine.recorded]
  | @uncovered m m' w rest kept level asked isTop isAt apart up ih =>
    obtain rfl : point = asked := Option.some.inj (at_.symm.trans isAt)
    rw [climbed, if_neg apart]
    exact ih (by simpa using at_)

/-! ### One update -/

/-- Below the cached regions that the new point keeps, the rows, their prefixes and the
outcomes of the calls lead to a row that covers the point and whose name gets no memory. -/
def UpdateLoses (env : Externals γ) (newPoint : Point) (m : Machine γ) : Prop :=
  ∃ geom, env.geometryOf newPoint.location = some geom ∧
    Loses env geom (env.boundsOf geom) m.stack.depth
      (climbed env geom (m.calls + 1) m.stack.cached).2
      ((climbed env geom (m.calls + 1) m.stack.cached).1.map Watershed.region)

/-- What the stack owns, and what earlier updates have lost. -/
def Machine.Owns (m : Machine γ) (lost : List Handle) : Prop :=
  m.Accounts (m.stack.owned ++ lost)

theorem Machine.Owns.ledger {m : Machine γ} {lost : List Handle} (owns : m.Owns lost)
    {list : List (Watershed γ)} (holds : m.stack.Holds list) :
    m.Accounts (pointHandles m.stack.point ++ (list.flatMap Watershed.handles ++ lost)) := by
  apply owns.perm
  rw [← List.append_assoc]
  exact holds.owned_perm.append_right lost

theorem Machine.Owns.of_ledger {m : Machine γ} {lost : List Handle} {list : List (Watershed γ)}
    (holds : m.stack.Holds list)
    (accounts : m.Accounts (pointHandles m.stack.point ++
      (list.flatMap Watershed.handles ++ lost))) : m.Owns lost := by
  apply accounts.perm
  rw [← List.append_assoc]
  exact (holds.owned_perm.append_right lost).symm

/-- Clearing the point gives back its geometry. -/
theorem Machine.Owns.cleared {m : Machine γ} {lost : List Handle} (owns : m.Owns lost)
    {list : List (Watershed γ)} (holds : m.stack.Holds list) :
    m.cleared.Accounts (list.flatMap Watershed.handles ++ lost) := by
  have accounts := owns.ledger holds
  cases at_ : m.stack.point with
  | none =>
    have trace : m.cleared.trace = m.trace := by simp [Machine.trace, Machine.cleared, at_]
    rw [at_] at accounts
    exact Machine.Accounts.later accounts trace (Nat.le_refl m.calls)
  | some point =>
    have trace : m.cleared.trace = (m.recorded (.geomDestroyed point.addr)).trace := by
      simp [Machine.trace, Machine.cleared, Machine.recorded, at_]
    rw [at_] at accounts
    exact (Machine.Accounts.destroyed accounts).later trace (Nat.le_refl m.calls)

/-- An update owns what it leaves behind, and loses at most one geometry. -/
theorem update_owns (newPoint : Point) {m : Machine γ} {list : List (Watershed γ)}
    (holds : m.stack.Holds list) {lost : List Handle} (owns : m.Owns lost) :
    ∃ new, (endState ((update env newPoint).run m)).Owns (new ++ lost) ∧
      (Continues ((update env newPoint).run m) → (new = [] ↔ ¬ UpdateLoses env newPoint m)) := by
  let requested : Machine γ :=
    { m with stack := { m.stack with requestId := newPoint.requestId } }
  have held : requested.stack.Holds list := holds
  have owned : requested.Owns lost := owns.later rfl (Nat.le_refl _)
  have cleared := owned.cleared held
  cases made : env.geometryOf newPoint.location with
  | none =>
    refine ⟨[], ?_, fun _ => ?_⟩
    · rw [update_refused newPoint m made]
      exact Machine.Owns.of_ledger holds cleared
    · simp [UpdateLoses, made]
  | some geom =>
    have accounts : (m.asking newPoint.requestId env geom).Accounts
        (ledgerOf ⟨m.calls, geom⟩ list lost) :=
      (cleared.acquired (h := .geometry m.calls) rfl rfl).later rfl (Nat.le_refl _)
    have isHeld : (m.asking newPoint.requestId env geom).stack.Holds list := holds
    obtain ⟨m', kept, final, climb, run⟩ := update_climbs newPoint holds made
    obtain ⟨keptHeld, _, same⟩ := climb.holds isHeld
    obtain ⟨finalHeld, _, same'⟩ := run.holds keptHeld
    have at_ : m'.stack.point = some ⟨m.calls, geom⟩ := same.1
    obtain ⟨new, accounts', only⟩ :=
      run.accounts keptHeld at_ (climb.accounts isHeld rfl accounts)
    refine ⟨new, ?_, fun continues => ?_⟩
    · apply Machine.Owns.of_ledger finalHeld
      rw [same'.1, at_]
      exact accounts'
    · have isPoint : (m.asking newPoint.requestId env geom).stack.point = some ⟨m.calls, geom⟩ :=
        rfl
      have asked : climbed env geom (m.calls + 1) list = (kept, m'.calls) :=
        climb.climbed_eq isPoint
      have depth : m'.stack.depth = m.stack.depth := same.depth
      have bounds : m'.stack.pointBounds = env.boundsOf geom := same.2.1
      rw [only continues, not_iff_not, depth, bounds]
      simp [UpdateLoses, made, holds.cached_eq, asked]

/-! ### deinit -/

/-- The releases of `deinit`, for any levels. -/
def releaseSlots : List Level → Zig γ Unit
  | [] => pure ()
  | level :: rest => do
      releaseSlot level
      releaseSlots rest

/-- The assignments of null that end `deinit`, for any levels. -/
def clearSlots : List Level → Zig γ Unit
  | [] => pure ()
  | level :: rest => do
      storeSlot level none
      clearSlots rest

theorem deinit_eq :
    (deinit : Zig γ Unit) = (do clearPoint; releaseSlots Level.all; clearSlots Level.all) := by
  simp only [deinit, releaseSlots, clearSlots, Level.all, bind_assoc, pure_bind]
  rfl

/-- What the slot holds was given back. -/
def Machine.Relinquished (m : Machine γ) (level : Level) : Prop :=
  ∀ w, m.stack.slot level = some w → ∀ h ∈ w.handles, .release h ∈ m.trace

theorem releaseSlot_accounts (level : Level) {m : Machine γ} {handles : List Handle}
    (accounts : m.Accounts (((m.stack.slot level).toList.flatMap Watershed.handles) ++ handles)) :
    ∃ m', (releaseSlot level : Zig γ Unit).run m = .ok () m' ∧ m'.Accounts handles ∧
      m'.stack = m.stack ∧ m.trace ⊆ m'.trace ∧ m'.Relinquished level := by
  simp only [releaseSlot, EStateM.run_bind, EStateM.run_get]
  cases occupied : m.stack.slot level with
  | none =>
    rw [occupied] at accounts
    refine ⟨m, rfl, accounts, rfl, List.Subset.refl _, fun w isSome => ?_⟩
    cases occupied.symm.trans isSome
  | some w =>
    have both : m.Accounts (.name w.name.addr :: .geometry w.geom.addr :: handles) := by
      rw [occupied] at accounts
      exact accounts.perm (List.Perm.swap ..)
    have grown : ((m.recorded (.nameFreed w.name.addr)).recorded
        (.geomDestroyed w.geom.addr)).trace =
          .release (.geometry w.geom.addr) :: .release (.name w.name.addr) :: m.trace := rfl
    refine ⟨_, rfl, both.freed.destroyed, rfl, ?_, fun other isSome h member => ?_⟩
    · intro entry member
      exact List.mem_cons_of_mem _ (List.mem_cons_of_mem _ member)
    · obtain rfl : w = other := Option.some.inj (occupied.symm.trans isSome)
      show Ledger.Entry.release h ∈ ((m.recorded (.nameFreed w.name.addr)).recorded
        (.geomDestroyed w.geom.addr)).trace
      rw [grown]
      simp only [Watershed.handles, List.mem_cons, List.not_mem_nil, or_false] at member
      rcases member with rfl | rfl <;> simp

theorem releaseSlots_accounts (levels : List Level) {m : Machine γ} {handles : List Handle}
    (accounts : m.Accounts
      ((levels.filterMap m.stack.slot).flatMap Watershed.handles ++ handles)) :
    ∃ m', (releaseSlots levels : Zig γ Unit).run m = .ok () m' ∧ m'.Accounts handles ∧
      m'.stack = m.stack ∧ m.trace ⊆ m'.trace ∧ ∀ level ∈ levels, m'.Relinquished level := by
  induction levels generalizing m with
  | nil => exact ⟨m, rfl, accounts, rfl, List.Subset.refl _, by simp⟩
  | cons level rest ih =>
    have split : (((level :: rest).filterMap m.stack.slot).flatMap Watershed.handles ++ handles) =
        (m.stack.slot level).toList.flatMap Watershed.handles ++
          ((rest.filterMap m.stack.slot).flatMap Watershed.handles ++ handles) := by
      cases occupied : m.stack.slot level <;> simp [occupied]
    rw [split] at accounts
    obtain ⟨m1, first, accounts1, same1, grows1, gone⟩ := releaseSlot_accounts level accounts
    rw [← same1] at accounts1
    obtain ⟨m2, second, accounts2, same2, grows2, others⟩ := ih accounts1
    refine ⟨m2, ?_, accounts2, same2.trans same1, List.Subset.trans grows1 grows2, ?_⟩
    · simp only [releaseSlots, EStateM.run_bind, first, second]
    · have kept : m2.Relinquished level := by
        intro w occupied h member
        rw [same2] at occupied
        exact grows2 (gone w occupied h member)
      exact List.forall_mem_cons.mpr ⟨kept, others⟩

/-- The null assignments lose nothing, since everything was given back before. -/
theorem clearSlots_accounts (levels : List Level) {m : Machine γ} {handles : List Handle}
    (accounts : m.Accounts handles) (gone : ∀ level ∈ levels, m.Relinquished level) :
    ∃ m', (clearSlots levels : Zig γ Unit).run m = .ok () m' ∧ m'.Accounts handles := by
  induction levels generalizing m with
  | nil => exact ⟨m, rfl, accounts⟩
  | cons level rest ih =>
    obtain ⟨relinquished, later⟩ := List.forall_mem_cons.mp gone
    have next : (m.stored level none).Accounts handles ∧
        m.trace ⊆ (m.stored level none).trace := by
      cases occupied : m.stack.slot level with
      | none =>
        refine ⟨accounts.stored occupied none, ?_⟩
        simp [Machine.trace, Machine.stored, occupied, Event.entries]
      | some w =>
        have trace : (m.stored level none).trace = .forget (.geometry w.geom.addr) ::
            .forget (.name w.name.addr) :: m.trace := by
          simp [Machine.trace, Machine.stored, occupied, Event.entries]
        have released := relinquished w occupied
        refine ⟨⟨?_, fun h member => accounts.past h ?_⟩, ?_⟩
        · rw [trace]
          apply Ledger.Balanced.forget
          · apply Ledger.Balanced.forget accounts.balanced
            exact released _ (by simp [Watershed.handles])
          · exact List.mem_cons_of_mem _ (released _ (by simp [Watershed.handles]))
        · simpa [trace] using member
        · rw [trace]
          intro entry member
          exact List.mem_cons_of_mem _ (List.mem_cons_of_mem _ member)
    obtain ⟨m', run, accounts'⟩ := ih next.1 fun other member w occupied h isHandle => by
      apply next.2
      apply later other member w _ h isHandle
      rw [Machine.stored_stack, WatershedStack.slot_setSlot] at occupied
      split at occupied
      · cases occupied
      · exact occupied
    exact ⟨m', by simp only [clearSlots, EStateM.run_bind, storeSlot_run, run], accounts'⟩

/-- The machine after `deinit`. -/
def closed (m : Machine γ) : Machine γ := endState ((deinit : Zig γ Unit).run m)

/-- `deinit` gives back all that the stack owns, each handle once. -/
theorem closed_accounts {m : Machine γ} {list : List (Watershed γ)} (holds : m.stack.Holds list)
    {lost : List Handle} (owns : m.Owns lost) : (closed m).Accounts lost := by
  have occupied : Level.all.filterMap m.cleared.stack.slot = list.reverse := by
    have held : m.cleared.stack.Holds list := holds
    rw [← held.cached_eq, WatershedStack.cached, List.reverse_reverse]
  have cleared : m.cleared.Accounts
      ((Level.all.filterMap m.cleared.stack.slot).flatMap Watershed.handles ++ lost) := by
    rw [occupied]
    apply (owns.cleared holds).perm
    exact ((List.reverse_perm list).symm.flatMap_right Watershed.handles).append_right lost
  obtain ⟨m1, first, accounts1, same, _, gone⟩ := releaseSlots_accounts Level.all cleared
  obtain ⟨m2, second, accounts2⟩ := clearSlots_accounts Level.all accounts1 gone
  have run : (deinit : Zig γ Unit).run m = .ok () m2 := by
    simp only [deinit_eq, EStateM.run_bind, clearPoint_cleared, first, second]
  rw [closed, run]
  exact accounts2

/-! ### Whole runs -/

/-- Every update of the history returned, with a value or with an error. -/
def Returns (env : Externals γ) (skip : Bool) (history : List Point) : Prop :=
  ∀ before newPoint rest, history = before ++ newPoint :: rest →
    Continues ((update env newPoint).run (after env skip before))

/-- No update of the history comes to a search that loses a geometry. -/
def LosesNothing (env : Externals γ) (skip : Bool) (history : List Point) : Prop :=
  ∀ before newPoint rest, history = before ++ newPoint :: rest →
    ¬ UpdateLoses env newPoint (after env skip before)

/-- The ledger is in order throughout. After every update exactly what the stack owns
is live, one owner for each handle; after `deinit` nothing is. -/
structure OwnedExactly (env : Externals γ) (skip : Bool) (history : List Point) : Prop where
  updates : ∀ before rest, history = before ++ rest →
    Ledger.Balanced (after env skip before).trace (after env skip before).stack.owned
  deinit : Ledger.Balanced (closed (after env skip history)).trace []

variable (env) in
/-- Whatever happens, the ledger is in order and accounts for every live handle. -/
theorem after_owns (skip : Bool) (history : List Point) :
    ∃ lost, (after env skip history).Owns lost ∧
      (Returns env skip history → (lost = [] ↔ LosesNothing env skip history)) := by
  induction history using List.reverseRecOn with
  | nil =>
    refine ⟨[], ?_, fun _ => ?_⟩
    · rw [after_nil]
      exact .init _
    · simp [LosesNothing]
  | append_singleton history newPoint ih =>
    obtain ⟨lost, owns, only⟩ := ih
    obtain ⟨list, holds, _⟩ := after_holds env skip history
    obtain ⟨new, owns', only'⟩ := update_owns newPoint holds owns
    refine ⟨new ++ lost, by rw [after_concat]; exact owns', fun returns => ?_⟩
    have earlier : Returns env skip history := fun before point rest split =>
      returns before point (rest ++ [newPoint]) (by simp [split])
    rw [List.append_eq_nil_iff, only earlier, only' (returns history newPoint [] rfl)]
    constructor
    · rintro ⟨last, before⟩ front point rest split
      rcases List.eq_nil_or_concat rest with rfl | ⟨middle, final, rfl⟩
      · obtain ⟨rfl, same⟩ := List.append_inj' split rfl
        cases same
        exact last
      · apply before front point middle
        have shape : history ++ [newPoint] = (front ++ point :: middle) ++ [final] := by
          simpa using split
        exact (List.append_inj' shape rfl).1
    · intro nothing
      refine ⟨nothing history newPoint [] rfl, fun before point rest split => ?_⟩
      exact nothing before point (rest ++ [newPoint]) (by simp [split])

/-- In every run no handle is released twice or used after its release, and no slot is
overwritten that still holds one, also where a geometry is lost. -/
theorem after_orderly (skip : Bool) (history : List Point) :
    Ledger.Orderly (closed (after env skip history)).trace := by
  obtain ⟨list, holds, _⟩ := after_holds env skip history
  obtain ⟨lost, owns, _⟩ := after_owns env skip history
  exact (closed_accounts holds owns).balanced.orderly

theorem after_released_once (skip : Bool) (history : List Point) {h : Handle}
    {later earlier : List (Ledger.Entry Handle)}
    (split : (closed (after env skip history)).trace = later ++ .release h :: earlier) :
    (.release h ∉ later ∧ .release h ∉ earlier) ∧ .use h ∉ later := by
  have orderly : Ledger.Orderly (closed (after env skip history)).trace :=
    after_orderly skip history
  rw [split] at orderly
  exact ⟨orderly.released_once, orderly.unused_after⟩

/-- Ownership is exact over a run exactly when no search of it loses a geometry. -/
theorem ownedExactly_iff (skip : Bool) (history : List Point)
    (returns : Returns env skip history) :
    OwnedExactly env skip history ↔ LosesNothing env skip history := by
  obtain ⟨list, holds, _⟩ := after_holds env skip history
  obtain ⟨lost, owns, only⟩ := after_owns env skip history
  have closed := (closed_accounts holds owns).balanced
  constructor
  · intro exact_
    apply (only returns).mp
    have none_ := closed.exact_.symm.trans exact_.deinit.exact_
    exact List.perm_nil.mp none_
  · intro nothing
    refine ⟨fun before rest split => ?_, ?_⟩
    · obtain ⟨lost', owns', only'⟩ := after_owns env skip before
      have returned : Returns env skip before := fun front point back inner =>
        returns front point (back ++ rest) (by simp [split, inner])
      have empty : lost' = [] := (only' returned).mpr fun front point back inner =>
        nothing front point (back ++ rest) (by simp [split, inner])
      rw [empty] at owns'
      simpa [Machine.Owns] using owns'.balanced
    · rw [(only returns).mpr nothing] at closed
      exact closed

/-- No update over readable tables trips a safety check, whatever fails. -/
theorem Dataset.Readable.returns {d : Dataset} (readable : d.Readable env) (hosts : Hosts env d)
    (steady : env.Steady) (skip : Bool) (history : List Point) : Returns env skip history := by
  intro before newPoint rest _ check s panicked
  obtain ⟨list, stacked⟩ := after_stacked hosts.serves skip before
  cases made : env.geometryOf newPoint.location with
  | none =>
    rw [update_refused newPoint _ made] at panicked
    cases panicked
  | some geom =>
    have harmless : HarmlessPath env (after env skip before).stack.depth geom
        (list.map Watershed.region) :=
      (namedPath_iff hosts readable.shaped stacked.2).mpr (readable.named hosts stacked.2)
    exact not_calm_panic check
      (update_calm hosts.order steady newPoint stacked.1 made harmless panicked)

/-- The squares, when the second call, for the text of the first query, gets no memory. -/
def scarceWorld : Externals Box := (squareWorld 8).under (fun _ => none) fun now => now != 1

theorem scarceWorld_hosts : Hosts scarceWorld (squares 8) :=
  ⟨(serve_hosts (squares 8) boxes).mem, (serve_hosts (squares 8) boxes).like, fun _ _ => rfl⟩

/-- The first request runs out of memory and loses nothing; the others find their regions. -/
theorem ownedExactly_iff_squares :
    returned ((update scarceWorld (centerPoint 1)).run (after scarceWorld false [])) =
        .error (.error .OutOfMemory) ∧
      OwnedExactly scarceWorld false (centerPoint 1 :: strayHistory) ∧
      LosesNothing scarceWorld false (centerPoint 1 :: strayHistory) := by
  have nothing : LosesNothing scarceWorld false (centerPoint 1 :: strayHistory) := by
    rintro before newPoint rest _ ⟨geom, _, loses⟩
    obtain ⟨last, late, denied⟩ := loses.refused
    have started := climbed_later scarceWorld geom
      ((after scarceWorld false before).calls + 1) (after scarceWorld false before).stack.cached
    have second : last = 1 := by simpa [scarceWorld, Externals.under] using denied
    omega
  have readable : (squares 8).Readable scarceWorld := fun level row member =>
    ⟨(squares_readable 8 level row member).region, (squares_readable 8 level row member).header⟩
  have steady : scarceWorld.Steady := serve_steady (squares 8) boxes
  have returns := readable.returns scarceWorld_hosts steady false (centerPoint 1 :: strayHistory)
  refine ⟨by rw [after_nil]; decide +kernel, ?_, nothing⟩
  exact (ownedExactly_iff false (centerPoint 1 :: strayHistory) returns).mpr nothing

/-- One square whose name cannot be allocated, in the twelfth call of the first update. -/
def unnamedWorld : Externals Box := { squareWorld 1 with allocates := fun now => now != 11 }

/-- The update of the center ends in error.OutOfMemory, and the geometry of the square
that its search has found outlives `deinit`. -/
theorem ownedExactly_fails :
    returned ((update unnamedWorld (centerPoint 1)).run (after unnamedWorld false [])) =
        .error (.error .OutOfMemory) ∧
      ¬ OwnedExactly unnamedWorld false [centerPoint 1] := by
  rw [after_nil]
  refine ⟨by decide +kernel, fun owned => ?_⟩
  have nothing := List.perm_nil.mp owned.deinit.exact_
  have history : after unnamedWorld false [centerPoint 1] =
      endState ((update unnamedWorld (centerPoint 1)).run { stack := .init false }) := by
    rw [show [centerPoint 1] = [] ++ [centerPoint 1] from rfl, after_concat, after_nil]
  rw [history] at nothing
  revert nothing
  decide +kernel

end WatershedOracle
