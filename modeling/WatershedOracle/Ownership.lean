import WatershedOracle.Boxes
import WatershedOracle.Library.Ledger
import WatershedOracle.SearchCalls

set_option autoImplicit false

/-! Who owns the GEOS geometries and the name buffers. The record of a run is read
as a ledger: what is live is what the stack owns, and what a search has lost. -/

namespace WatershedOracle

open Effect

variable {γ : Type}

/-- Something that must be given back to GEOS or to the allocator. -/
inductive Handle
  | geometry (addr : Nat)
  | name (addr : Nat)
  deriving DecidableEq

def Handle.addr : Handle → Nat
  | .geometry addr => addr
  | .name addr => addr

/-- What an event says of the handles it names. -/
def Event.entries : Event → List (Ledger.Entry Handle)
  | .geomCreated addr => [.acquire (.geometry addr)]
  | .geomDestroyed addr => [.release (.geometry addr)]
  | .nameAllocated addr => [.acquire (.name addr)]
  | .nameFreed addr => [.release (.name addr)]
  | .coversCalled geom point => [.use (.geometry geom), .use (.geometry point)]
  | .searched _ => []
  | .slotWritten _ none => []
  | .slotWritten _ (some (geom, name)) => [.forget (.geometry geom), .forget (.name name)]

def Watershed.handles (w : Watershed γ) : List Handle :=
  [.geometry w.geom.addr, .name w.name.addr]

def pointHandles (point : Option (GeomPtr γ)) : List Handle :=
  (point.map fun geom => Handle.geometry geom.addr).toList

/-- The current point, and the geometry and the name of each non-null slot. -/
def WatershedStack.owned (stack : WatershedStack γ) : List Handle :=
  pointHandles stack.point ++ (Level.all.filterMap stack.slot).flatMap Watershed.handles

theorem WatershedStack.Holds.owned_perm {stack : WatershedStack γ} {list : List (Watershed γ)}
    (holds : stack.Holds list) :
    stack.owned.Perm (pointHandles stack.point ++ list.flatMap Watershed.handles) := by
  have occupied : Level.all.filterMap stack.slot = list.reverse := by
    rw [← holds.cached_eq, WatershedStack.cached, List.reverse_reverse]
  rw [WatershedStack.owned, occupied]
  apply List.Perm.append_left
  exact (List.reverse_perm list).flatMap_right Watershed.handles

/-- The ledger of a run, newest entry first. -/
def Machine.trace (m : Machine γ) : List (Ledger.Entry Handle) := m.events.flatMap Event.entries

/-- The ledger is in order, exactly `handles` are live, and no address is still to come. -/
structure Machine.Accounts (m : Machine γ) (handles : List Handle) : Prop where
  balanced : Ledger.Balanced m.trace handles
  past : ∀ h : Handle, .acquire h ∈ m.trace → h.addr < m.calls

namespace Machine.Accounts

variable {m m' : Machine γ} {handles : List Handle}

theorem init (stack : WatershedStack γ) : ({ stack } : Machine γ).Accounts [] :=
  ⟨.nil, nofun⟩

theorem perm {others : List Handle} (accounts : m.Accounts handles)
    (same : handles.Perm others) : m.Accounts others :=
  ⟨accounts.balanced.perm same, accounts.past⟩

/-- Calls that leave no entry change nothing. -/
theorem later (accounts : m.Accounts handles) (trace : m'.trace = m.trace)
    (calls : m.calls ≤ m'.calls) : m'.Accounts handles := by
  refine ⟨by rw [trace]; exact accounts.balanced, fun h member => ?_⟩
  rw [trace] at member
  exact Nat.lt_of_lt_of_le (accounts.past h member) calls

theorem ticked (accounts : m.Accounts handles) : m.ticked.Accounts handles :=
  accounts.later rfl (Nat.le_succ m.calls)

/-- The address of a new handle is the number of the call that made it. -/
theorem fresh (accounts : m.Accounts handles) {h : Handle} (now : h.addr = m.calls) :
    Ledger.Entry.acquire h ∉ m.trace := by
  intro member
  have before := accounts.past h member
  omega

theorem acquired (accounts : m.Accounts handles) {h : Handle} (now : h.addr = m.calls)
    {event : Event} (entry : event.entries = [.acquire h]) :
    (m.ticked.recorded event).Accounts (h :: handles) := by
  have trace : (m.ticked.recorded event).trace = .acquire h :: m.trace := by
    simp [Machine.trace, Machine.recorded, Machine.ticked, entry]
  constructor
  · rw [trace]
    exact accounts.balanced.acquire (accounts.fresh now)
  · intro other member
    rw [trace] at member
    show other.addr < m.calls + 1
    rcases List.mem_cons.mp member with same | older
    · cases same
      omega
    · have before := accounts.past other older
      omega

theorem destroyed {geom : GeomPtr γ} (accounts : m.Accounts (.geometry geom.addr :: handles)) :
    (m.recorded (.geomDestroyed geom.addr)).Accounts handles :=
  ⟨accounts.balanced.release, fun h member => accounts.past h (by
    simpa [Machine.trace, Machine.recorded, Event.entries] using member)⟩

theorem freed {name : NameBuf} (accounts : m.Accounts (.name name.addr :: handles)) :
    (m.recorded (.nameFreed name.addr)).Accounts handles :=
  ⟨accounts.balanced.release, fun h member => accounts.past h (by
    simpa [Machine.trace, Machine.recorded, Event.entries] using member)⟩

/-- GEOSCovers may be asked about what is live. -/
theorem asked (accounts : m.Accounts handles) {geom point : GeomPtr γ}
    (first : .geometry geom.addr ∈ handles) (second : .geometry point.addr ∈ handles) :
    (m.asked geom point).Accounts handles := by
  constructor
  · exact (accounts.balanced.use second).use first
  · intro h member
    have older : .acquire h ∈ m.trace := by
      simpa [Machine.trace, Machine.asked, Machine.recorded, Machine.ticked, Event.entries]
        using member
    exact Nat.lt_succ_of_lt (accounts.past h older)

/-- A null slot holds nothing that an assignment could lose. -/
theorem stored (accounts : m.Accounts handles) {level : Level} (vacant : m.stack.slot level = none)
    (value : Option (Watershed γ)) : (m.stored level value).Accounts handles := by
  have trace : (m.stored level value).trace = m.trace := by
    simp [Machine.trace, Machine.stored, vacant, Event.entries]
  exact accounts.later trace (Nat.le_refl _)

/-- A region is given back before its slot is set to null. -/
theorem released {w : Watershed γ} {level : Level} (accounts : m.Accounts (w.handles ++ handles))
    (occupied : m.stack.slot level = some w) : (m.released w level).Accounts handles := by
  have geometry : (m.recorded (.geomDestroyed w.geom.addr)).Accounts
      (.name w.name.addr :: handles) := accounts.destroyed
  have name := geometry.freed
  constructor
  · have trace : (m.released w level).trace = .forget (.geometry w.geom.addr) ::
        .forget (.name w.name.addr) :: .release (.name w.name.addr) ::
          .release (.geometry w.geom.addr) :: m.trace := by
      simp [Machine.trace, Machine.released, Machine.stored, Machine.recorded, occupied,
        Event.entries]
    rw [trace]
    apply Ledger.Balanced.forget
    · apply Ledger.Balanced.forget name.balanced
      exact List.mem_cons_self
    · simp
  · intro h member
    apply name.past h
    simpa [Machine.trace, Machine.released, Machine.stored, Machine.recorded, occupied,
      Event.entries] using member

end Machine.Accounts

/-! ### The search -/

/-- Accounts of `handles` under a stack that a search leaves alone. -/
structure Machine.Stands (m : Machine γ) (stack : WatershedStack γ) (handles : List Handle) :
    Prop where
  accounts : m.Accounts handles
  same : m.stack = stack

section Neutral

variable {α β : Type}

/-- `x` leaves no entry in the ledger and does not touch the stack. -/
def Neutral (x : Zig γ α) : Prop :=
  ∀ (m : Machine γ) stack handles, m.Stands stack handles →
    Ends x m (fun _ m' => m'.Stands stack handles) (fun _ m' => m'.Stands stack handles)

theorem neutral_tick : Neutral (tick : Zig γ Nat) :=
  fun _ _ _ stands => ⟨stands.accounts.ticked, stands.same⟩

theorem neutral_ofExcept (x : Except ZigError α) : Neutral (ofExcept x : Zig γ α) := by
  intro m stack handles stands
  cases x <;> exact stands

theorem neutral_columnText (text : Option Bytes) : Neutral (columnText text : Zig γ Bytes) := by
  intro m stack handles stands
  cases text <;> exact stands

theorem neutral_sqliteCall (env : Externals γ) : Neutral (sqliteCall env) := by
  intro m stack handles stands
  have ticked : m.ticked.Stands stack handles := neutral_tick m stack handles stands
  exact ends_sqliteCall env ticked fun _ => ticked

theorem neutral_alloc (env : Externals γ) (size : Nat) : Neutral (alloc env size) := by
  intro m stack handles stands
  have ticked : m.ticked.Stands stack handles := neutral_tick m stack handles stands
  exact ends_alloc env size ticked ticked

theorem neutral_blobRead (env : Externals γ) (shape : Bytes) (size offset : Nat) :
    Neutral (blobRead env shape size offset) := by
  intro m stack handles stands
  unfold blobRead
  split
  · exact stands
  · exact neutral_sqliteCall env m stack handles stands

/-- Sequencing after a neutral program. -/
theorem Neutral.ends_bind {x : Zig γ α} (neutral : Neutral x) {f : α → Zig γ β} {m : Machine γ}
    {stack : WatershedStack γ} {handles : List Handle} (stands : m.Stands stack handles)
    {Q : β → Machine γ → Prop} {E : Fault → Machine γ → Prop}
    (next : ∀ a m', m'.Stands stack handles → Ends (f a) m' Q E)
    (fails : ∀ fault m', m'.Stands stack handles → E fault m') : Ends (x >>= f) m Q E := by
  rw [Effect.ends_bind]
  exact (neutral m stack handles stands).mono next fails

end Neutral

/-- A step keeps the geometry it returns and no other. -/
theorem searchStep_stands (env : Externals γ) (next : Option Row) {m : Machine γ}
    {stack : WatershedStack γ} {handles : List Handle} {point : GeomPtr γ}
    (at_ : stack.point = some point) (owned : .geometry point.addr ∈ handles)
    (stands : m.Stands stack handles) :
    Ends (searchStep env next) m
      (fun found m' => m'.Stands stack (pointHandles found ++ handles))
      (fun _ m' => m'.Stands stack handles) := by
  unfold searchStep
  apply neutral_tick.ends_bind stands _ fun _ _ kept => kept
  intro now m1 stands
  apply (neutral_ofExcept _).ends_bind stands _ fun _ _ kept => kept
  intro _ m2 stands
  cases next with
  | none => exact stands
  | some row =>
    apply (neutral_columnText _).ends_bind stands _ fun _ _ kept => kept
    intro _ m3 stands
    apply (neutral_columnText _).ends_bind stands _ fun _ _ kept => kept
    intro _ m4 stands
    apply (neutral_sqliteCall env).ends_bind stands _ fun _ _ kept => kept
    intro _ m5 stands
    apply (neutral_blobRead env _ _ _).ends_bind stands _ fun _ _ kept => kept
    intro _ m6 stands
    rw [ends_bind, ends_get]
    split
    · exact stands
    split
    · exact stands
    apply (neutral_alloc env _).ends_bind stands _ fun _ _ kept => kept
    intro _ m7 stands
    apply (neutral_blobRead env _ _ _).ends_bind stands _ fun _ _ kept => kept
    intro _ m8 stands
    split
    · exact stands
    · rename_i geom _
      have created : (m8.ticked.recorded (.geomCreated m8.calls)).Accounts
          (.geometry m8.calls :: handles) :=
        stands.accounts.acquired rfl rfl
      have same : m8.stack.point = some point := by rw [stands.same, at_]
      let newGeom : GeomPtr γ := ⟨m8.calls, geom⟩
      have told : ((m8.ticked.recorded (.geomCreated m8.calls)).asked newGeom point).Accounts
          (.geometry newGeom.addr :: handles) :=
        created.asked List.mem_cons_self (List.mem_cons_of_mem _ owned)
      apply ends_askGeometry env geom
      · intro asked isAt _
        obtain rfl : point = asked := Option.some.inj (same.symm.trans isAt)
        exact ⟨told, stands.same⟩
      · intro asked isAt _
        obtain rfl : point = asked := Option.some.inj (same.symm.trans isAt)
        exact ⟨told.destroyed, stands.same⟩
      · intro missing
        cases same.symm.trans missing

/-- The loop keeps the geometry it found. -/
theorem searchLoop_stands (env : Externals γ) (rows : List Row) {m : Machine γ}
    {stack : WatershedStack γ} {handles : List Handle} {point : GeomPtr γ}
    (at_ : stack.point = some point) (owned : .geometry point.addr ∈ handles)
    (stands : m.Stands stack handles) :
    Ends (searchLoop env rows) m
      (fun found m' => m'.Stands stack (.geometry found.2.addr :: handles))
      (fun _ m' => m'.Stands stack handles) := by
  induction rows generalizing m with
  | nil =>
    unfold searchLoop
    rw [ends_bind]
    apply (searchStep_done env m).and (searchStep_stands env none at_ owned stands) |>.mono
    · intro _ _ impossible
      exact impossible.1.elim
    · intro _ _ kept
      exact kept.2
  | cons row rest ih =>
    unfold searchLoop
    rw [ends_bind]
    apply (searchStep_stands env (some row) at_ owned stands).mono _ fun _ _ kept => kept
    intro found m' stands'
    cases found with
    | none => exact ih stands'
    | some geometry => exact stands'

theorem findRow_stands (env : Externals γ) (query : Query) {m : Machine γ}
    {stack : WatershedStack γ} {handles : List Handle} {point : GeomPtr γ}
    (at_ : stack.point = some point) (owned : .geometry point.addr ∈ handles)
    (stands : m.Stands stack handles) :
    Ends (findRow env query) m
      (fun found m' => m'.Stands stack (.geometry found.2.addr :: handles))
      (fun _ m' => m'.Stands stack handles) := by
  unfold findRow
  apply (neutral_alloc env _).ends_bind stands _ fun _ _ kept => kept
  intro _ m1 stands
  apply (neutral_sqliteCall env).ends_bind stands _ fun _ _ kept => kept
  intro _ m2 stands
  apply neutral_tick.ends_bind stands _ fun _ _ kept => kept
  intro now m3 stands
  exact searchLoop_stands env _ at_ owned stands

/-- What a failure says about the handles that nobody owns any more. -/
def Abandons (lost : List Handle) (fault : Fault) (loses : Prop) : Prop :=
  (∃ e, fault = .error e) → (lost = [] ↔ ¬ loses)

theorem readColumns_stands (env : Externals γ) (row : Row) (newGeom : GeomPtr γ) {m : Machine γ}
    {stack : WatershedStack γ} {handles : List Handle}
    (stands : m.Stands stack (.geometry newGeom.addr :: handles)) :
    Ends (readColumns env row newGeom) m (fun w m' => m'.Stands stack (w.handles ++ handles))
      (fun _ m' => m'.Stands stack (.geometry newGeom.addr :: handles)) := by
  unfold readColumns
  apply (neutral_columnText _).ends_bind stands _ fun _ _ kept => kept
  intro code m1 stands
  split
  · apply (neutral_columnText _).ends_bind stands _ fun _ _ kept => kept
    intro name m2 stands
    rw [ends_bind]
    apply ends_alloc env
    · simp only [ends_bind, ends_record, ends_pure]
      have named : (m2.ticked.recorded (.nameAllocated m2.calls)).Accounts
          (.name m2.calls :: .geometry newGeom.addr :: handles) :=
        stands.accounts.acquired rfl rfl
      exact ⟨named.perm (List.Perm.swap ..), stands.same⟩
    · exact ⟨stands.accounts.ticked, stands.same⟩
  · exact stands

/-- A search adds what it returns. When it fails it adds nothing, or what it lost. -/
theorem search_stands (env : Externals γ) (hucLevel tableName : String) (likePattern : Bytes)
    {m : Machine γ} {stack : WatershedStack γ} {handles : List Handle} {point : GeomPtr γ}
    (at_ : stack.point = some point) (owned : .geometry point.addr ∈ handles)
    (stands : m.Stands stack handles) :
    Ends (search env hucLevel tableName likePattern) m
      (fun w m' => m'.Stands stack (w.handles ++ handles))
      (fun fault m' => ∃ lost, m'.Stands stack (lost ++ handles) ∧
        Abandons lost fault (LosesGeometry env point.geom stack.pointBounds
          ⟨hucLevel, tableName, likePattern⟩ m.calls)) := by
  generalize isQuery : Query.mk hucLevel tableName likePattern = query
  have recorded : (m.recorded (.searched query)).Stands stack handles :=
    ⟨stands.accounts.later rfl (Nat.le_refl _), stands.same⟩
  have rested := findRow_rests env query (m := m.recorded (.searched query))
    (by rw [recorded.same, at_])
  rw [recorded.same] at rested
  rw [search_eq, isQuery, ends_bind, ends_record, ends_bind]
  apply ((findRow_stands env query at_ owned recorded).and rested).mono
  · rintro ⟨row, newGeom⟩ m' ⟨stands', rests⟩
    have stored := readColumns_region env row (m := m') rests.rests.parsed
    apply ((readColumns_stands env row newGeom stands').and stored).mono
    · exact fun w m'' both => both.1
    · rintro fault m'' ⟨kept, _, unallocated⟩
      refine ⟨[.geometry newGeom.addr], kept, fun isError => ?_⟩
      have loses : LosesGeometry env point.geom stack.pointBounds query m.calls :=
        ⟨row, newGeom.geom, m'.calls, rests, unallocated isError⟩
      simp [loses]
  · rintro fault m' ⟨kept, nowhere⟩
    refine ⟨[], kept, fun _ => ?_⟩
    simp only [true_iff]
    rintro ⟨row, geom, last, rests, _⟩
    exact nowhere row geom last rests

/-! ### One update -/

/-- The result is no tripped safety check. -/
def Continues {σ : Type} (result : EStateM.Result Fault σ Unit) : Prop :=
  ∀ check s, result ≠ .error (.panic check) s

section Update

variable {env : Externals γ} {point : GeomPtr γ} {lost : List Handle}

/-- The point first, then the cached regions, then what nobody owns. -/
def ledgerOf (point : GeomPtr γ) (list : List (Watershed γ)) (lost : List Handle) : List Handle :=
  .geometry point.addr :: (list.flatMap Watershed.handles ++ lost)

theorem ledgerOf_cons (w : Watershed γ) (list : List (Watershed γ)) :
    (w.handles ++ ledgerOf point list lost).Perm (ledgerOf point (w :: list) lost) := by
  simp only [ledgerOf, List.flatMap_cons, List.append_assoc]
  exact List.perm_middle

theorem ledgerOf_lost (new : List Handle) (list : List (Watershed γ)) :
    (new ++ ledgerOf point list lost).Perm (ledgerOf point list (new ++ lost)) := by
  refine List.perm_middle.trans (List.Perm.cons _ ?_)
  rw [← List.append_assoc, ← List.append_assoc]
  exact List.perm_append_comm.append_right lost

/-- The climb gives back what it drops. -/
theorem Revalidation.accounts {m m' : Machine γ} {list kept : List (Watershed γ)}
    (climb : Revalidation env m list m' kept) (holds : m.stack.Holds list)
    (at_ : m.stack.point = some point) (accounts : m.Accounts (ledgerOf point list lost)) :
    m'.Accounts (ledgerOf point kept lost) := by
  induction climb with
  | empty => exact accounts
  | @vacant m m' list kept level finer up ih =>
    apply ih (holds.clear finer) (by simpa using at_)
    exact accounts.stored (holds.vacant finer) none
  | @covered m w rest asked isAt covers =>
    obtain rfl : point = asked := Option.some.inj (at_.symm.trans isAt)
    exact accounts.asked (by simp [ledgerOf, Watershed.handles]) (by simp [ledgerOf])
  | @uncovered m m' w rest kept level asked isTop isAt apart up ih =>
    obtain rfl : point = asked := Option.some.inj (at_.symm.trans isAt)
    apply ih (holds.pop isTop) (by simpa using at_)
    have told : (m.asked w.geom point).Accounts (ledgerOf point (w :: rest) lost) :=
      accounts.asked (by simp [ledgerOf, Watershed.handles]) (by simp [ledgerOf])
    exact (told.perm (ledgerOf_cons w rest).symm).released (holds.top isTop)

/-- A search that fails leaves the question whether it loses a geometry to itself. -/
theorem loses_of_failed {m : Machine γ} {list : List (Watershed γ)} {level : Level}
    (next : level.index = list.length) (room : list.length < m.stack.depth)
    (at_ : m.stack.point = some point) {fault : Fault} {m' : Machine γ}
    (searched : (searchBelow env level list).run m = .error fault m') :
    Loses env point.geom m.stack.pointBounds m.stack.depth m.calls
        (list.map Watershed.region) ↔
      LosesGeometry env point.geom m.stack.pointBounds (level.query (codeBelow list)) m.calls := by
  have nothing := (search_gives env _ _ _ at_).failed searched
  rw [loses_iff (by rwa [List.length_map]) (by rwa [List.length_map]),
    ← codeBelow_eq_patternBelow]
  apply or_iff_left
  rintro ⟨r, later, gives, _⟩
  exact nothing r later gives

/-- The descent owns what it finds, and loses at most one geometry. -/
theorem Descent.accounts {m : Machine γ} {list final : List (Watershed γ)}
    {result : EStateM.Result Fault (Machine γ) Unit} (run : Descent env m list result final)
    (holds : m.stack.Holds list) (at_ : m.stack.point = some point)
    (accounts : m.Accounts (ledgerOf point list lost)) :
    ∃ new, (endState result).Accounts (ledgerOf point final (new ++ lost)) ∧
      (Continues result → (new = [] ↔ ¬ Loses env point.geom m.stack.pointBounds m.stack.depth
        m.calls (list.map Watershed.region))) := by
  have owned : ∀ list : List (Watershed γ), Handle.geometry point.addr ∈ ledgerOf point list lost :=
    fun list => by simp [ledgerOf]
  induction run with
  | @full m list isFull =>
    refine ⟨[], accounts, fun _ => ?_⟩
    simp only [true_iff]
    intro loses
    cases loses <;> simp only [List.length_map] at * <;> omega
  | @failed m m' list level fault next room searched raised =>
    obtain ⟨new, stands, abandons⟩ :=
      (search_stands env _ _ _ at_ (owned list) ⟨accounts, rfl⟩).failed searched
    refine ⟨new, stands.accounts.perm (ledgerOf_lost new list), fun continues => ?_⟩
    have isError : ∃ e, fault = .error e := by
      cases fault with
      | error e => exact ⟨e, rfl⟩
      | panic check => exact absurd rfl (continues check m')
    rw [loses_of_failed next room at_ searched]
    exact abandons isError
  | @optional m m' list next room searched =>
    obtain ⟨new, stands, abandons⟩ :=
      (search_stands env _ _ _ at_ (owned list) ⟨accounts, rfl⟩).failed searched
    refine ⟨new, stands.accounts.perm (ledgerOf_lost new list), fun _ => ?_⟩
    rw [loses_of_failed next room at_ searched]
    exact abandons ⟨_, rfl⟩
  | @found m m' list final level w result next room searched rest ih =>
    have stands :=
      (search_stands env _ _ _ at_ (owned list) ⟨accounts, rfl⟩).returned searched
    have gives := (search_gives env _ _ _ at_).returned searched
    have held : m'.stack.Holds list := by rw [stands.same]; exact holds
    have vacant : m'.stack.slot level = none := held.vacant (Nat.le_of_eq next.symm)
    have stored := (stands.accounts.perm (ledgerOf_cons w list)).stored vacant (some w)
    obtain ⟨new, accounts', only⟩ := ih
      (held.push w next (by rw [stands.same]; exact room))
      (by rw [Machine.stored_stack, WatershedStack.setSlot_point, stands.same, at_]) stored
    refine ⟨new, accounts', fun continues => ?_⟩
    have next' : level.index = (list.map Watershed.region).length := by rwa [List.length_map]
    have room' : (list.map Watershed.region).length < m.stack.depth := by rwa [List.length_map]
    rw [only continues, not_iff_not, Machine.stored_stack, stands.same,
      WatershedStack.setSlot_pointBounds, WatershedStack.setSlot_depth, loses_iff next' room',
      ← codeBelow_eq_patternBelow]
    constructor
    · intro deeper
      exact .inr ⟨w.region, m'.calls, gives, deeper⟩
    · rintro (loses | ⟨r, later, gives', deeper⟩)
      · exact absurd loses (Query.Gives.keeps gives)
      · obtain ⟨rfl, rfl⟩ := Query.Gives.unique gives gives'
        exact deeper

end Update

end WatershedOracle
