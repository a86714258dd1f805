import WatershedOracle.PointStream

set_option autoImplicit false

/-! pathUtil.zig: the loop that copies the points of a source to stdout, the bound on
their number, and the buffer that they pass through. -/

namespace WatershedOracle.PathUtil

open Effect

variable {σ : Type}

/-- The source, what its calls of `nextPoint` came to, and the writer before stdout. -/
structure Collection (σ : Type) where
  pointSrc : σ
  calls : List (Except Fault Point) := []
  bw : Zig.BufferedWriter 4096 := {}

section Code

variable (nextPoint : EStateM Fault σ Point) (decimalText : F64 → Bytes) (bits : Nat)

/-- What is written of a point, piece by piece. -/
def pieces (point : Point) : List Bytes :=
  match point.location with
  | .wkt wkt => [wkt, Zig.ascii "\n"]
  | .xy x y => [Zig.ascii "POINT (", decimalText x, Zig.ascii " ", decimalText y, Zig.ascii ")\n"]

/-- The `while` over `n`, which is a number of `bits` bits. -/
def collect (numPoints n : Nat) (s : Collection σ) : EStateM.Result Fault (Collection σ) Unit :=
  if n ≤ numPoints then
    match nextPoint.run s.pointSrc with
    | .error fault src =>
        let s := { s with pointSrc := src, calls := s.calls ++ [.error fault] }
        if fault = .error .NoMorePoints then .ok () s else .error fault s
    | .ok point src =>
        let s : Collection σ :=
          ⟨src, s.calls ++ [.ok point], s.bw.print (pieces decimalText point)⟩
        if n + 1 < 2 ^ bits then collect numPoints (n + 1) s
        else .error (.panic .integerOverflow) s
  else .ok () s
termination_by 2 ^ bits - n

/-- main, once the arguments are read. Only the end of the loop reaches the flush. -/
def main (numPoints : Option (Fin (2 ^ bits))) (pointSrc : σ) :
    EStateM.Result Fault (Collection σ) Unit :=
  match collect nextPoint decimalText bits ((numPoints.map Fin.val).getD (2 ^ bits - 1)) 0
      { pointSrc } with
  | .ok () s => .ok () { s with bw := s.bw.flush }
  | .error fault s => .error fault s

end Code

/-! ### The loop over a source -/

section Lines

variable (decimalText : F64 → Bytes)

/-- The line of a point. -/
def lineOf (point : Point) : Bytes := (pieces decimalText point).flatten

def lines (points : List Point) : Bytes := points.flatMap (lineOf decimalText)

def printAll (bw : Zig.BufferedWriter 4096) (points : List Point) : Zig.BufferedWriter 4096 :=
  points.foldl (fun bw point => bw.print (pieces decimalText point)) bw

theorem printAll_contents (bw : Zig.BufferedWriter 4096) (points : List Point) :
    (printAll decimalText bw points).contents = bw.contents ++ lines decimalText points := by
  unfold printAll lines
  induction points generalizing bw with
  | nil => simp
  | cons point rest ih =>
    rw [List.foldl_cons, ih, Zig.BufferedWriter.print_contents, List.flatMap_cons, List.append_assoc]
    rfl

/-- The last line ends in a short piece, which stays in the buffer. -/
theorem printAll_held (bw : Zig.BufferedWriter 4096) {points : List Point} (some_ : points ≠ []) :
    (printAll decimalText bw points).buf ≠ [] := by
  obtain ⟨before, last, rfl⟩ := (List.eq_nil_or_concat' points).resolve_left some_
  unfold printAll
  rw [List.foldl_append, List.foldl_cons, List.foldl_nil]
  unfold pieces
  split
  · rename_i wkt _
    exact Zig.BufferedWriter.print_held _ [wkt] (by decide) (by decide)
  · rename_i x y _
    exact Zig.BufferedWriter.print_held _
      [Zig.ascii "POINT (", decimalText x, Zig.ascii " ", decimalText y] (by decide) (by decide)

end Lines

section Loop

variable {nextPoint : EStateM Fault σ Point} {decimalText : F64 → Bytes} {bits numPoints n : Nat}
variable {src src' : σ} {calls : List (Except Fault Point)} {bw : Zig.BufferedWriter 4096}

/-- The end of the loop when the source fails. -/
def stopped (fault : Fault) (s : Collection σ) : EStateM.Result Fault (Collection σ) Unit :=
  if fault = .error .NoMorePoints then .ok () s else .error fault s

theorem collect_past (past : numPoints < n) (s : Collection σ) :
    collect nextPoint decimalText bits numPoints n s = .ok () s := by
  rw [collect, if_neg (by omega)]

theorem collect_stop (room : n ≤ numPoints) {fault : Fault}
    (run : nextPoint.run src = .error fault src') :
    collect nextPoint decimalText bits numPoints n ⟨src, calls, bw⟩ =
      stopped fault ⟨src', calls ++ [.error fault], bw⟩ := by
  rw [collect, if_pos room]
  simp only [run]
  rfl

theorem collect_point (room : n ≤ numPoints) {point : Point}
    (run : nextPoint.run src = .ok point src') :
    collect nextPoint decimalText bits numPoints n ⟨src, calls, bw⟩ =
      if n + 1 < 2 ^ bits then
        collect nextPoint decimalText bits numPoints (n + 1)
          ⟨src', calls ++ [.ok point], bw.print (pieces decimalText point)⟩
      else .error (.panic .integerOverflow)
        ⟨src', calls ++ [.ok point], bw.print (pieces decimalText point)⟩ := by
  rw [collect, if_pos room]
  simp only [run]

variable {fault : Fault} {points : List Point}

variable (decimalText n calls bw) in
/-- A source that ends within the bound is copied whole, and called once more. -/
theorem collect_all (delivers : Delivers nextPoint fault src points)
    (room : n + points.length ≤ numPoints) (small : numPoints < 2 ^ bits) :
    ∃ src', collect nextPoint decimalText bits numPoints n ⟨src, calls, bw⟩ =
      stopped fault ⟨src', calls ++ (points.map .ok ++ [.error fault]),
        printAll decimalText bw points⟩ := by
  induction delivers generalizing n calls bw with
  | stop run =>
    rw [collect_stop (by simpa using room) run]
    exact ⟨_, rfl⟩
  | @value _ _ point _ run later ih =>
    rw [List.length_cons] at room
    obtain ⟨src', rest⟩ := ih (n + 1) (calls ++ [.ok point])
      (bw.print (pieces decimalText point)) (by omega)
    rw [collect_point (by omega) run, if_pos (by omega), rest]
    refine ⟨src', ?_⟩
    rw [List.append_assoc]
    rfl

variable (decimalText n calls bw) in
/-- A longer source is copied up to one point past the bound. -/
theorem collect_cut (delivers : Delivers nextPoint fault src points) (start : n ≤ numPoints + 1)
    (longer : numPoints < n + points.length) (small : numPoints + 1 < 2 ^ bits) :
    ∃ src', collect nextPoint decimalText bits numPoints n ⟨src, calls, bw⟩ =
      .ok () ⟨src', calls ++ (points.take (numPoints + 1 - n)).map .ok,
        printAll decimalText bw (points.take (numPoints + 1 - n))⟩ := by
  by_cases past : n = numPoints + 1
  · refine ⟨src, ?_⟩
    rw [collect_past (by omega), past, Nat.sub_self, List.take_zero, List.map_nil, List.append_nil]
    rfl
  · induction delivers generalizing n calls bw with
    | stop run =>
      rw [List.length_nil] at longer
      omega
    | @value _ src' point _ run later ih =>
      rw [List.length_cons] at longer
      have left : numPoints + 1 - n = numPoints + 1 - (n + 1) + 1 := by omega
      rw [collect_point (by omega) run, if_pos (by omega), left, List.take_succ_cons]
      by_cases last : n + 1 = numPoints + 1
      · refine ⟨src', ?_⟩
        rw [collect_past (by omega), last, Nat.sub_self, List.take_zero]
        rfl
      · obtain ⟨src', rest⟩ := ih (n + 1) (calls ++ [.ok point])
          (bw.print (pieces decimalText point)) (by omega) (by omega) last
        refine ⟨src', ?_⟩
        rw [rest, List.append_assoc]
        rfl

variable (decimalText n calls bw) in
/-- Under the largest bound the counter overflows on a source that is longer than it. -/
theorem collect_overflow (delivers : Delivers nextPoint fault src points) (start : n ≤ numPoints)
    (longer : numPoints < n + points.length) (largest : numPoints + 1 = 2 ^ bits) :
    ∃ s, collect nextPoint decimalText bits numPoints n ⟨src, calls, bw⟩ =
      .error (.panic .integerOverflow) s := by
  induction delivers generalizing n calls bw with
  | stop run =>
    rw [List.length_nil] at longer
    omega
  | value run later ih =>
    rw [List.length_cons] at longer
    rw [collect_point start run]
    by_cases last : n + 1 < 2 ^ bits
    · rw [if_pos last]
      exact ih _ _ _ (by omega) (by omega)
    · rw [if_neg last]
      exact ⟨_, rfl⟩

end Loop

/-! ### The bound on the number of points -/

section Bound

variable {bits : Nat}

/-- The largest number of points that pathUtil is to take, if any. -/
abbrev Bound (bits : Nat) := Option (Fin (2 ^ bits))

def Bound.wanted (numPoints : Bound bits) (points : List Point) : List Point :=
  (numPoints.map fun N => points.take N.val).getD points

/-- Exactly the wanted points are taken and written, and once they are there the source
is left alone. -/
structure Honours (decimalText : F64 → Bytes) (numPoints : Bound bits) (points : List Point)
    (s : Collection σ) : Prop where
  taken : s.calls.filterMap Except.toOption = numPoints.wanted points
  called : ∀ N ∈ numPoints, ∀ before call later, s.calls = before ++ call :: later →
    (before.filterMap Except.toOption).length < N.val
  written : s.bw.written = lines decimalText (numPoints.wanted points)

/-- The run over a source of these points ends without an overflow and honours the bound. -/
def HonoursBound (nextPoint : EStateM Fault σ Point) (decimalText : F64 → Bytes)
    (numPoints : Bound bits) (src : σ) (points : List Point) : Prop :=
  ∃ s, main nextPoint decimalText bits numPoints src = .ok () s ∧
    Honours decimalText numPoints points s

variable {nextPoint : EStateM Fault σ Point} {decimalText : F64 → Bytes} {src : σ}
variable {points : List Point} {numPoints : Bound bits}

theorem filterMap_ok (points : List Point) :
    (points.map .ok : List (Except Fault Point)).filterMap Except.toOption = points := by
  rw [List.filterMap_map]
  exact List.filterMap_some

/-- The largest value of `n` under which the loop goes on. -/
def Bound.limit (numPoints : Bound bits) : Nat := (numPoints.map Fin.val).getD (2 ^ bits - 1)

theorem Bound.limit_lt (numPoints : Bound bits) : numPoints.limit < 2 ^ bits := by
  cases numPoints with
  | none => exact Nat.sub_one_lt (by positivity)
  | some N => exact N.isLt

theorem main_ok {s : Collection σ}
    (run : collect nextPoint decimalText bits numPoints.limit 0 { pointSrc := src } = .ok () s) :
    main nextPoint decimalText bits numPoints src = .ok () { s with bw := s.bw.flush } := by
  unfold main
  rw [← Bound.limit, run]

theorem main_error {fault : Fault} {s : Collection σ}
    (run : collect nextPoint decimalText bits numPoints.limit 0 { pointSrc := src } =
      .error fault s) :
    main nextPoint decimalText bits numPoints src = .error fault s := by
  unfold main
  rw [← Bound.limit, run]

variable (decimalText numPoints) in
/-- A source that ends within the bound is written whole. -/
theorem main_exhausted (delivers : Delivers nextPoint (.error .NoMorePoints) src points)
    (room : points.length ≤ numPoints.limit) :
    ∃ src', main nextPoint decimalText bits numPoints src =
      .ok () ⟨src', points.map .ok ++ [.error (.error .NoMorePoints)],
        (printAll decimalText {} points).flush⟩ := by
  obtain ⟨src', run⟩ := collect_all decimalText 0 [] {}
    delivers (by omega) numPoints.limit_lt
  exact ⟨src', main_ok run⟩

variable (decimalText numPoints) in
/-- A source that fails within the bound ends the run before the flush. -/
theorem main_fails {e : ZigError} (other : e ≠ .NoMorePoints)
    (delivers : Delivers nextPoint (.error e) src points)
    (room : points.length ≤ numPoints.limit) :
    ∃ src', main nextPoint decimalText bits numPoints src =
      .error (.error e) ⟨src', points.map .ok ++ [.error (.error e)],
        printAll decimalText {} points⟩ := by
  obtain ⟨src', run⟩ := collect_all decimalText 0 [] {}
    delivers (by omega) numPoints.limit_lt
  rw [stopped, if_neg (by simpa using other)] at run
  exact ⟨src', main_error run⟩

variable (decimalText numPoints) in
/-- A source of more points than the largest bound trips the overflow check. -/
theorem main_overflow {fault : Fault} (delivers : Delivers nextPoint fault src points)
    (longer : numPoints.limit < points.length) (largest : numPoints.limit + 1 = 2 ^ bits) :
    ∃ s, main nextPoint decimalText bits numPoints src = .error (.panic .integerOverflow) s := by
  obtain ⟨s, run⟩ := collect_overflow decimalText 0 [] {}
    delivers (Nat.zero_le _) (by omega) largest
  exact ⟨s, main_error run⟩

variable (decimalText numPoints) in
/-- Under a smaller bound one point too many is taken. -/
theorem main_cut {fault : Fault} (delivers : Delivers nextPoint fault src points)
    (longer : numPoints.limit < points.length) (smaller : numPoints.limit + 1 < 2 ^ bits) :
    ∃ src', main nextPoint decimalText bits numPoints src =
      .ok () ⟨src', (points.take (numPoints.limit + 1)).map .ok,
        (printAll decimalText {} (points.take (numPoints.limit + 1))).flush⟩ := by
  obtain ⟨src', run⟩ := collect_cut decimalText 0 [] {}
    delivers (Nat.zero_le _) (by omega) smaller
  exact ⟨src', main_ok run⟩

theorem print_flushed (points : List Point) :
    (printAll decimalText {} points).flush.written = lines decimalText points := by
  rw [Zig.BufferedWriter.flush_written, printAll_contents]
  rfl

/-- Within the bound the run takes all points there are and one call more. -/
theorem honoursBound_of_room (delivers : Delivers nextPoint (.error .NoMorePoints) src points)
    (room : points.length ≤ numPoints.limit) (below : ∀ N ∈ numPoints, points.length < N.val) :
    HonoursBound nextPoint decimalText numPoints src points := by
  obtain ⟨src', run⟩ := main_exhausted decimalText numPoints delivers room
  have all : numPoints.wanted points = points := by
    cases numPoints with
    | none => rfl
    | some N => exact List.take_of_length_le (Nat.le_of_lt (below N rfl))
  refine ⟨_, run, ?_, ?_, ?_⟩
  · dsimp only
    rw [List.filterMap_append, filterMap_ok, all]
    exact List.append_nil points
  · intro N isBound before call later split
    have counted := congrArg List.length split
    have shorter := List.length_filterMap_le Except.toOption before
    have bound := below N isBound
    simp only [List.length_append, List.length_map, List.length_cons, List.length_nil] at counted
    omega
  · rw [all]
    exact print_flushed points

/-- From the bound on the run takes a point too many, calls the source once too often, or
counts too far. -/
theorem not_honoursBound (delivers : Delivers nextPoint (.error .NoMorePoints) src points)
    (reached : (numPoints.map Fin.val).getD (2 ^ bits) ≤ points.length) :
    ¬ HonoursBound nextPoint decimalText numPoints src points := by
  rintro ⟨s, run, honours⟩
  have some_ : 0 < 2 ^ bits := by positivity
  cases numPoints with
  | none =>
    have reached : 2 ^ bits ≤ points.length := reached
    have limit : Bound.limit (none : Bound bits) = 2 ^ bits - 1 := rfl
    obtain ⟨_, tripped⟩ := main_overflow decimalText none delivers (by omega) (by omega)
    cases tripped.symm.trans run
  | some N =>
    have reached : N.val ≤ points.length := reached
    have limit : Bound.limit (some N) = N.val := rfl
    by_cases exact_ : N.val = points.length
    · -- All points are taken, and then the source is called again.
      obtain ⟨src', all⟩ := main_exhausted decimalText (some N) delivers (by omega)
      cases all.symm.trans run
      have called := honours.called N rfl _ _ [] rfl
      rw [filterMap_ok] at called
      omega
    by_cases largest : N.val + 1 = 2 ^ bits
    · obtain ⟨_, tripped⟩ :=
        main_overflow decimalText (some N) delivers (by omega) (by omega)
      cases tripped.symm.trans run
    · -- One point more than the bound is taken.
      have inside := N.isLt
      obtain ⟨src', cut⟩ :=
        main_cut decimalText (some N) delivers (by omega) (by omega)
      cases cut.symm.trans run
      have taken := honours.taken
      rw [filterMap_ok, limit] at taken
      have counted : (points.take (N.val + 1)).length = (points.take N.val).length :=
        congrArg List.length taken
      rw [List.length_take, List.length_take] at counted
      omega

/-- pathUtil honours its bound exactly on the sources that end before it. -/
theorem honoursBound_iff (decimalText : F64 → Bytes) (numPoints : Bound bits)
    (delivers : Delivers nextPoint (.error .NoMorePoints) src points) :
    HonoursBound nextPoint decimalText numPoints src points ↔
      points.length < (numPoints.map Fin.val).getD (2 ^ bits) := by
  constructor
  · intro honoured
    by_contra reached
    exact not_honoursBound delivers (Nat.le_of_not_lt reached) honoured
  · intro below
    have some_ : 0 < 2 ^ bits := by positivity
    cases numPoints with
    | none =>
      have below : points.length < 2 ^ bits := below
      apply honoursBound_of_room delivers
      · show points.length ≤ 2 ^ bits - 1
        omega
      · intro N isBound
        cases isBound
    | some N =>
      have below : points.length < N.val := below
      apply honoursBound_of_room delivers
      · show points.length ≤ N.val
        omega
      · intro M isBound
        cases isBound
        exact below

/-- Three points, one on each line. -/
def threeLines : List Bytes :=
  [Zig.ascii "POINT(1 1)", Zig.ascii "POINT(2 2)", Zig.ascii "POINT(3 3)"]

theorem threeLines_delivered :
    Delivers (PointStdin.nextPoint false) (.error .NoMorePoints)
      { stdin := terminated threeLines } (threeLines.map PointStdin.wktPoint) :=
  PointStdin.delivers_terminated (by decide +kernel) List.not_mem_nil (by decide +kernel)
    (List.append_nil _).symm

/-- A bound of four points leaves the end of the loop to NoMorePoints. -/
theorem honoursBound_three :
    HonoursBound (PointStdin.nextPoint false) (fun _ => []) (some ⟨4, by decide⟩ : Bound 64)
      { stdin := terminated threeLines } (threeLines.map PointStdin.wktPoint) :=
  (honoursBound_iff _ _ threeLines_delivered).mpr (by decide)

/-- A bound of two points lets all three through. -/
theorem honoursBound_fails :
    ¬ ∀ (decimalText : F64 → Bytes) (numPoints : Bound 64) (src : LineSource)
      (points : List Point),
      Delivers (PointStdin.nextPoint false) (.error .NoMorePoints) src points →
        HonoursBound (PointStdin.nextPoint false) decimalText numPoints src points := by
  intro all
  have honoured := all (fun _ => []) (some ⟨2, by decide⟩) _ _ threeLines_delivered
  exact not_honoursBound threeLines_delivered (by decide) honoured

/-! ### A source that fails -/

/-- main returns the error of the source, and by then the lines of all points that were
delivered have reached stdout. -/
def KeepsDelivered (nextPoint : EStateM Fault σ Point) (decimalText : F64 → Bytes) (bits : Nat)
    (src : σ) (points : List Point) (e : ZigError) : Prop :=
  ∃ s, main nextPoint decimalText bits none src = .error (.error e) s ∧
    s.bw.written = lines decimalText points

/-- The error leaves the last line at least in the buffer. -/
theorem not_keepsDelivered {e : ZigError} (other : e ≠ .NoMorePoints)
    (delivers : Delivers nextPoint (.error e) src points) (some_ : points ≠ []) :
    ¬ KeepsDelivered nextPoint decimalText bits src points e := by
  rintro ⟨s, run, written⟩
  have positive : 0 < 2 ^ bits := by positivity
  have limit : Bound.limit (none : Bound bits) = 2 ^ bits - 1 := rfl
  by_cases room : points.length < 2 ^ bits
  · obtain ⟨src', fails⟩ := main_fails decimalText none other delivers (by omega)
    cases fails.symm.trans run
    have contents := printAll_contents decimalText {} points
    have reached : (printAll decimalText {} points).written =
        (printAll decimalText {} points).contents := written.trans contents.symm
    exact printAll_held decimalText {} some_
      ((Zig.BufferedWriter.written_eq_contents _).mp reached)
  · obtain ⟨_, tripped⟩ := main_overflow decimalText none delivers (by omega) (by omega)
    cases tripped.symm.trans run

/-- What was delivered before an error is kept exactly when there is nothing to keep. -/
theorem keepsDelivered_iff (decimalText : F64 → Bytes) (bits : Nat) {e : ZigError}
    (other : e ≠ .NoMorePoints) (delivers : Delivers nextPoint (.error e) src points) :
    KeepsDelivered nextPoint decimalText bits src points e ↔ points = [] := by
  constructor
  · intro keeps
    by_contra some_
    exact not_keepsDelivered other delivers some_ keeps
  · rintro rfl
    obtain ⟨src', fails⟩ := main_fails decimalText none other delivers (Nat.zero_le _)
    exact ⟨_, fails, rfl⟩

/-- The position of the middle line comes first, and then the error of the last one. -/
theorem mixedLines_delivered :
    Delivers PointGps.nextPoint (.error .InvalidCharacter)
      { stdin := terminated PointGps.mixedLines }
      [⟨0, .xy (.finite (-(245 / 2))) (.finite (91 / 2))⟩] := by
  have split : PointGps.mixedLines = PointGps.mixedLines.take 2 ++ [Zig.ascii "$GPGGA,1230"] := rfl
  rw [split]
  exact PointGps.delivers_until (by decide +kernel) (by decide +kernel) (by decide +kernel) rfl

/-- Before an error at the first line there is nothing to lose. -/
theorem keepsDelivered_first :
    KeepsDelivered PointGps.nextPoint (fun _ => []) 64
      { stdin := terminated [Zig.ascii "$GPGGA,1230"] } [] .InvalidCharacter := by
  have delivers : Delivers PointGps.nextPoint (.error .InvalidCharacter)
      { stdin := terminated ([] ++ [Zig.ascii "$GPGGA,1230"]) } [] :=
    PointGps.delivers_until (by decide +kernel) rfl (by decide +kernel) rfl
  exact (keepsDelivered_iff _ 64 (by decide) delivers).mpr rfl

/-- The point before a corrupted line never reaches stdout. -/
theorem keepsDelivered_fails :
    ¬ ∀ (decimalText : F64 → Bytes) (src : LineSource) (points : List Point) (e : ZigError),
      e ≠ .NoMorePoints → Delivers PointGps.nextPoint (.error e) src points →
        KeepsDelivered PointGps.nextPoint decimalText 64 src points e := by
  intro all
  have kept := all (fun _ => []) _ _ _ (by decide) mixedLines_delivered
  exact not_keepsDelivered (by decide) mixedLines_delivered (by decide) kept

end Bound

end WatershedOracle.PathUtil
