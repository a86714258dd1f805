import WatershedOracle.Library.Effect
import WatershedOracle.NmeaRounding
import WatershedOracle.WatershedStack

set_option autoImplicit false

/-! The point sources that make points up, scatter.zig and fuzzer.zig, in binary64. -/

namespace WatershedOracle

open Effect Rounding

/-- Multiplication by a positive constant. -/
def F64.mulBy (factor : ℚ) : F64 → F64
  | .finite value => .ofRat .f64 (value * factor)
  | other => other

/-- A generator of std.rand: the floats that it draws, the plain ones from [0, 1). -/
structure Random (σ : Type) where
  float : σ → ℚ × σ
  floatNorm : σ → ℚ × σ
  unit : ∀ rng, 0 ≤ (float rng).1 ∧ (float rng).1 < 1

/-- A draw spread over an interval. -/
def spread (min max draw : ℚ) : F64 :=
  (F64.add (F64.mulBy (binary64.round (max - min)) (.finite draw)).rounded (.finite min)).rounded

section Sources

variable {σ : Type} (R : Random σ)

namespace PointScatter

/-! A rough rectangle around the continental US. -/

def minx : ℚ := -126

def maxx : ℚ := -66

def miny : ℚ := 24

def maxy : ℚ := 50

def nextPoint : EStateM Fault σ Point := do
  let rng ← get
  let (across, rng) := R.float rng
  let (up, rng) := R.float rng
  set rng
  pure ⟨0, .xy (spread minx maxx across) (spread miny maxy up)⟩

end PointScatter

/-- The generator, the position and the velocity. -/
structure PointFuzzer (σ : Type) where
  rng : σ
  x : F64
  y : F64
  dx : F64
  dy : F64

namespace PointFuzzer

/-! The envelope of the Ohio and Tennessee regions. -/

def minx : ℚ := binary64.round (-89.2663719739644)

def maxx : ℚ := binary64.round (-77.83937040107634)

def miny : ℚ := binary64.round 34.11155983559371

def maxy : ℚ := binary64.round 42.4498337184844

/-- The generator is stored as it was before the position is drawn. -/
def init (rng : σ) : PointFuzzer σ :=
  let (across, next) := R.float rng
  let (up, _) := R.float next
  ⟨rng, spread minx maxx across, spread miny maxy up, .finite 0, .finite 0⟩

/-- The bias lets the point drift to the north-east. -/
def drift (draw : ℚ) : F64 :=
  (F64.mulBy (binary64.round 0.0001)
    (F64.add (.finite draw) (.finite (binary64.round 0.1))).rounded).rounded

def nextPoint : EStateM Fault (PointFuzzer σ) Point := do
  let src ← get
  let (east, rng) := R.floatNorm src.rng
  let (north, rng) := R.floatNorm rng
  let dx := (F64.add src.dx (drift east)).rounded
  let dy := (F64.add src.dy (drift north)).rounded
  let x := (F64.add src.x dx).rounded
  let y := (F64.add src.y dy).rounded
  set (⟨rng, x, y, dx, dy⟩ : PointFuzzer σ)
  pure ⟨0, .xy x y⟩

end PointFuzzer

end Sources

/-! ### The rectangles -/

/-- A double between two bounds. -/
def Between (min max : ℚ) (x : F64) : Prop :=
  ∃ value, x = .finite value ∧ binary64.Has value ∧ min ≤ value ∧ value ≤ max

theorem Between.isFinite {min max : ℚ} {x : F64} (between : Between min max x) :
    x.isFinite = true := by
  obtain ⟨value, rfl, _⟩ := between
  rfl

/-- An interval of doubles whose width is a double too. -/
structure Spreads (min max : ℚ) : Prop where
  low : binary64.round min = min
  high : binary64.round max = max
  width : binary64.round (max - min) = max - min
  above : -1000 < min
  below : max < 1000
  ordered : min ≤ max

/-- Whatever is drawn and however it is rounded, the interval is kept. -/
theorem spread_inside {min max draw : ℚ} (spreads : Spreads min max)
    (unit : 0 ≤ draw ∧ draw < 1) : Between min max (spread min max draw) := by
  obtain ⟨low, high, width, above, below, ordered⟩ := spreads
  have positive : 0 ≤ draw * (max - min) := mul_nonneg unit.1 (by linarith)
  have smaller : draw * (max - min) ≤ max - min :=
    mul_le_of_le_one_left (by linarith) unit.2.le
  have scaled := Nmea.Magnitude.round_nonneg positive
  have bounded := Format.round_mono (f := binary64) smaller
  rw [width] at bounded
  have product : (F64.mulBy (binary64.round (max - min)) (.finite draw)).rounded =
      .finite (binary64.round (draw * (max - min))) := by
    rw [width, F64.mulBy, Nmea.ofRat_small (by linarith) (by linarith)]
    rfl
  have sum : F64.add (.finite (binary64.round (draw * (max - min)))) (.finite min) =
      .finite (binary64.round (draw * (max - min)) + min) := by
    show F64.ofRat .f64 _ = _
    exact Nmea.ofRat_small (by linarith) (by linarith)
  refine ⟨binary64.round (binary64.round (draw * (max - min)) + min), ?_, Format.round_has _,
    ?_, ?_⟩
  · unfold spread
    rw [product, sum]
    rfl
  · have bound : min ≤ binary64.round (draw * (max - min)) + min := by linarith
    have rounded := Format.round_mono (f := binary64) bound
    rwa [low] at rounded
  · have bound : binary64.round (draw * (max - min)) + min ≤ max := by linarith
    have rounded := Format.round_mono (f := binary64) bound
    rwa [high] at rounded

section Rectangles

variable {σ : Type} (R : Random σ)

theorem PointScatter.spreads : Spreads minx maxx ∧ Spreads miny maxy := by
  constructor <;> constructor <;> decide +kernel

theorem PointFuzzer.spreads : Spreads minx maxx ∧ Spreads miny maxy := by
  constructor <;> constructor <;> decide +kernel

/-- What scatter.zig hands on. -/
def PointScatter.Inside (point : Point) : Prop :=
  ∃ x y, point = ⟨0, .xy x y⟩ ∧ Between minx maxx x ∧ Between miny maxy y

variable {R}

theorem PointScatter.nextPoint_inside {rng rng' : σ} {point : Point}
    (run : (nextPoint R).run rng = .ok point rng') : Inside point := by
  cases run
  exact ⟨_, _, rfl, spread_inside spreads.1 (R.unit _), spread_inside spreads.2 (R.unit _)⟩

theorem PointScatter.supplies_inside {rng rng' : σ} {points : List Point}
    (supplies : Supplies (nextPoint R) rng points rng') : ∀ point ∈ points, Inside point :=
  have step (rng : σ) (point : Point) (rng' : σ) (_ : True)
      (run : (nextPoint R).run rng = .ok point rng') : True ∧ Inside point :=
    ⟨trivial, nextPoint_inside run⟩
  (supplies.holds step trivial).2

theorem PointScatter.endless : Endless (nextPoint R) := fun _ => ⟨_, _, rfl⟩

theorem PointFuzzer.endless : Endless (nextPoint R) := fun _ => ⟨_, _, rfl⟩

end Rectangles

/-! ### The walk of the fuzzer -/

/-- A finite float below a power of two. -/
def Below (k : ℤ) (x : F64) : Prop := ∃ value, x = .finite value ∧ |value| ≤ 2 ^ k

theorem Below.isFinite {k : ℤ} {x : F64} (below : Below k x) : x.isFinite = true := by
  obtain ⟨value, rfl, _⟩ := below
  rfl

theorem ofRat_below {value : ℚ} (below : |value| < 2 ^ (970 : ℤ)) :
    F64.ofRat .f64 value = .finite value := by
  have large : (2 : ℚ) ^ (970 : ℤ) ≤ F64.Width.overflow .f64 := by
    have split : (2 : ℚ) ^ 1024 = 2 ^ 970 * 2 ^ 54 := by rw [← pow_add]
    have unit : (0 : ℚ) < 2 ^ 970 := by positivity
    show (2 : ℚ) ^ (970 : ℕ) ≤ 2 ^ 1024 - 2 ^ 970
    rw [split]
    generalize (2 : ℚ) ^ 970 = scale at unit
    linarith
  obtain ⟨low, high⟩ := abs_lt.mp below
  unfold F64.ofRat
  rw [if_neg (by linarith), if_neg (by linarith)]

/-- A sum stays below a power of two, once the second number is too small to count. -/
theorem Below.add {k j : ℤ} {x d : F64} (below : Below k x) (small : Below j d)
    (tiny : j < k - 53) (normal : -1000 ≤ k ∧ k ≤ 900) : Below k (F64.add x d).rounded := by
  obtain ⟨value, rfl, below⟩ := below
  obtain ⟨step, rfl, small⟩ := small
  have step_lt : |step| < 2 ^ (k - (binary64.precision : ℤ)) :=
    small.trans_lt (zpow_lt_zpow_right₀ (by norm_num) (by exact_mod_cast tiny))
  have smaller : (2 : ℚ) ^ (k - (binary64.precision : ℤ)) ≤ 2 ^ k :=
    zpow_le_zpow_right₀ (by norm_num) (by omega)
  have sum_lt : |value + step| < 2 ^ (970 : ℤ) := by
    calc |value + step| ≤ |value| + |step| := abs_add_le _ _
      _ < 2 ^ k + 2 ^ k := by linarith
      _ = 2 ^ (k + 1) := by rw [zpow_add_one₀ (by norm_num)]; ring
      _ ≤ 2 ^ (970 : ℤ) := zpow_le_zpow_right₀ (by norm_num) (by omega)
  have sum : F64.add (.finite value) (.finite step) = .finite (value + step) := ofRat_below sum_lt
  refine ⟨binary64.round (value + step), by rw [sum]; rfl, ?_⟩
  apply Format.round_add_le below step_lt
  show -1074 ≤ k + 1 - 53
  omega

namespace PointFuzzer

variable {σ : Type} {R : Random σ}

/-- No draw of the normal distribution lies far out. -/
def Tame (R : Random σ) : Prop := ∀ rng, |(R.floatNorm rng).1| ≤ 255

theorem drift_below {draw : ℚ} (near : |draw| ≤ 255) : Below (-5) (drift draw) := by
  have bias : binary64.round 0.1 ≤ 1 ∧ 0 ≤ binary64.round 0.1 := by decide +kernel
  have factor : binary64.round 0.0001 ≤ 2 ^ (-13 : ℤ) ∧ 0 ≤ binary64.round 0.0001 := by
    decide +kernel
  have whole : binary64.Has (256 : ℚ) := ⟨256, 0, by decide, by decide, by norm_num⟩
  obtain ⟨low, high⟩ := abs_le.mp near
  have sum : F64.add (.finite draw) (.finite (binary64.round 0.1)) =
      .finite (draw + binary64.round 0.1) := by
    show F64.ofRat .f64 _ = _
    exact Nmea.ofRat_small (by linarith) (by linarith)
  have biased : |binary64.round (draw + binary64.round 0.1)| ≤ 256 := by
    apply Format.round_abs_le whole
    rw [abs_le]
    constructor <;> linarith
  have scaled : |binary64.round (draw + binary64.round 0.1) * binary64.round 0.0001| ≤
      2 ^ (-5 : ℤ) := by
    rw [abs_mul, abs_of_nonneg factor.2]
    calc _ ≤ (256 : ℚ) * 2 ^ (-13 : ℤ) := mul_le_mul biased factor.1 factor.2 (by norm_num)
      _ = 2 ^ (-5 : ℤ) := by norm_num
  have product : F64.mulBy (binary64.round 0.0001)
      (.finite (binary64.round (draw + binary64.round 0.1))) =
        .finite (binary64.round (draw + binary64.round 0.1) * binary64.round 0.0001) := by
    apply ofRat_below
    apply scaled.trans_lt
    exact zpow_lt_zpow_right₀ (by norm_num) (by norm_num)
  have power : binary64.Has (2 ^ (-5 : ℤ)) := Format.has_zpow (by decide)
  refine ⟨_, ?_, Format.round_abs_le power scaled⟩
  unfold drift
  rw [sum]
  show (F64.mulBy _ (.finite (binary64.round (draw + binary64.round 0.1)))).rounded = _
  rw [product]
  rfl

/-- Where the velocity and then the position stop growing: their steps are rounded off. -/
structure Held (src : PointFuzzer σ) : Prop where
  x : Below 103 src.x
  y : Below 103 src.y
  dx : Below 49 src.dx
  dy : Below 49 src.dy

theorem nextPoint_held (tame : Tame R) {src src' : PointFuzzer σ} {point : Point} (held : Held src)
    (run : (nextPoint R).run src = .ok point src') :
    Held src' ∧ point = ⟨0, .xy src'.x src'.y⟩ := by
  cases run
  have dx := held.dx.add (drift_below (tame src.rng)) (by norm_num) (by norm_num)
  have dy := held.dy.add (drift_below (tame (R.floatNorm src.rng).2)) (by norm_num) (by norm_num)
  have x := held.x.add dx (by norm_num) (by norm_num)
  have y := held.y.add dy (by norm_num) (by norm_num)
  exact ⟨⟨x, y, dx, dy⟩, rfl⟩

theorem init_inside (rng : σ) :
    Between minx maxx (init R rng).x ∧ Between miny maxy (init R rng).y :=
  ⟨spread_inside spreads.1 (R.unit _), spread_inside spreads.2 (R.unit _)⟩

theorem init_held (rng : σ) : Held (init R rng) := by
  have near : ∀ {min max : ℚ} {x : F64}, -100 ≤ min → max ≤ 100 → Between min max x →
      Below 103 x := by
    intro min max x low high between
    obtain ⟨value, rfl, _, above, below⟩ := between
    refine ⟨value, rfl, ?_⟩
    have far : (100 : ℚ) ≤ 2 ^ (103 : ℤ) := by norm_num
    rw [abs_le]
    constructor <;> linarith
  obtain ⟨x, y⟩ := init_inside (R := R) rng
  have zero : Below 49 (.finite 0) := ⟨0, rfl, by norm_num⟩
  exact ⟨near (by decide +kernel) (by decide +kernel) x,
    near (by decide +kernel) (by decide +kernel) y, zero, zero⟩

/-- A point of finite coordinates. -/
def Walked (point : Point) : Prop := ∃ x y, point = ⟨0, .xy x y⟩ ∧ Below 103 x ∧ Below 103 y

theorem supplies_walked (tame : Tame R) {src src' : PointFuzzer σ} {points : List Point}
    (supplies : Supplies (nextPoint R) src points src') (held : Held src) :
    Held src' ∧ ∀ point ∈ points, Walked point := by
  apply supplies.holds _ held
  intro src point src' held run
  obtain ⟨kept, same⟩ := nextPoint_held tame held run
  exact ⟨kept, src'.x, src'.y, same, kept.x, kept.y⟩

/-- The walk begins inside the envelope, and however long it gets it neither overflows nor
meets a float that is no number: the steps are rounded off before. -/
theorem walk_finite (tame : Tame R) (rng : σ) (n : Nat) :
    Between minx maxx (init R rng).x ∧ Between miny maxy (init R rng).y ∧
      ∃ points src', points.length = n ∧ Supplies (nextPoint R) (init R rng) points src' ∧
        Held src' ∧ ∀ point ∈ points, Walked point := by
  obtain ⟨x, y⟩ := init_inside (R := R) rng
  obtain ⟨points, src', length, supplies⟩ := endless.supplies n (init R rng)
  obtain ⟨held, walked⟩ := supplies_walked tame supplies (init_held rng)
  exact ⟨x, y, points, src', length, supplies, held, walked⟩

end PointFuzzer

/-- A generator that multiplies and adds, with four times the plain draw for the normal one. -/
def congruential : Random Nat where
  float seed := (((seed % 2 ^ 53 : Nat) : ℚ) / 2 ^ 53,
    (seed * 6364136223846793005 + 1442695040888963407) % 2 ^ 64)
  floatNorm seed := (((seed % 2 ^ 53 : Nat) : ℚ) / 2 ^ 51 - 2,
    (seed * 6364136223846793005 + 1442695040888963407) % 2 ^ 64)
  unit seed := by
    have below : ((seed % 2 ^ 53 : Nat) : ℚ) < 2 ^ 53 := by
      exact_mod_cast Nat.mod_lt seed (by decide)
    constructor
    · positivity
    · exact (div_lt_one (by norm_num)).mpr below

theorem congruential_tame : PointFuzzer.Tame congruential := by
  intro seed
  have below : ((seed % 2 ^ 53 : Nat) : ℚ) < 2 ^ 53 := by
    exact_mod_cast Nat.mod_lt seed (by decide)
  have least : (0 : ℚ) ≤ ((seed % 2 ^ 53 : Nat) : ℚ) := by positivity
  show |((seed % 2 ^ 53 : Nat) : ℚ) / 2 ^ 51 - 2| ≤ 255
  rw [abs_le]
  constructor
  · linarith [div_nonneg least (by norm_num : (0 : ℚ) ≤ 2 ^ 51)]
  · have four : ((seed % 2 ^ 53 : Nat) : ℚ) / 2 ^ 51 < 4 := by
      rw [div_lt_iff₀ (by norm_num)]
      linarith
    linarith

theorem PointFuzzer.walk_finite_hour :
    Between minx maxx (init congruential 7).x ∧ Between miny maxy (init congruential 7).y ∧
      ∃ points src', points.length = 3600 ∧
        Supplies (nextPoint congruential) (init congruential 7) points src' ∧
        Held src' ∧ ∀ point ∈ points, Walked point :=
  walk_finite congruential_tame 7 3600

end WatershedOracle
