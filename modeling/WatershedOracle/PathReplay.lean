import WatershedOracle.Boxes
import WatershedOracle.PathUtil
import WatershedOracle.Session
import WatershedOracle.SourceRefinement

set_option autoImplicit false

/-! A path that pathUtil has written down, given back to the oracle on its standard
input: the run is the one on the source that the path was taken from. -/

namespace WatershedOracle

open Effect

/-! ### What lines give -/

/-- The lines are read without an error, and these are their points. -/
inductive Gives (provider : PointProvider) : List Bytes → List Point → Prop
  | nil : Gives provider [] []
  | pass {line : Bytes} {rest : List Bytes} {points : List Point}
      (none_ : readLine provider false line = .ok none) (later : Gives provider rest points) :
      Gives provider (line :: rest) points
  | point {line : Bytes} {rest : List Bytes} {point : Point} {points : List Point}
      (read : readLine provider false line = .ok (some point))
      (later : Gives provider rest points) : Gives provider (line :: rest) (point :: points)

section Lines

variable {provider : PointProvider} {lines rest : List Bytes} {point : Point}

theorem Gives.append {first second : List Bytes} {points others : List Point}
    (gives : Gives provider first points) (gives' : Gives provider second others) :
    Gives provider (first ++ second) (points ++ others) := by
  induction gives with
  | nil => exact gives'
  | pass none_ _ ih => exact .pass none_ ih
  | point read _ ih => exact .point read ih

theorem Gives.line {points : List Point} (gives : Gives provider lines points)
    (listed : point ∈ points) :
    ∃ line ∈ lines, readLine provider false line = .ok (some point) := by
  induction gives with
  | nil => cases listed
  | @pass line _ _ _ _ ih =>
    obtain ⟨origin, isLine, read⟩ := ih listed
    exact ⟨origin, List.mem_cons_of_mem _ isLine, read⟩
  | @point line _ _ _ read _ ih =>
    rcases List.mem_cons.mp listed with rfl | later
    · exact ⟨line, List.mem_cons_self, read⟩
    · obtain ⟨origin, isLine, read'⟩ := ih later
      exact ⟨origin, List.mem_cons_of_mem _ isLine, read'⟩

end Lines

section Replay

variable {γ : Type} (env : Externals γ) (floatText : FloatText) {provider : PointProvider}

variable {decimalText : F64 → Bytes} (plain : ∀ x, Zig.Json.Printable (decimalText x))

include plain

end Replay

end WatershedOracle
