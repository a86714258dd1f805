import Mathlib.Data.List.Nodup
import WatershedOracle.Library.JsonFraming
import WatershedOracle.LineFaults
import WatershedOracle.Session

set_option autoImplicit false

/-! The answer lines as a format: what a reader of JSON gets from the lines of any run
is what the stack held when each of them was printed. -/

namespace WatershedOracle

open Effect

variable {γ : Type}

/-- What an answer line says. -/
structure Answer where
  requestId : Int
  pointNotInDataset : Bool
  /-- The WKT of the point and the texts of its coordinates. -/
  point : Option (Bytes × Bytes × Bytes)
  /-- The name and the code. -/
  hucs : Level → Option (Bytes × Bytes)

namespace Answer

def of (env : Externals γ) (floatText : FloatText) (stack : WatershedStack γ) : Answer where
  requestId := stack.requestId
  pointNotInDataset := !stack.valid
  point := stack.point.map fun point =>
    (env.wktWriter point.geom, floatText stack.pointBounds.minX, floatText stack.pointBounds.minY)
  hucs level := (stack.slot level).map fun w => (w.name.bytes, w.hucPrefix level.digits)

def numberText : Json.Value → Option Bytes
  | .number text => some text
  | _ => none

def readByte : Json.Value → Option UInt8
  | .number text => ((Zig.parseInt Zig.u8 text 10).toOption).map fun n => UInt8.ofNat n.toNat
  | _ => none

/-- A string, or the bytes of one that is not UTF-8. -/
def readSlice : Json.Value → Option Bytes
  | .string text => some text
  | .array items => items.mapM readByte
  | _ => none

def readHuc (v : Json.Value) : Option (Bytes × Bytes) := do
  let name ← (v.member? (Zig.ascii "name")).bind readSlice
  let huc ← (v.member? (Zig.ascii "huc")).bind readSlice
  some (name, huc)

def readPoint (v : Json.Value) : Option (Bytes × Bytes × Bytes) := do
  let wkt ← (v.member? (Zig.ascii "WKT")).bind readSlice
  let longitude ← (v.member? (Zig.ascii "longitude")).bind numberText
  let latitude ← (v.member? (Zig.ascii "latitude")).bind numberText
  some (wkt, longitude, latitude)

def ofValue (v : Json.Value) : Option Answer := do
  let id ← (v.member? (Zig.ascii "requestId")).bind numberText
  let requestId ← (Zig.parseInt Zig.i64 id 10).toOption
  some {
    requestId
    pointNotInDataset := (v.member? (Zig.ascii "pointNotInDataset")).isSome
    point := (v.member? (Zig.ascii "point")).bind readPoint
    hucs level := (v.member? (Zig.ascii level.hucLevel)).bind readHuc }

end Answer

/-! ### Looking a member up -/

section Lookup

variable {floatText : FloatText}

theorem find?_unique {α β : Type} [DecidableEq α] {members : List (α × β)} {name : α} {v : β}
    (distinct : (members.map Prod.fst).Nodup) (listed : (name, v) ∈ members) :
    members.find? (fun member => member.1 = name) = some (name, v) := by
  induction members with
  | nil => cases listed
  | cons first others ih =>
    obtain ⟨fresh, distinct⟩ := List.nodup_cons.mp distinct
    rw [List.find?_cons]
    rcases List.mem_cons.mp listed with rfl | later
    · simp
    · have other : first.1 ≠ name := fun same =>
        fresh (same ▸ List.mem_map_of_mem (f := Prod.fst) later)
      simpa [other] using ih distinct later

theorem member?_object {members : List (Bytes × Json.Value)} {name : Bytes} {v : Json.Value}
    (distinct : (members.map Prod.fst).Nodup) (listed : (name, v) ∈ members) :
    (Json.Value.object members).member? name = some v := by
  have reversed : (members.reverse.map Prod.fst).Nodup := by
    rw [List.map_reverse]
    exact List.nodup_reverse.mpr distinct
  simp only [Json.Value.member?, find?_unique reversed (List.mem_reverse.mpr listed),
    Option.map_some]

theorem member?_absent {members : List (Bytes × Json.Value)} {name : Bytes}
    (absent : name ∉ members.map Prod.fst) :
    (Json.Value.object members).member? name = none := by
  have none_ : members.reverse.find? (fun member => member.1 = name) = none := by
    apply List.find?_eq_none.mpr
    intro member listed same
    exact absent (of_decide_eq_true same ▸
      List.mem_map_of_mem (f := Prod.fst) (List.mem_reverse.mp listed))
  simp only [Json.Value.member?, none_, Option.map_none]

end Lookup

/-! ### Documents -/

section Document

variable (env : Externals γ) (floatText : FloatText) (stack : WatershedStack γ)

/-- The names that a document may have. -/
def memberNames : List String :=
  ["requestId", "pointNotInDataset", "point"] ++ Level.all.map Level.hucLevel

theorem memberNames_distinct : (memberNames.map Zig.ascii).Nodup := by decide

theorem document_names_distinct :
    (((document env stack).map Prod.fst).map Zig.ascii).Nodup :=
  ((document_keys env stack).map Zig.ascii).nodup memberNames_distinct

variable {env stack}

theorem memberNames_injective {a b : String} (isName : a ∈ memberNames) (isName' : b ∈ memberNames)
    (same : Zig.ascii a = Zig.ascii b) : a = b :=
  List.inj_on_of_nodup_map memberNames_distinct isName isName' same

theorem member?_document {name : String} {node : Zig.Json.Node F64}
    (listed : (name, node) ∈ document env stack) :
    (Json.ofDocument floatText (document env stack)).member? (Zig.ascii name) =
      some (Json.ofNode floatText node) := by
  apply member?_object
  · have distinct := document_names_distinct env stack
    simpa only [List.map_map, Function.comp_def] using distinct
  · exact List.mem_map_of_mem
      (f := fun (name, node) => (Zig.ascii name, Json.ofNode floatText node)) listed

theorem member?_document_absent {name : String} (isName : name ∈ memberNames)
    (absent : ∀ node, (name, node) ∉ document env stack) :
    (Json.ofDocument floatText (document env stack)).member? (Zig.ascii name) = none := by
  apply member?_absent
  intro member
  simp only [List.map_map, List.mem_map, Function.comp_apply] at member
  obtain ⟨⟨other, node⟩, listed, same⟩ := member
  have key : other ∈ (document env stack).map Prod.fst := List.mem_map_of_mem (f := Prod.fst) listed
  have isOther := (document_keys env stack).subset key
  obtain rfl := memberNames_injective isOther isName same
  exact absent node listed

/-- A flag is written for a stack without watersheds only. -/
theorem flag_of_mem_document {node : Zig.Json.Node F64}
    (listed : ("pointNotInDataset", node) ∈ document env stack) : stack.valid = false := by
  by_contra isValid
  have other : ∀ level : Level, level.hucLevel ≠ "pointNotInDataset" := fun level =>
    level.hucLevel_ne.2.1
  simp [document, isValid, pointMember, hucMember, other] at listed

theorem point_of_mem_document {node : Zig.Json.Node F64}
    (listed : ("point", node) ∈ document env stack) : stack.point.isSome := by
  by_contra none_
  have other : ∀ level : Level, level.hucLevel ≠ "point" := fun level => level.hucLevel_ne.2.2
  rw [Option.not_isSome_iff_eq_none] at none_
  by_cases isValid : stack.valid <;> simp [document, isValid, none_, hucMember, other] at listed

end Document

/-! ### What a reader finds -/

section Reader

variable {env : Externals γ} {floatText : FloatText} {stack : WatershedStack γ}

theorem readByte_natText (byte : UInt8) :
    Answer.readByte (.number (Zig.Json.natText byte.toNat)) = some byte := by
  have text : Zig.Json.natText byte.toNat = Zig.Json.intText byte.toNat := by
    rw [Zig.Json.intText, if_neg (by omega), Int.natAbs_natCast]
  have fits : Zig.u8.Has byte.toNat := by
    have small := byte.toNat_lt
    simp only [Zig.IntType.Has, Zig.u8]
    omega
  simp only [Answer.readByte, text, Zig.Json.parseInt_intText _ (by decide) fits, Except.toOption,
    Option.map_some, Int.toNat_natCast, UInt8.ofNat_toNat]

theorem readBytes_natText (bytes : Bytes) :
    (bytes.map fun byte => Json.Value.number (Zig.Json.natText byte.toNat)).mapM Answer.readByte =
      some bytes := by
  induction bytes with
  | nil => rfl
  | cons byte bytes ih =>
    rw [List.map_cons, List.mapM_cons, readByte_natText, ih]
    rfl

/-- A slice is read back, be it UTF-8 or not. -/
theorem readSlice_slice (bytes : Bytes) :
    Answer.readSlice (Json.ofScalar floatText (.slice bytes)) = some bytes := by
  by_cases utf8 : Json.IsUtf8 bytes
  · have isString : Json.ofScalar floatText (.slice bytes) = .string bytes := if_pos utf8
    rw [isString]
    rfl
  · have isArray : Json.ofScalar floatText (.slice bytes) =
        .array (bytes.map fun byte => .number (Zig.Json.natText byte.toNat)) := if_neg utf8
    rw [isArray]
    exact readBytes_natText bytes

variable (floatText) in
theorem member?_inner (members : List (String × Zig.Json.Scalar F64)) (name : String)
    (v : Zig.Json.Scalar F64) (distinct : ((members.map Prod.fst).map Zig.ascii).Nodup)
    (listed : (name, v) ∈ members) :
    (Json.ofNode floatText (.object members)).member? (Zig.ascii name) =
      some (Json.ofScalar floatText v) := by
  apply member?_object
  · simpa only [List.map_map, Function.comp_def] using distinct
  · exact List.mem_map_of_mem (f := fun (name, v) => (Zig.ascii name, Json.ofScalar floatText v))
      listed

variable (floatText) in
theorem member?_hucMember (level : Level) (w : Watershed γ) :
    (Json.ofNode floatText (hucMember level w).2).member? (Zig.ascii "name") =
        some (Json.ofScalar floatText (.slice w.name.bytes)) ∧
      (Json.ofNode floatText (hucMember level w).2).member? (Zig.ascii "huc") =
        some (Json.ofScalar floatText (.slice (w.hucPrefix level.digits))) := by
  let members : List (String × Zig.Json.Scalar F64) :=
    [("name", .slice w.name.bytes), ("huc", .slice (w.hucPrefix level.digits))]
  have distinct : ((members.map Prod.fst).map Zig.ascii).Nodup := by
    show (["name", "huc"].map Zig.ascii).Nodup
    decide
  constructor
  · exact member?_inner floatText members "name" _ distinct (List.mem_cons_self ..)
  · apply member?_inner floatText members "huc" _ distinct
    exact List.mem_cons_of_mem _ (List.mem_cons_self ..)

variable (floatText) in
theorem readHuc_hucMember (level : Level) (w : Watershed γ) :
    Answer.readHuc (Json.ofNode floatText (hucMember level w).2) =
      some (w.name.bytes, w.hucPrefix level.digits) := by
  obtain ⟨name, huc⟩ := member?_hucMember floatText level w
  simp only [Answer.readHuc, name, huc, Option.bind_some, readSlice_slice, Bind.bind]

variable (env floatText stack) in
theorem readPoint_pointMember (point : GeomPtr γ) :
    Answer.readPoint (Json.ofNode floatText (pointMember env stack point).2) =
      some (env.wktWriter point.geom, floatText stack.pointBounds.minX,
        floatText stack.pointBounds.minY) := by
  let members : List (String × Zig.Json.Scalar F64) := [("WKT", .slice (env.wktWriter point.geom)),
    ("longitude", .float stack.pointBounds.minX), ("latitude", .float stack.pointBounds.minY)]
  have distinct : ((members.map Prod.fst).map Zig.ascii).Nodup := by
    show (["WKT", "longitude", "latitude"].map Zig.ascii).Nodup
    decide
  have wkt := member?_inner floatText members "WKT" _ distinct (List.mem_cons_self ..)
  have longitude := member?_inner floatText members "longitude" _ distinct
    (List.mem_cons_of_mem _ (List.mem_cons_self ..))
  have latitude := member?_inner floatText members "latitude" _ distinct
    (List.mem_cons_of_mem _ (List.mem_cons_of_mem _ (List.mem_cons_self ..)))
  simp only [members] at wkt longitude latitude
  simp only [Answer.readPoint, pointMember, wkt, longitude, latitude, Option.bind_some,
    readSlice_slice, Bind.bind]
  rfl

variable (env floatText stack)

theorem member?_requestId :
    (Json.ofDocument floatText (document env stack)).member? (Zig.ascii "requestId") =
      some (.number (Zig.Json.intText stack.requestId)) :=
  @member?_document γ env floatText stack "requestId" _ mem_document_requestId

theorem member?_flag :
    (Json.ofDocument floatText (document env stack)).member? (Zig.ascii "pointNotInDataset") =
      if stack.valid then none else some (.bool true) := by
  cases isValid : stack.valid with
  | false => exact member?_document floatText (mem_document_flag.mpr isValid)
  | true =>
    apply member?_document_absent floatText (by decide)
    intro node listed
    rw [flag_of_mem_document listed] at isValid
    cases isValid

theorem member?_point :
    (Json.ofDocument floatText (document env stack)).member? (Zig.ascii "point") =
      stack.point.map fun point => Json.ofNode floatText (pointMember env stack point).2 := by
  cases at_ : stack.point with
  | none =>
    apply member?_document_absent floatText (by decide)
    intro node listed
    have isSome := point_of_mem_document listed
    rw [at_] at isSome
    cases isSome
  | some point =>
    have listed : ("point", (pointMember env stack point).2) ∈ document env stack :=
      mem_document_point env at_
    exact member?_document floatText listed

theorem member?_huc (level : Level) :
    (Json.ofDocument floatText (document env stack)).member? (Zig.ascii level.hucLevel) =
      (stack.slot level).map fun w => Json.ofNode floatText (hucMember level w).2 := by
  have isName : level.hucLevel ∈ memberNames :=
    List.mem_append_right _ (List.mem_map_of_mem level.mem_all)
  cases occupied : stack.slot level with
  | none =>
    apply member?_document_absent floatText isName
    intro node listed
    obtain ⟨w, found, _⟩ := slot_of_mem_document listed
    rw [occupied] at found
    cases found
  | some w => exact member?_document floatText (hucMember_mem_document occupied)

theorem parseInt_fits {n : Int} (fits : Zig.i64.Has n) :
    (Zig.parseInt Zig.i64 (Zig.Json.intText n) 10).toOption = some n := by
  rw [Zig.Json.parseInt_intText n (by decide) fits]
  rfl

/-- A reader finds in a document what the stack holds. -/
theorem ofValue_document (fits : Zig.i64.Has stack.requestId) :
    Answer.ofValue (Json.ofDocument floatText (document env stack)) =
      some (Answer.of env floatText stack) := by
  have flag : (if stack.valid = true then none else some (Json.Value.bool true)).isSome =
      !stack.valid := by
    cases stack.valid <;> rfl
  have point : (stack.point.map fun point =>
      Json.ofNode floatText (pointMember env stack point).2).bind Answer.readPoint =
        (Answer.of env floatText stack).point := by
    cases at_ : stack.point with
    | none => simp [Answer.of, at_]
    | some point => simp [Answer.of, at_, readPoint_pointMember]
  have hucs : (fun level : Level => ((stack.slot level).map fun w =>
      Json.ofNode floatText (hucMember level w).2).bind Answer.readHuc) =
        (Answer.of env floatText stack).hucs := by
    funext level
    cases occupied : stack.slot level with
    | none => simp [Answer.of, occupied]
    | some w => simp [Answer.of, occupied, readHuc_hucMember]
  simp only [Answer.ofValue, member?_requestId, member?_flag, member?_point, member?_huc,
    Option.bind_some, Bind.bind, Answer.numberText, parseInt_fits fits, flag, point, hucs]
  rfl

variable {env floatText stack}

/-- The coordinates that an answer prints, if it prints any, are finite. -/
def WatershedStack.Finite (stack : WatershedStack γ) : Prop :=
  stack.point.isSome → stack.pointBounds.minX.isFinite ∧ stack.pointBounds.minY.isFinite

theorem isUtf8_names : ∀ name ∈ memberNames ++ ["WKT", "longitude", "latitude", "name", "huc"],
    Json.IsUtf8 (Zig.ascii name) := by
  decide +kernel

/-- Every document is JSON, if std.fmt writes a finite float as a number of it. -/
theorem document_sound (numbers : ∀ x : F64, x.isFinite → Json.IsNumber (floatText x))
    (finite : stack.Finite) : Json.Sound floatText (document env stack) := by
  intro member listed
  have key : member.1 ∈ memberNames :=
    (document_keys env stack).subset (List.mem_map_of_mem listed)
  refine ⟨isUtf8_names _ (List.mem_append_left _ key), ?_⟩
  simp only [document, List.mem_append, List.mem_singleton, Option.mem_toList,
    Option.map_eq_some_iff, List.mem_filterMap] at listed
  rcases listed with ((rfl | flag) | ⟨point, at_, rfl⟩) | ⟨level, _, w, _, rfl⟩
  · exact trivial
  · split at flag
    · cases flag
    · cases List.mem_singleton.mp flag
      exact trivial
  · obtain ⟨finiteX, finiteY⟩ := finite (by simp [at_])
    have names := isUtf8_names
    simp only [List.forall_mem_append, List.forall_mem_cons] at names
    simp [pointMember, Json.SoundNode, Json.SoundScalar, names, numbers _ finiteX,
      numbers _ finiteY]
  · have names := isUtf8_names
    simp only [List.forall_mem_append, List.forall_mem_cons] at names
    simp [hucMember, Json.SoundNode, Json.SoundScalar, names]

end Reader

/-! ### The ids of requests -/

/-- What is returned, if anything is, has the property. -/
def Yields {ε α : Type} (P : α → Prop) (x : Except ε α) : Prop := ∀ a, x = .ok a → P a

section Yields

variable {ε ε' α β : Type} {P : α → Prop} {Q : β → Prop}

theorem yields_error (e : ε) : Yields P (.error e) := fun _ same => nomatch same

theorem Yields.ok {a : α} (holds : P a) : Yields P (.ok a : Except ε α) := by
  intro b same
  cases same
  exact holds

theorem Yields.bind {x : Except ε α} {f : α → Except ε β} (first : Yields P x)
    (then_ : ∀ a, P a → Yields Q (f a)) : Yields Q (x >>= f) := by
  cases x with
  | error e => exact yields_error e
  | ok a => exact then_ a (first a rfl)

theorem yields_true (x : Except ε α) : Yields (fun _ => True) x := fun _ _ => trivial

theorem Yields.mapError {x : Except ε α} (yields : Yields P x) (f : ε → ε') :
    Yields P (x.mapError f) := by
  cases x with
  | error e => exact yields_error _
  | ok a => exact .ok (yields a rfl)

end Yields

theorem parseDigits_has {type : Zig.IntType} {base : Nat} {negative : Bool} (buf : Bytes) {x : Int}
    (inside : type.Has x) : Yields type.Has (Zig.parseDigits type base negative buf x) := by
  induction buf generalizing x with
  | nil => exact .ok inside
  | cons c rest ih =>
    unfold Zig.parseDigits
    split
    · exact ih inside
    · split
      · exact yields_error _
      · have checked : ∀ scaled next : Int, Yields type.Has
            (if type.Has scaled ∧ type.Has next then Zig.parseDigits type base negative rest next
              else .error .Overflow) := by
          intro scaled next
          split
          · rename_i fits
            exact ih fits.2
          · exact yields_error _
        exact checked _ _

theorem parseInt_has {type : Zig.IntType} (zero : type.Has 0) (buf : Bytes) (base : Nat) :
    Yields type.Has (Zig.parseInt type buf base) := by
  have signed : ∀ negative rest, Yields type.Has (Zig.parseWithSign type base negative rest) := by
    intro negative rest
    unfold Zig.parseWithSign
    split
    · exact yields_error _
    · exact parseDigits_has rest zero
  unfold Zig.parseInt
  split <;> exact signed _ _

theorem inI64_has (n : Int) : Yields Zig.i64.Has (inI64 n) := by
  unfold inI64
  split
  · exact .ok ‹_›
  · exact yields_error _

theorem literalToInt_has (literal : Zig.FloatLiteral) :
    Yields Zig.i64.Has (literalToInt literal) := by
  unfold literalToInt
  split
  · exact yields_error _
  · exact yields_error _
  dsimp only
  repeat' split
  all_goals first
    | exact inI64_has _
    | exact yields_error _
    | exact .ok (by decide)

theorem sliceToInt_has (slice : Bytes) : Yields Zig.i64.Has (sliceToInt slice) := by
  unfold sliceToInt
  split
  · exact (parseInt_has (by decide) slice 10).mapError _
  · exact (yields_true _).bind fun literal _ => literalToInt_has literal

/-- An id that has been read is one of i64. -/
def PointFields.Fits (fields : PointFields) : Prop := ∀ n ∈ fields.requestId, Zig.i64.Has n

theorem set_fits {fields : PointFields} (fits : fields.Fits) (field : PointField) (slice : Bytes) :
    Yields PointFields.Fits (fields.set field slice) := by
  cases field with
  | requestId =>
    refine (sliceToInt_has slice).bind fun n inside => .ok ?_
    intro n' same
    cases Option.mem_some.mp same
    exact inside
  | longitude => exact (yields_true _).bind fun literal _ => .ok fits
  | latitude => exact (yields_true _).bind fun literal _ => .ok fits

theorem parseMember_fits {fields : PointFields} (fits : fields.Fits) (s : Bytes) :
    Yields (fun read => read.1.Fits) (parseMember fields s) := by
  unfold parseMember
  split
  · exact yields_error _
  · refine (yields_true _).bind fun read _ => ?_
    obtain ⟨name, rest⟩ := read
    dsimp only
    split
    · exact yields_error _
    · split
      · exact yields_error _
      · exact (yields_true _).bind fun rest _ => (yields_true _).bind fun read _ =>
          (set_fits fits _ read.1).bind fun fields fits => .ok fits
  · exact yields_error _

theorem parseMembers_fits (left : Nat) {fields : PointFields} (fits : fields.Fits) (s : Bytes) :
    Yields (fun read => read.1.Fits) (parseMembers left fields s) := by
  induction left generalizing fields s with
  | zero =>
    unfold parseMembers
    refine (parseMember_fits fits s).bind fun read fits => ?_
    obtain ⟨fields, rest⟩ := read
    dsimp only
    split
    · exact yields_error _
    · exact yields_error _
    · exact .ok fits
    · exact yields_error _
  | succ left ih =>
    unfold parseMembers
    refine (parseMember_fits fits s).bind fun read fits => ?_
    obtain ⟨fields, rest⟩ := read
    dsimp only
    split
    · exact yields_error _
    · exact ih fits _
    · exact .ok fits
    · exact yields_error _

theorem fill_fits {fields : PointFields} (fits : fields.Fits) :
    Yields (fun request : PointJson => Zig.i64.Has request.requestId) fields.fill := by
  unfold PointFields.fill
  split
  · cases read : fields.requestId with
    | none => exact .ok (show Zig.i64.Has 0 by decide)
    | some n => exact .ok (fits n read)
  · exact yields_error _

theorem parsePointJson_fits (slice : Bytes) :
    Yields (fun request => Zig.i64.Has request.requestId) (parsePointJson slice) := by
  have fresh : PointFields.Fits {} := fun n same => nomatch same
  unfold parsePointJson
  split
  · exact yields_error _
  · have filled : ∀ read : PointFields × Bytes, read.1.Fits →
        Yields (fun request : PointJson => Zig.i64.Has request.requestId) (do
          let point ← read.1.fill
          if Zig.Json.skipWhitespace read.2 = [] then pure point
            else throw ZigError.SyntaxError) := by
      intro read fits
      refine (fill_fits fits).bind fun request inside => ?_
      split
      · exact .ok inside
      · exact yields_error _
    dsimp only
    split
    · rename_i rest _
      exact filled ({}, rest) fresh
    · exact (parseMembers_fits 3 fresh _).bind filled
  · exact (yields_true _).bind fun _ _ => yields_error _

/-! ### Runs -/

section Runs

variable (env : Externals γ) (floatText : FloatText) (provider : PointProvider)

theorem readLine_fits (json : Bool) (line : Bytes) :
    Yields (fun read => ∀ point ∈ read, Zig.i64.Has point.requestId)
      (readLine provider json line) := by
  have fixed : Zig.i64.Has 0 := by decide
  cases provider with
  | gpsMock =>
    simp only [readLine]
    split
    · exact yields_error _
    · refine .ok fun point same => ?_
      obtain ⟨_, _, rfl⟩ := Option.map_eq_some_iff.mp same
      exact fixed
  | stdin =>
    simp only [readLine]
    split
    · split
      · rename_i request parsed
        refine .ok fun point same => ?_
        cases Option.mem_some.mp same
        exact parsePointJson_fits line request parsed
      · exact yields_error _
    · refine .ok fun point same => ?_
      cases Option.mem_some.mp same
      exact fixed

/-- The stack at each answer of the loop, up to the line that ends it. -/
def answeredStacks (json : Bool) (m : Machine γ) : List Bytes → List (WatershedStack γ)
  | [] => []
  | line :: rest =>
      match readLine provider json line with
      | .error _ => []
      | .ok none => answeredStacks json m rest
      | .ok (some point) =>
          match (update env point).run m with
          | .ok () m' => m'.stack :: answeredStacks json m' rest
          | .error (.error .pointNotInDataset) m' => m'.stack :: answeredStacks json m' rest
          | .error _ _ => []

variable {env provider} {json : Bool} {m : Machine γ} {line : Bytes} (rest : List Bytes)

theorem answeredStacks_pass (none_ : readLine provider json line = .ok none) :
    answeredStacks env provider json m (line :: rest) =
      answeredStacks env provider json m rest := by
  rw [answeredStacks, none_]

theorem answeredStacks_reject {fault : Fault}
    (rejected : readLine provider json line = .error fault) :
    answeredStacks env provider json m (line :: rest) = [] := by
  rw [answeredStacks, rejected]

theorem answeredStacks_answer {point : Point}
    (read : readLine provider json line = .ok (some point)) (clean : Clean ((update env point).run m)) :
    answeredStacks env provider json m (line :: rest) =
      (endState ((update env point).run m)).stack ::
        answeredStacks env provider json (endState ((update env point).run m)) rest := by
  rw [answeredStacks, read]
  dsimp only
  generalize (update env point).run m = result at clean ⊢
  cases clean <;> rfl

theorem answeredStacks_fail {point : Point} (read : readLine provider json line = .ok (some point))
    {fault : Fault} {m' : Machine γ} (failed : (update env point).run m = .error fault m')
    (ends : fault ≠ .error .pointNotInDataset) :
    answeredStacks env provider json m (line :: rest) = [] := by
  rw [answeredStacks, read]
  simp only [failed]

/-- A line goes one of four ways. -/
theorem line_cases (provider : PointProvider) (env : Externals γ) (json : Bool) (m : Machine γ)
    (line : Bytes) :
    readLine provider json line = .ok none ∨
      (∃ fault, readLine provider json line = .error fault ∧ fault ≠ .error .NoMorePoints) ∨
      ∃ point, readLine provider json line = .ok (some point) ∧
        (Clean ((update env point).run m) ∨ ∃ fault m',
          (update env point).run m = .error fault m' ∧ fault ≠ .error .pointNotInDataset) := by
  cases read : readLine provider json line with
  | error fault =>
    refine .inr (.inl ⟨fault, rfl, fun same => ?_⟩)
    exact readLine_ne_noMorePoints provider json line (same ▸ read)
  | ok found =>
    cases found with
    | none => exact .inl rfl
    | some point =>
      by_cases clean : Clean ((update env point).run m)
      · exact .inr (.inr ⟨point, rfl, .inl clean⟩)
      · exact .inr (.inr ⟨point, rfl, .inr (not_clean clean)⟩)

/-- With JSON the loop prints the documents of these stacks, and nothing else. -/
theorem mainLoop_documents (floatText : FloatText) (lines : List Bytes) (m : Machine γ) :
    (mainLoop env floatText provider true m lines).output =
      answerLines floatText ((answeredStacks env provider true m lines).map (document env)) := by
  induction lines generalizing m with
  | nil => rw [mainLoop_nil]; rfl
  | cons line rest ih =>
    rcases line_cases provider env true m line with
      none_ | ⟨fault, rejected, ends⟩ | ⟨point, read, clean | ⟨fault, m', failed, ends⟩⟩
    · rw [mainLoop_pass rest none_, answeredStacks_pass rest none_, ih]
    · rw [mainLoop_reject rest rejected ends, answeredStacks_reject rest rejected]
      rfl
    · rw [mainLoop_answer rest read clean, answeredStacks_answer rest read clean, List.map_cons,
        answerLines_cons, Run.after_output, ih]
      rfl
    · rw [mainLoop_fail rest read failed ends, answeredStacks_fail rest read failed ends]
      rfl

/-- Every answer is under an id of i64. -/
theorem answeredStacks_fit (lines : List Bytes) {m : Machine γ} {list : List (Watershed γ)}
    (holds : m.stack.Holds list) :
    ∀ stack ∈ answeredStacks env provider json m lines, Zig.i64.Has stack.requestId := by
  induction lines generalizing m list with
  | nil => exact fun stack listed => nomatch listed
  | cons line rest ih =>
    rcases line_cases provider env json m line with
      none_ | ⟨fault, rejected, ends⟩ | ⟨point, read, clean | ⟨fault, m', failed, ends⟩⟩
    · rw [answeredStacks_pass rest none_]
      exact ih holds
    · rw [answeredStacks_reject rest rejected]
      exact fun stack listed => nomatch listed
    · rw [answeredStacks_answer rest read clean]
      obtain ⟨final, held, _⟩ := update_holds point m holds
      refine List.forall_mem_cons.mpr ⟨?_, ih held⟩
      cases made : env.geometryOf point.location with
      | none =>
        obtain ⟨m', unmade⟩ := update_unmade point m made
        rw [unmade, clean_error] at clean
        cases at_ : point.location <;> simp [at_, PointLocation.failure] at clean
      | some geom =>
        obtain ⟨addr, same⟩ := update_request point holds made
        rw [same.2.2.1]
        exact readLine_fits provider json line _ read point rfl
    · rw [answeredStacks_fail rest read failed ends]
      exact fun stack listed => nomatch listed

/-- The line says of the stack what `Answer.of` does, and nothing before it is whole. -/
structure ReadsBack (env : Externals γ) (floatText : FloatText) (line : Bytes)
    (stack : WatershedStack γ) : Prop where
  whole : (Json.read line).bind Answer.ofValue = some (Answer.of env floatText stack)
  unfinished : ∀ part, part <+: line → part ≠ line → Json.read part = none

theorem document_readsBack {floatText : FloatText} {stack : WatershedStack γ}
    (numbers : ∀ x : F64, x.isFinite → Json.IsNumber (floatText x)) (finite : stack.Finite)
    (fits : Zig.i64.Has stack.requestId) :
    ReadsBack env floatText (Zig.Json.render floatText (document env stack)) stack := by
  have sound : Json.Sound floatText (document env stack) := document_sound numbers finite
  refine ⟨?_, fun part begins proper => Json.read_partial sound begins proper⟩
  rw [Json.read_render sound]
  exact ofValue_document env floatText stack fits

variable (env provider) in
/-- Whatever the input, SQLite and GEOS are like, the output with JSON is lines, each read
back as what the stack held at that answer. -/
theorem main_readable (floats : ∀ x, Zig.Json.Printable (floatText x))
    (numbers : ∀ x : F64, x.isFinite → Json.IsNumber (floatText x)) (skip : Bool) (input : Bytes) :
    let output := (main env floatText provider true skip input).output
    terminated (terminatedLines output) = output ∧
      List.Forall₂ (fun line stack => stack.Finite → ReadsBack env floatText line stack)
        (terminatedLines output)
        (answeredStacks env provider true { stack := .init skip } (terminatedLines input)) := by
  intro output
  let answers := answeredStacks env provider true { stack := .init skip } (terminatedLines input)
  let texts := (answers.map (document env)).map (Zig.Json.render floatText)
  have printed : output = terminated texts := mainLoop_documents floatText (terminatedLines input) _
  have whole : ∀ text ∈ texts, Nmea.lineFeed ∉ text := by
    intro text listed
    obtain ⟨doc, _, rfl⟩ := List.mem_map.mp listed
    exact lineFeed_notMem_of_printable (Zig.Json.render_printable floats doc)
  have split_ : terminatedLines output = texts := by
    rw [printed, terminatedLines_terminated texts whole]
  have fits : ∀ stack ∈ answers, Zig.i64.Has stack.requestId :=
    answeredStacks_fit _ (WatershedStack.init_holds skip)
  rw [split_]
  refine ⟨printed.symm, ?_⟩
  simp only [texts, List.map_map, List.forall₂_map_left_iff]
  exact List.forall₂_same.mpr fun stack listed finite =>
    document_readsBack numbers finite (fits stack listed)

end Runs

theorem wholeText_isNumber (x : F64) (finite : x.isFinite) : Json.IsNumber (wholeText x) := by
  have exponent : Zig.ascii "e0" = 101 :: Zig.Json.natText 0 := by decide
  cases x with
  | finite value =>
    show Json.IsNumber (Zig.Json.intText value.num ++ Zig.ascii "e0")
    rw [exponent]
    exact Json.isNumber_exponent value.num 0
  | nan => cases finite
  | negInf => cases finite
  | posInf => cases finite

theorem main_readable_squares :
    let output := (main (squareWorld 6) wholeText .stdin true true (terminated twoRequests)).output
    terminated (terminatedLines output) = output ∧
      List.Forall₂ (fun line stack => stack.Finite →
          ReadsBack (squareWorld 6) wholeText line stack)
        (terminatedLines output)
        (answeredStacks (squareWorld 6) .stdin true { stack := .init true }
          (terminatedLines (terminated twoRequests))) :=
  main_readable (squareWorld 6) wholeText .stdin wholeText_printable wholeText_isNumber true _

end WatershedOracle
