import Mathlib.Data.List.Nodup
import WatershedOracle.Library.Json
import WatershedOracle.MalformedLines

set_option autoImplicit false

/-! The request lines as a format: which byte strings std.json takes for a request, and
which request they are, told by the object that a reader of JSON finds in them. A run
over request lines then depends on these objects only. -/

namespace WatershedOracle

open Effect
open Zig.Json (skipWhitespace stringToken scalarToken numberToken expect)

/-! ### Objects that are requests -/

def PointField.name : PointField → Bytes
  | .requestId => Zig.ascii "requestId"
  | .longitude => Zig.ascii "longitude"
  | .latitude => Zig.ascii "latitude"

/-- The text of a number or a string. -/
def scalarText : Json.Value → Option Bytes
  | .number text => some text
  | .string text => some text
  | _ => none

/-- The object has the two coordinates and at most an id beside them, in any order. -/
structure Describes (members : List (Bytes × Json.Value)) (request : PointJson) : Prop where
  known : ∀ member ∈ members, ∃ field : PointField, member.1 = field.name
  distinct : (members.map Prod.fst).Nodup
  requestId : (∃ v text, (PointField.requestId.name, v) ∈ members ∧ scalarText v = some text ∧
      sliceToInt text = .ok request.requestId) ∨
    (∀ v, (PointField.requestId.name, v) ∉ members) ∧ request.requestId = 0
  longitude : ∃ v text literal, (PointField.longitude.name, v) ∈ members ∧
    scalarText v = some text ∧ Zig.parseFloat text = .ok literal ∧
    request.longitude = F64.ofLiteral .f64 literal
  latitude : ∃ v text literal, (PointField.latitude.name, v) ∈ members ∧
    scalarText v = some text ∧ Zig.parseFloat text = .ok literal ∧
    request.latitude = F64.ofLiteral .f64 literal

theorem PointField.ofName_iff (name : Bytes) (field : PointField) :
    PointField.ofName name = some field ↔ name = field.name := by
  unfold PointField.ofName
  constructor
  · intro found
    split at found
    · cases found
      assumption
    · split at found
      · cases found
        assumption
      · split at found
        · cases found
          assumption
        · cases found
  · rintro rfl
    cases field <;> decide

theorem PointField.name_injective {a b : PointField} (same : a.name = b.name) : a = b := by
  have found := (PointField.ofName_iff a.name a).mpr rfl
  rw [same, (PointField.ofName_iff b.name b).mpr rfl] at found
  exact (Option.some.inj found).symm

/-! ### One value and one member -/

theorem scalarText_word {s rest : Bytes} {v : Json.Value} (read : Json.word s = some (v, rest)) :
    scalarText v = none := by
  unfold Json.word at read
  split_ifs at read
  all_goals cases read
  all_goals rfl

theorem scalarToken_plain {c : UInt8} (notQuote : c ≠ 34) (others : Bytes) :
    scalarToken (c :: others) = if c = 45 ∨ Zig.Json.isDigit c = true then numberToken (c :: others)
      else .error (if c = 123 ∨ c = 91 ∨ Zig.ascii "rue" <+: others ∧ c = 116 ∨
        Zig.ascii "alse" <+: others ∧ c = 102 ∨ Zig.ascii "ull" <+: others ∧ c = 110
        then .UnexpectedToken else .SyntaxError) := by
  unfold scalarToken
  split
  · rename_i same
    cases same
  · rename_i same
    exact absurd (List.cons.inj same).1 notQuote
  · rename_i same
    cases same
    split
    · rfl
    · split <;> split <;> simp_all

/-- A scalar is a token of std.json and a value of JSON at once. -/
theorem scalarToken_iff (depth : Nat) (s text rest : Bytes) :
    scalarToken (skipWhitespace s) = .ok (text, rest) ↔
      ∃ v, Json.value (depth + 1) s = some (v, rest) ∧ scalarText v = some text := by
  rw [Json.value]
  cases skipWhitespace s with
  | nil => simp [scalarToken]
  | cons c others =>
    dsimp only
    by_cases quote : c = 34
    · subst quote
      rw [if_pos rfl]
      show stringToken others = _ ↔ _
      cases stringToken others with
      | error e => simp [Except.toOption]
      | ok token =>
        obtain ⟨text', rest'⟩ := token
        constructor
        · intro same
          cases same
          exact ⟨_, rfl, rfl⟩
        · rintro ⟨v, same, isText⟩
          cases same
          cases isText
          rfl
    · rw [if_neg quote, scalarToken_plain quote]
      by_cases front : c = 45 ∨ Zig.Json.isDigit c = true
      · obtain ⟨_, _, _, _, notOpen, notOpen'⟩ := Json.number_front front
        rw [if_pos front, if_neg notOpen, if_neg notOpen', if_pos front]
        cases numberToken (c :: others) with
        | error e => simp [Except.toOption]
        | ok token =>
          obtain ⟨text', rest'⟩ := token
          constructor
          · intro same
            cases same
            exact ⟨_, rfl, rfl⟩
          · rintro ⟨v, same, isText⟩
            cases same
            cases isText
            rfl
      · rw [if_neg front]
        constructor
        · intro absurd_
          cases absurd_
        · rintro ⟨v, read, isText⟩
          exfalso
          split at read
          · obtain ⟨_, _, same⟩ := Option.map_eq_some_iff.mp read
            cases same
            cases isText
          · split at read
            · obtain ⟨_, _, same⟩ := Option.map_eq_some_iff.mp read
              cases same
              cases isText
            · rw [scalarText_word read] at isText
              cases isText

/-- What parseMember does once it has the name. -/
def afterName (fields : PointFields) (name s : Bytes) : Except ZigError (PointFields × Bytes) :=
  match PointField.ofName name with
  | none => throw .UnknownField
  | some field =>
      if fields.seen field then throw .DuplicateField
      else do
        let rest ← (expect 58 s).mapError ofScanError
        let (slice, rest) ← (scalarToken (skipWhitespace rest)).mapError ofScanError
        let fields ← fields.set field slice
        pure (fields, rest)

theorem parseMember_quote (fields : PointFields) {s others : Bytes}
    (front : skipWhitespace s = 34 :: others) :
    parseMember fields s = (stringToken others).mapError ofScanError >>= fun token =>
      afterName fields token.1 token.2 := by
  unfold parseMember
  rw [front]
  rfl

theorem parseMember_other (fields : PointFields) {s : Bytes}
    (front : ∀ others, skipWhitespace s ≠ 34 :: others) (read : PointFields × Bytes) :
    parseMember fields s ≠ .ok read := by
  unfold parseMember
  split
  · exact nofun
  · rename_i same
    exact absurd same (front _)
  · exact nofun

theorem afterName_iff (depth : Nat) (fields fields' : PointFields) (name s rest : Bytes) :
    afterName fields name s = .ok (fields', rest) ↔
      ∃ field after v text, name = field.name ∧ fields.seen field = false ∧
        expect 58 s = .ok after ∧ Json.value (depth + 1) after = some (v, rest) ∧
        scalarText v = some text ∧ fields.set field text = .ok fields' := by
  unfold afterName
  constructor
  · intro parsed
    cases found : PointField.ofName name with
    | none =>
      rw [found] at parsed
      cases parsed
    | some field =>
      rw [found] at parsed
      dsimp only at parsed
      by_cases seen : fields.seen field = true
      · rw [if_pos seen] at parsed
        cases parsed
      rw [if_neg seen] at parsed
      cases colon : expect 58 s with
      | error e =>
        rw [colon] at parsed
        cases parsed
      | ok after =>
        rw [colon] at parsed
        cases token : scalarToken (skipWhitespace after) with
        | error e =>
          simp [token, Except.mapError, Bind.bind, Except.bind] at parsed
        | ok read =>
          obtain ⟨text, rest'⟩ := read
          cases set : fields.set field text with
          | error e => simp [token, set, Except.mapError, Bind.bind, Except.bind] at parsed
          | ok filled =>
            simp only [token, set, Except.mapError, Bind.bind, Except.bind, pure, Except.pure,
              Except.ok.injEq, Prod.mk.injEq] at parsed
            obtain ⟨rfl, rfl⟩ := parsed
            obtain ⟨v, read, isText⟩ := (scalarToken_iff depth after text rest').mp token
            exact ⟨field, after, v, text, (PointField.ofName_iff name field).mp found,
              by simpa using seen, rfl, read, isText, set⟩
  · rintro ⟨field, after, v, text, rfl, unseen, colon, read, isText, set⟩
    have token := (scalarToken_iff depth after text rest).mpr ⟨v, read, isText⟩
    simp [(PointField.ofName_iff _ field).mpr rfl, unseen, colon, token, set, Except.mapError,
      Bind.bind, Except.bind, pure, Except.pure]

/-- What std.json accepts of a member, as a member of JSON. -/
theorem parseMember_iff (depth : Nat) (fields fields' : PointFields) (s rest : Bytes) :
    parseMember fields s = .ok (fields', rest) ↔
      ∃ field v text, Json.member (Json.value (depth + 1)) s = some ((field.name, v), rest) ∧
        fields.seen field = false ∧ scalarText v = some text ∧
        fields.set field text = .ok fields' := by
  unfold Json.member
  cases front : skipWhitespace s with
  | nil =>
    have none_ := parseMember_other fields (s := s) (by simp [front]) (fields', rest)
    simp [none_]
  | cons c others =>
    dsimp only
    by_cases quote : c = 34
    · subst quote
      rw [parseMember_quote fields front, if_pos rfl]
      cases stringToken others with
      | error e => simp [Except.mapError, Bind.bind, Except.bind]
      | ok token =>
        obtain ⟨name, s'⟩ := token
        refine (afterName_iff depth fields fields' name s' rest).trans ?_
        constructor
        · rintro ⟨field, after, v, text, rfl, unseen, colon, read, isText, set⟩
          exact ⟨field, v, text, by simp [colon, read], unseen, isText, set⟩
        · rintro ⟨field, v, text, read, unseen, isText, set⟩
          cases colon : expect 58 s' with
          | error e => simp [colon] at read
          | ok after =>
            simp only [colon, Option.map_eq_some_iff] at read
            obtain ⟨⟨v', rest'⟩, read, same⟩ := read
            cases same
            exact ⟨field, after, _, text, rfl, unseen, rfl, read, isText, set⟩
    · have none_ := parseMember_other fields (s := s) (by simp [front, quote]) (fields', rest)
      simp [none_, quote]

/-! ### Filling the fields -/

/-- The field holds what the text says. -/
def PointFields.Takes (fields : PointFields) (text : Bytes) : PointField → Prop
  | .requestId => ∃ n, sliceToInt text = .ok n ∧ fields.requestId = some n
  | .longitude => ∃ literal, Zig.parseFloat text = .ok literal ∧
      fields.longitude = some (F64.ofLiteral .f64 literal)
  | .latitude => ∃ literal, Zig.parseFloat text = .ok literal ∧
      fields.latitude = some (F64.ofLiteral .f64 literal)

def PointFields.Same (fields fields' : PointFields) : PointField → Prop
  | .requestId => fields'.requestId = fields.requestId
  | .longitude => fields'.longitude = fields.longitude
  | .latitude => fields'.latitude = fields.latitude

theorem PointFields.ext_same {fields fields' : PointFields}
    (same : ∀ field, fields.Same fields' field) : fields' = fields := by
  cases fields
  cases fields'
  have id := same .requestId
  have longitude := same .longitude
  have latitude := same .latitude
  simp only [PointFields.Same] at id longitude latitude
  rw [id, longitude, latitude]

theorem PointFields.Same.trans {first second third : PointFields} {field : PointField}
    (one : first.Same second field) (two : second.Same third field) : first.Same third field := by
  cases field <;> exact Eq.trans two one

theorem PointFields.Same.symm {first second : PointFields} {field : PointField}
    (same : first.Same second field) : second.Same first field := by
  cases field <;> exact Eq.symm same

theorem PointFields.Same.seen {first second : PointFields} {field : PointField}
    (same : first.Same second field) : second.seen field = first.seen field := by
  cases field <;> exact congrArg Option.isSome same

theorem PointFields.Same.takes {first second : PointFields} {field : PointField} {text : Bytes}
    (same : first.Same second field) (takes : first.Takes text field) :
    second.Takes text field := by
  cases field <;> (obtain ⟨n, read, held⟩ := takes; exact ⟨n, read, Eq.trans same held⟩)

theorem PointFields.Takes.seen {fields : PointFields} {field : PointField} {text : Bytes}
    (takes : fields.Takes text field) : fields.seen field = true := by
  cases field <;> (obtain ⟨_, _, held⟩ := takes; simp [PointFields.seen, held])

/-- Two fields that hold what the same text says. -/
theorem PointFields.Takes.same {first second : PointFields} {field : PointField} {text : Bytes}
    (takes : first.Takes text field) (takes' : second.Takes text field) :
    first.Same second field := by
  cases field <;>
  · obtain ⟨n, read, held⟩ := takes
    obtain ⟨n', read', held'⟩ := takes'
    cases read.symm.trans read'
    exact held'.trans held.symm

/-- Setting a field reads its text and keeps the other fields. -/
theorem PointFields.set_iff (fields fields' : PointFields) (field : PointField) (text : Bytes) :
    fields.set field text = .ok fields' ↔
      fields'.Takes text field ∧ ∀ other, other ≠ field → fields.Same fields' other := by
  have others : ∀ made : PointFields, made.Takes text field →
      (∀ other, other ≠ field → fields.Same made other) →
      (made = fields' ↔
        fields'.Takes text field ∧ ∀ other, other ≠ field → fields.Same fields' other) := by
    intro made takes kept
    constructor
    · rintro rfl
      exact ⟨takes, kept⟩
    · rintro ⟨takes', kept'⟩
      apply PointFields.ext_same
      intro other
      by_cases own : other = field
      · exact own ▸ takes'.same takes
      · exact (kept' other own).symm.trans (kept other own)
  cases field with
  | requestId =>
    cases read : sliceToInt text with
    | error e => simp [PointFields.set, PointFields.Takes, read, Bind.bind, Except.bind]
    | ok n =>
      have made := others { fields with requestId := some n } ⟨n, read, rfl⟩
        (fun other own => by cases other <;> first | exact absurd rfl own | rfl)
      rw [← made]
      simp [PointFields.set, read, Bind.bind, Except.bind, pure, Except.pure]
  | longitude =>
    cases read : Zig.parseFloat text with
    | error e =>
      simp [PointFields.set, PointFields.Takes, read, Bind.bind, Except.bind, Except.mapError]
    | ok literal =>
      have made := others { fields with longitude := some (F64.ofLiteral .f64 literal) }
        ⟨literal, read, rfl⟩
        (fun other own => by cases other <;> first | exact absurd rfl own | rfl)
      rw [← made]
      simp [PointFields.set, read, Bind.bind, Except.bind, Except.mapError, pure, Except.pure]
  | latitude =>
    cases read : Zig.parseFloat text with
    | error e =>
      simp [PointFields.set, PointFields.Takes, read, Bind.bind, Except.bind, Except.mapError]
    | ok literal =>
      have made := others { fields with latitude := some (F64.ofLiteral .f64 literal) }
        ⟨literal, read, rfl⟩
        (fun other own => by cases other <;> first | exact absurd rfl own | rfl)
      rw [← made]
      simp [PointFields.set, read, Bind.bind, Except.bind, Except.mapError, pure, Except.pure]

theorem PointFields.Takes.set {fields' : PointFields} {field : PointField} {text : Bytes}
    (takes : fields'.Takes text field) (fields : PointFields) :
    ∃ next, fields.set field text = .ok next := by
  cases field <;>
  · obtain ⟨n, read, _⟩ := takes
    exact ⟨_, by rw [PointFields.set, read]; rfl⟩

/-- The members take the one record to the other. -/
structure Filled (fields : PointFields) (members : List (Bytes × Json.Value))
    (fields' : PointFields) : Prop where
  known : ∀ member ∈ members, ∃ field : PointField, member.1 = field.name ∧
    fields.seen field = false
  distinct : (members.map Prod.fst).Nodup
  taken : ∀ (field : PointField) v, (field.name, v) ∈ members →
    ∃ text, scalarText v = some text ∧ fields'.Takes text field
  kept : ∀ field : PointField, (∀ v, (field.name, v) ∉ members) → fields.Same fields' field

theorem filled_nil (fields fields' : PointFields) :
    Filled fields [] fields' ↔ fields' = fields := by
  constructor
  · intro filled
    apply PointFields.ext_same
    intro field
    exact filled.kept field fun _ => List.not_mem_nil
  · rintro rfl
    exact ⟨by simp, by simp, by simp, fun field _ => by cases field <;> rfl⟩

/-- One member after the other. -/
theorem filled_cons (fields fields' : PointFields) (field : PointField) (v : Json.Value)
    (rest : List (Bytes × Json.Value)) :
    Filled fields ((field.name, v) :: rest) fields' ↔ fields.seen field = false ∧
      ∃ text next, scalarText v = some text ∧ fields.set field text = .ok next ∧
        Filled next rest fields' := by
  constructor
  · intro filled
    obtain ⟨first, others⟩ := List.forall_mem_cons.mp filled.known
    obtain ⟨field', same, unseen⟩ := first
    obtain rfl := PointField.name_injective same
    obtain ⟨text, isText, takes⟩ := filled.taken field v (List.mem_cons_self ..)
    obtain ⟨fresh, distinct⟩ := List.nodup_cons.mp filled.distinct
    have absent : ∀ v, (field.name, v) ∉ rest := by
      intro v' listed
      exact fresh (List.mem_map.mpr ⟨(field.name, v'), listed, rfl⟩)
    obtain ⟨next, set⟩ := takes.set fields
    obtain ⟨takes', kept⟩ := (PointFields.set_iff fields next field text).mp set
    refine ⟨unseen, text, next, isText, set, ?_, distinct, ?_, ?_⟩
    · intro member listed
      obtain ⟨other, name, unseen'⟩ := others member listed
      have own : other ≠ field := by
        rintro rfl
        exact absent member.2 (name ▸ listed)
      exact ⟨other, name, (kept other own).seen.trans unseen'⟩
    · exact fun other v listed => filled.taken other v (List.mem_cons_of_mem _ listed)
    · intro other missing
      by_cases own : other = field
      · subst own
        exact takes'.same takes
      · have skipped : ∀ v', (other.name, v') ∉ (field.name, v) :: rest := by
          intro v' listed
          rcases List.mem_cons.mp listed with same | later
          · exact own (PointField.name_injective (Prod.mk.inj same).1)
          · exact missing v' later
        exact (kept other own).symm.trans (filled.kept other skipped)
  · rintro ⟨unseen, text, next, isText, set, filled⟩
    obtain ⟨takes, kept⟩ := (PointFields.set_iff fields next field text).mp set
    have absent : ∀ v, (field.name, v) ∉ rest := by
      intro v listed
      obtain ⟨other, name, unseen'⟩ := filled.known _ listed
      obtain rfl := PointField.name_injective name
      rw [takes.seen] at unseen'
      cases unseen'
    refine ⟨?_, ?_, ?_, ?_⟩
    · refine List.forall_mem_cons.mpr ⟨⟨field, rfl, unseen⟩, fun member listed => ?_⟩
      obtain ⟨other, name, unseen'⟩ := filled.known member listed
      have own : other ≠ field := by
        rintro rfl
        exact absent member.2 (name ▸ listed)
      exact ⟨other, name, (kept other own).seen.symm.trans unseen'⟩
    · refine List.nodup_cons.mpr ⟨fun listed => ?_, filled.distinct⟩
      obtain ⟨⟨name, v'⟩, inside, rfl⟩ := List.mem_map.mp listed
      exact absent v' inside
    · intro other v' listed
      rcases List.mem_cons.mp listed with same | later
      · obtain ⟨name, rfl⟩ := Prod.mk.inj same
        obtain rfl := PointField.name_injective name
        exact ⟨text, isText, (filled.kept _ absent).takes takes⟩
      · exact filled.taken other v' later
    · intro other missing
      have own : other ≠ field := by
        rintro rfl
        exact missing v (List.mem_cons_self ..)
      exact (kept other own).trans
        (filled.kept other fun v' listed => missing v' (List.mem_cons_of_mem _ listed))

/-! ### All members -/

/-- The fields that are still to be filled. -/
def PointFields.room (fields : PointFields) : Nat :=
  (if fields.seen .requestId then 0 else 1) + (if fields.seen .longitude then 0 else 1) +
    (if fields.seen .latitude then 0 else 1)

/-- A field that is set leaves room for one less. -/
theorem PointFields.room_set {fields next : PointFields} {field : PointField} {text : Bytes}
    (unseen : fields.seen field = false) (set : fields.set field text = .ok next) :
    next.room + 1 = fields.room := by
  obtain ⟨takes, kept⟩ := (PointFields.set_iff fields next field text).mp set
  have seen := takes.seen
  have same : ∀ other, other ≠ field → next.seen other = fields.seen other :=
    fun other own => (kept other own).seen
  unfold PointFields.room
  cases field with
  | requestId =>
    rw [seen, unseen, same .longitude (by decide), same .latitude (by decide)]
    simp only [↓reduceIte, Bool.false_eq_true]
    omega
  | longitude =>
    rw [seen, unseen, same .requestId (by decide), same .latitude (by decide)]
    simp only [↓reduceIte, Bool.false_eq_true]
    omega
  | latitude =>
    rw [seen, unseen, same .requestId (by decide), same .longitude (by decide)]
    simp only [↓reduceIte, Bool.false_eq_true]

theorem parseMembers_iff (left : Nat) (fields fields' : PointFields) (s rest : Bytes) :
    parseMembers left fields s = .ok (fields', rest) ↔
      ∃ next after, parseMember fields s = .ok (next, after) ∧
        ((skipWhitespace after = 125 :: rest ∧ fields' = next) ∨
          ∃ more fewer, skipWhitespace after = 44 :: more ∧ left = fewer + 1 ∧
            parseMembers fewer next more = .ok (fields', rest)) := by
  rw [parseMembers]
  cases parsed : parseMember fields s with
  | error e => simp [Bind.bind, Except.bind]
  | ok found =>
    obtain ⟨next, after⟩ := found
    dsimp only [Bind.bind, Except.bind]
    constructor
    · intro parsed
      refine ⟨next, after, rfl, ?_⟩
      split at parsed
      · cases parsed
      · rename_i more front
        cases left with
        | zero => cases parsed
        | succ fewer => exact .inr ⟨more, fewer, front, rfl, parsed⟩
      · rename_i more front
        cases parsed
        exact .inl ⟨front, rfl⟩
      · cases parsed
    · rintro ⟨_, _, same, parsed⟩
      cases same
      rcases parsed with ⟨front, rfl⟩ | ⟨more, fewer, front, rfl, parsed⟩
      · rw [front]
        rfl
      · rw [front]
        exact parsed

theorem parseMembers_room {left : Nat} {fields fields' : PointFields} {s rest : Bytes}
    (parsed : parseMembers left fields s = .ok (fields', rest)) : 1 ≤ fields.room := by
  obtain ⟨next, after, one, _⟩ := (parseMembers_iff left fields fields' s rest).mp parsed
  obtain ⟨field, v, text, _, unseen, _, set⟩ := (parseMember_iff 0 fields next s after).mp one
  have less := PointFields.room_set unseen set
  omega

/-- The members that std.json accepts are the members of JSON that fill the fields. -/
theorem parseMembers_filled (depth left fuel : Nat) (fields fields' : PointFields)
    (s rest : Bytes) (counted : fields.room ≤ left + 1) (enough : fields.room ≤ fuel) :
    parseMembers left fields s = .ok (fields', rest) ↔
      ∃ members, Json.elements 125 (Json.member (Json.value (depth + 1))) fuel s =
        some (members, rest) ∧ Filled fields members fields' := by
  induction fuel generalizing left fields s with
  | zero =>
    constructor
    · intro parsed
      have room := parseMembers_room parsed
      omega
    · rintro ⟨members, reads, _⟩
      cases reads
  | succ fuel ih =>
    rw [parseMembers_iff]
    constructor
    · rintro ⟨next, after, one, parsed⟩
      obtain ⟨field, v, text, read, unseen, isText, set⟩ :=
        (parseMember_iff depth fields next s after).mp one
      have less := PointFields.room_set unseen set
      rcases parsed with ⟨ends, rfl⟩ | ⟨more, fewer, goesOn, rfl, later⟩
      · refine ⟨[(field.name, v)], ?_, ?_⟩
        · exact (Json.elements_succ_iff (by decide) fuel s rest _).mpr
            ⟨_, after, read, .inl ⟨ends, rfl⟩⟩
        · exact (filled_cons fields fields' field v []).mpr
            ⟨unseen, text, fields', isText, set, (filled_nil fields' fields').mpr rfl⟩
      · obtain ⟨others, reads, filled⟩ :=
          (ih fewer next more (by omega) (by omega)).mp later
        refine ⟨(field.name, v) :: others, ?_, ?_⟩
        · exact (Json.elements_succ_iff (by decide) fuel s rest _).mpr
            ⟨_, after, read, .inr ⟨more, others, goesOn, rfl, reads⟩⟩
        · exact (filled_cons fields fields' field v others).mpr
            ⟨unseen, text, next, isText, set, filled⟩
    · rintro ⟨members, reads, filled⟩
      obtain ⟨⟨name, v⟩, after, read, parsed⟩ :=
        (Json.elements_succ_iff (by decide) fuel s rest members).mp reads
      -- The first member sets its field, the others fill what that leaves.
      have first : ∀ others, Filled fields ((name, v) :: others) fields' →
          ∃ next, parseMember fields s = .ok (next, after) ∧ next.room + 1 = fields.room ∧
            Filled next others fields' := by
        intro others filled
        obtain ⟨field, rfl, _⟩ := filled.known (name, v) (List.mem_cons_self ..)
        obtain ⟨unseen, text, next, isText, set, later⟩ :=
          (filled_cons fields fields' field v others).mp filled
        exact ⟨next, (parseMember_iff depth fields next s after).mpr
          ⟨field, v, text, read, unseen, isText, set⟩, PointFields.room_set unseen set, later⟩
      rcases parsed with ⟨ends, rfl⟩ | ⟨more, others, goesOn, rfl, later⟩
      · obtain ⟨next, one, _, rest_⟩ := first [] filled
        exact ⟨next, after, one, .inl ⟨ends, (filled_nil next fields').mp rest_⟩⟩
      · obtain ⟨next, one, less, rest_⟩ := first others filled
        refine ⟨next, after, one, .inr ⟨more, left - 1, goesOn, ?_, ?_⟩⟩
        · have room := parseMembers_room
            ((ih left next more (by omega) (by omega)).mpr ⟨others, later, rest_⟩)
          omega
        · exact (ih (left - 1) next more (by omega) (by omega)).mpr ⟨others, later, rest_⟩

/-! ### The whole line -/

theorem fill_iff (fields : PointFields) (request : PointJson) :
    fields.fill = .ok request ↔ fields.longitude = some request.longitude ∧
      fields.latitude = some request.latitude ∧ fields.requestId.getD 0 = request.requestId := by
  obtain ⟨requestId, longitude, latitude⟩ := request
  unfold PointFields.fill
  cases fields.longitude with
  | none => simp
  | some x =>
    cases fields.latitude with
    | none => simp
    | some y =>
      simp only [Except.ok.injEq, PointJson.mk.injEq, Option.some.injEq]
      constructor
      · rintro ⟨id, first, second⟩
        exact ⟨first, second, id⟩
      · rintro ⟨first, second, id⟩
        exact ⟨id, first, second⟩

/-- A coordinate that is there after all has been read from a member. -/
theorem Filled.member_of_seen {members : List (Bytes × Json.Value)} {fields : PointFields}
    (filled : Filled {} members fields) {field : PointField} (seen : fields.seen field = true) :
    ∃ v text, (field.name, v) ∈ members ∧ scalarText v = some text ∧ fields.Takes text field := by
  by_cases present : ∃ v, (field.name, v) ∈ members
  · obtain ⟨v, listed⟩ := present
    obtain ⟨text, isText, takes⟩ := filled.taken field v listed
    exact ⟨v, text, listed, isText, takes⟩
  · have same := filled.kept field fun v listed => present ⟨v, listed⟩
    rw [same.seen] at seen
    cases field <;> cases seen

theorem Filled.describes {members : List (Bytes × Json.Value)} {fields : PointFields}
    {request : PointJson} (filled : Filled {} members fields)
    (fill : fields.fill = .ok request) : Describes members request := by
  obtain ⟨longitude, latitude, id⟩ := (fill_iff fields request).mp fill
  refine ⟨?_, filled.distinct, ?_, ?_, ?_⟩
  · intro member listed
    obtain ⟨field, name, _⟩ := filled.known member listed
    exact ⟨field, name⟩
  · by_cases seen : fields.seen .requestId = true
    · obtain ⟨v, text, listed, isText, n, read, held⟩ := filled.member_of_seen seen
      rw [held] at id
      exact .inl ⟨v, text, listed, isText, id ▸ read⟩
    · have missing : fields.requestId = none := by simpa [PointFields.seen] using seen
      rw [missing] at id
      refine .inr ⟨fun v listed => ?_, id.symm⟩
      obtain ⟨text, _, takes⟩ := filled.taken .requestId v listed
      exact seen takes.seen
  · have seen : fields.seen .longitude = true := by simp [PointFields.seen, longitude]
    obtain ⟨v, text, listed, isText, literal, read, held⟩ := filled.member_of_seen seen
    exact ⟨v, text, literal, listed, isText, read, Option.some.inj (longitude.symm.trans held)⟩
  · have seen : fields.seen .latitude = true := by simp [PointFields.seen, latitude]
    obtain ⟨v, text, listed, isText, literal, read, held⟩ := filled.member_of_seen seen
    exact ⟨v, text, literal, listed, isText, read, Option.some.inj (latitude.symm.trans held)⟩

/-- The record that an object which describes the request fills. -/
theorem Describes.filled {members : List (Bytes × Json.Value)} {request : PointJson}
    (describes : Describes members request) :
    ∃ fields, Filled {} members fields ∧ fields.fill = .ok request := by
  have only : ∀ {name v v'}, (name, v) ∈ members → (name, v') ∈ members → v = v' := by
    intro name v v' one two
    exact (Prod.mk.inj (List.inj_on_of_nodup_map describes.distinct one two rfl)).2
  obtain ⟨xv, xText, xLiteral, xListed, xIsText, xRead, x⟩ := describes.longitude
  obtain ⟨yv, yText, yLiteral, yListed, yIsText, yRead, y⟩ := describes.latitude
  -- The id is there or not; the coordinates are the same in both cases.
  have build : ∀ id : Option Int, id.getD 0 = request.requestId →
      (∀ v, (PointField.requestId.name, v) ∈ members → ∃ text, scalarText v = some text ∧
        ∃ n, sliceToInt text = .ok n ∧ id = some n) →
      ((∀ v, (PointField.requestId.name, v) ∉ members) → id = none) →
      ∃ fields, Filled {} members fields ∧ fields.fill = .ok request := by
    intro id held taken missing
    refine ⟨⟨id, some request.longitude, some request.latitude⟩, ⟨?_, describes.distinct, ?_, ?_⟩,
      (fill_iff _ _).mpr ⟨rfl, rfl, held⟩⟩
    · intro member listed
      obtain ⟨field, name⟩ := describes.known member listed
      exact ⟨field, name, by cases field <;> rfl⟩
    · intro field v listed
      cases field with
      | requestId => exact taken v listed
      | longitude =>
        obtain rfl := only listed xListed
        exact ⟨xText, xIsText, xLiteral, xRead, congrArg some x⟩
      | latitude =>
        obtain rfl := only listed yListed
        exact ⟨yText, yIsText, yLiteral, yRead, congrArg some y⟩
    · intro field absent
      cases field with
      | requestId => exact missing absent
      | longitude => exact absurd xListed (absent xv)
      | latitude => exact absurd yListed (absent yv)
  rcases describes.requestId with ⟨v, text, listed, isText, read⟩ | ⟨missing, zero⟩
  · apply build (some request.requestId) rfl
    · intro v' listed'
      obtain rfl := only listed' listed
      exact ⟨text, isText, request.requestId, read, rfl⟩
    · intro absent
      exact absurd listed (absent v)
  · apply build none zero.symm
    · intro v listed
      exact absurd listed (missing v)
    · intro _
      rfl

theorem member_front {depth : Nat} {s : Bytes} {read : (Bytes × Json.Value) × Bytes}
    (found : Json.member (Json.value depth) s = some read) :
    ∃ c others, skipWhitespace s = 34 :: c :: others := by
  unfold Json.member at found
  cases front : skipWhitespace s with
  | nil =>
    rw [front] at found
    cases found
  | cons first rest =>
    rw [front] at found
    dsimp only at found
    by_cases quote : first = 34
    · subst quote
      cases rest with
      | nil => cases found
      | cons c others => exact ⟨c, others, rfl⟩
    · rw [if_neg quote] at found
      cases found

/-- Between braces that hold something stand its elements. -/
theorem sequence_elements {depth : Nat} {inner : Bytes}
    (full : ∀ after, skipWhitespace inner ≠ 125 :: after) :
    Json.sequence 125 (Json.member (Json.value depth)) inner =
      Json.elements 125 (Json.member (Json.value depth)) (inner.length + 1) inner := by
  unfold Json.sequence
  cases front : skipWhitespace inner with
  | nil =>
    rw [Json.elements, Json.member, front]
  | cons c after =>
    have notClose : c ≠ 125 := fun same => full after (same ▸ front)
    exact if_neg notClose

/-- What parsePointJson reads after the opening brace. -/
def parseBody (inner : Bytes) : Except ZigError (PointFields × Bytes) :=
  match skipWhitespace inner with
  | 125 :: rest => pure ({}, rest)
  | _ => parseMembers 3 {} inner

theorem parseBody_empty {inner after : Bytes} (front : skipWhitespace inner = 125 :: after) :
    parseBody inner = .ok ({}, after) := by
  unfold parseBody
  rw [front]
  rfl

theorem parseBody_full {inner : Bytes} (full : ∀ after, skipWhitespace inner ≠ 125 :: after) :
    parseBody inner = parseMembers 3 {} inner := by
  unfold parseBody
  split
  · rename_i after front
    exact absurd front (full after)
  · rfl

/-- What stands between the braces, for std.json and for JSON. -/
theorem sequence_filled (depth : Nat) (inner rest : Bytes) (fields : PointFields) :
    parseBody inner = .ok (fields, rest) ↔
      ∃ members, Json.sequence 125 (Json.member (Json.value (depth + 1))) inner =
        some (members, rest) ∧ Filled {} members fields := by
  by_cases empty : ∃ after, skipWhitespace inner = 125 :: after
  · obtain ⟨after, front⟩ := empty
    rw [parseBody_empty front, Json.sequence, front]
    dsimp only
    rw [if_pos rfl]
    constructor
    · intro same
      cases same
      exact ⟨[], rfl, (filled_nil {} {}).mpr rfl⟩
    · rintro ⟨members, same, filled⟩
      cases same
      rw [(filled_nil {} fields).mp filled]
  · have full : ∀ after, skipWhitespace inner ≠ 125 :: after :=
      fun after front => empty ⟨after, front⟩
    rw [sequence_elements full]
    rw [parseBody_full full]
    -- A member takes two bytes at least, so that the bytes are fuel enough for three.
    have long : ∀ {read}, Json.member (Json.value (depth + 1)) inner = some read →
        3 ≤ inner.length + 1 := by
      intro read found
      obtain ⟨c, others, front⟩ := member_front found
      have shorter : (skipWhitespace inner).length ≤ inner.length :=
        (List.dropWhile_suffix _).length_le
      rw [front] at shorter
      simp only [List.length_cons] at shorter
      omega
    by_cases enough : 3 ≤ inner.length + 1
    · exact parseMembers_filled depth 3 (inner.length + 1) {} fields inner rest (by decide) enough
    · constructor
      · intro parsed
        obtain ⟨next, after, one, _⟩ := (parseMembers_iff 3 {} fields inner rest).mp parsed
        obtain ⟨field, v, text, read, _⟩ := (parseMember_iff depth {} next inner after).mp one
        exact absurd (long read) enough
      · rintro ⟨members, reads, _⟩
        obtain ⟨first, after, read, _⟩ :=
          (Json.elements_succ_iff (by decide) inner.length inner rest members).mp reads
        exact absurd (long read) enough

theorem parsePointJson_object {slice inner : Bytes}
    (front : skipWhitespace slice = 123 :: inner) :
    parsePointJson slice = (parseBody inner >>= fun read => do
      let point ← read.1.fill
      if skipWhitespace read.2 = [] then pure point else throw .SyntaxError) := by
  unfold parsePointJson
  rw [front]
  split
  · rename_i same
    cases same
  · rename_i same
    cases same
    split
    · rename_i rest empty
      rw [parseBody_empty empty]
      rfl
    · rename_i full
      rw [parseBody_full full]
  · rename_i other
    exact absurd rfl (other inner)

theorem parsePointJson_front {slice : Bytes} {request : PointJson}
    (parsed : parsePointJson slice = .ok request) :
    ∃ inner, skipWhitespace slice = 123 :: inner := by
  unfold parsePointJson at parsed
  split at parsed
  · cases parsed
  · rename_i inner front
    exact ⟨inner, front⟩
  · revert parsed
    cases (scalarToken _).mapError ofScanError with
    | error e => exact nofun
    | ok token => exact nofun

/-- A brace, the members, all that is needed, and nothing behind. -/
theorem parsePointJson_eq (slice : Bytes) (request : PointJson) :
    parsePointJson slice = .ok request ↔ ∃ inner fields rest, skipWhitespace slice = 123 :: inner ∧
      parseBody inner = .ok (fields, rest) ∧ fields.fill = .ok request ∧
        skipWhitespace rest = [] := by
  constructor
  · intro parsed
    obtain ⟨inner, front⟩ := parsePointJson_front parsed
    rw [parsePointJson_object front] at parsed
    cases body : parseBody inner with
    | error e =>
      rw [body] at parsed
      cases parsed
    | ok read =>
      obtain ⟨fields, rest⟩ := read
      rw [body] at parsed
      dsimp only [Bind.bind, Except.bind] at parsed
      cases fill : fields.fill with
      | error e =>
        rw [fill] at parsed
        cases parsed
      | ok point =>
        rw [fill] at parsed
        dsimp only at parsed
        by_cases ends : skipWhitespace rest = []
        · rw [if_pos ends] at parsed
          cases parsed
          exact ⟨inner, fields, rest, front, body, fill, ends⟩
        · rw [if_neg ends] at parsed
          cases parsed
  · rintro ⟨inner, fields, rest, front, body, fill, ends⟩
    rw [parsePointJson_object front, body]
    dsimp only [Bind.bind, Except.bind]
    rw [fill]
    exact if_pos ends

/-- std.json takes the lines that are such an object of JSON, in whatever order, spacing
and notation, and takes them for the request that the object describes. -/
theorem parsePointJson_iff (slice : Bytes) (request : PointJson) :
    parsePointJson slice = .ok request ↔
      ∃ members, Json.read slice = some (.object members) ∧ Describes members request := by
  -- The brace is a byte, so that the reader may go one level down.
  have deep : ∀ {inner}, skipWhitespace slice = 123 :: inner →
      ∃ depth, slice.length = depth + 1 := by
    intro inner front
    cases slice with
    | nil => cases front
    | cons c others => exact ⟨others.length, rfl⟩
  rw [parsePointJson_eq]
  constructor
  · rintro ⟨inner, fields, rest, front, body, fill, ends⟩
    obtain ⟨depth, long⟩ := deep front
    obtain ⟨members, inside, filled⟩ := (sequence_filled depth inner rest fields).mp body
    refine ⟨members, ?_, filled.describes fill⟩
    exact (Json.read_object_iff slice members).mpr
      ⟨inner, rest, front, by rw [long]; exact inside, ends⟩
  · rintro ⟨members, read, describes⟩
    obtain ⟨fields, filled, fill⟩ := describes.filled
    obtain ⟨inner, rest, front, inside, ends⟩ := (Json.read_object_iff slice members).mp read
    obtain ⟨depth, long⟩ := deep front
    rw [long] at inside
    have body := (sequence_filled depth inner rest fields).mpr ⟨members, inside, filled⟩
    exact ⟨inner, fields, rest, front, body, fill, ends⟩

/-! ### Runs over requests -/

/-- The line is an object of JSON that describes the request. -/
def Spells (line : Bytes) (request : PointJson) : Prop :=
  ∃ members, Json.read line = some (.object members) ∧ Describes members request

theorem readLine_spells {line : Bytes} {request : PointJson} (spells : Spells line request) :
    readLine .stdin true line = .ok (some request.asked) := by
  have parsed := (parsePointJson_iff line request).mpr spells
  simp [readLine, parsed, PointJson.asked]

theorem readLine_unspelled {line : Bytes} (unspelled : ∀ request, ¬ Spells line request) :
    ∃ e, RequestError e ∧ readLine .stdin true line = .error (.error e) := by
  cases parsed : parsePointJson line with
  | ok request => exact absurd ((parsePointJson_iff line request).mp parsed) (unspelled request)
  | error e => exact ⟨e, raises_parsePointJson line e parsed, by simp [readLine, parsed]⟩

section Runs

variable {γ : Type}

theorem Run.andThen_done (run : Run γ) : (run.andThen fun m => ⟨[], .ok (), m⟩) = run := by
  obtain ⟨output, result, machine⟩ := run
  cases result with
  | ok => simp [Run.andThen, Run.after]
  | error fault => rfl

variable (env : Externals γ) (floatText : FloatText)

/-- The requests answered one after the other, up to one that fails. -/
def serve : Machine γ → List PointJson → Run γ
  | m, [] => ⟨[], .ok (), m⟩
  | m, request :: others =>
      match (update env request.asked).run m with
      | .ok () m' => (serve m' others).after (answer env floatText true m'.stack)
      | .error (.error .pointNotInDataset) m' =>
          (serve m' others).after (answer env floatText true m'.stack)
      | .error fault m' => ⟨[], .error fault, m'⟩

variable {env floatText}

theorem serve_answer {m : Machine γ} {request : PointJson} (others : List PointJson)
    (clean : Clean ((update env request.asked).run m)) :
    serve env floatText m (request :: others) =
      (serve env floatText (endState ((update env request.asked).run m)) others).after
        (answer env floatText true (endState ((update env request.asked).run m)).stack) := by
  rw [serve]
  generalize (update env request.asked).run m = result at clean ⊢
  cases clean <;> rfl

theorem serve_fail {m m' : Machine γ} {request : PointJson} (others : List PointJson)
    {fault : Fault} (failed : (update env request.asked).run m = .error fault m')
    (ends : fault ≠ .error .pointNotInDataset) :
    serve env floatText m (request :: others) = ⟨[], .error fault, m'⟩ := by
  rw [serve]
  simp only [failed]

theorem mainLoop_spells {line : Bytes} {request : PointJson} (spells : Spells line request)
    {rest : List Bytes} {others : List PointJson} {next : Machine γ → Run γ}
    (later : ∀ m, mainLoop env floatText .stdin true m rest =
      (serve env floatText m others).andThen next) (m : Machine γ) :
    mainLoop env floatText .stdin true m (line :: rest) =
      (serve env floatText m (request :: others)).andThen next := by
  have read := readLine_spells spells
  by_cases clean : Clean ((update env request.asked).run m)
  · rw [mainLoop_answer rest read clean, serve_answer others clean, later, Run.after_andThen]
  · obtain ⟨fault, m', failed, ends⟩ := not_clean clean
    rw [mainLoop_fail rest read failed ends, serve_fail others failed ends]
    rfl

/-- The loop serves the requests that lines spell, whatever follows them. -/
theorem mainLoop_spelled {taken : List Bytes} {requests : List PointJson}
    (spelled : List.Forall₂ Spells taken requests) (rest : List Bytes) (m : Machine γ) :
    mainLoop env floatText .stdin true m (taken ++ rest) =
      (serve env floatText m requests).andThen fun m' =>
        mainLoop env floatText .stdin true m' rest := by
  induction spelled generalizing m with
  | nil => rfl
  | cons spells _ ih => exact mainLoop_spells spells ih m

/-- The lines up to the first one that spells no request. -/
theorem spelled_split (lines : List Bytes) :
    ∃ taken rest requests, lines = taken ++ rest ∧ List.Forall₂ Spells taken requests ∧
      (rest = [] ∨ ∃ bad others, rest = bad :: others ∧ ∀ request, ¬ Spells bad request) := by
  induction lines with
  | nil => exact ⟨[], [], [], rfl, .nil, .inl rfl⟩
  | cons line lines ih =>
    by_cases spells : ∃ request, Spells line request
    · obtain ⟨request, spells⟩ := spells
      obtain ⟨taken, rest, requests, same, spelled, stops⟩ := ih
      exact ⟨line :: taken, rest, request :: requests, congrArg (line :: ·) same,
        .cons spells spelled, stops⟩
    · exact ⟨[], line :: lines, [], rfl, .nil,
        .inr ⟨line, lines, rfl, fun request spelled => spells ⟨request, spelled⟩⟩⟩

variable (env floatText)

/-- The run is that of the requests its lines spell, up to the first line that spells
none: there it ends with an error of std.json. -/
theorem main_requests (skip : Bool) (input : Bytes) :
    ∃ taken rest requests, terminatedLines input = taken ++ rest ∧
      List.Forall₂ Spells taken requests ∧
      ((rest = [] ∧ main env floatText .stdin true skip input =
          serve env floatText { stack := .init skip } requests) ∨
        ∃ bad others e, rest = bad :: others ∧ (∀ request, ¬ Spells bad request) ∧
          RequestError e ∧ main env floatText .stdin true skip input =
            (serve env floatText { stack := .init skip } requests).andThen fun m =>
              ⟨[], .error (.error e), m⟩) := by
  obtain ⟨taken, rest, requests, same, spelled, stops⟩ := spelled_split (terminatedLines input)
  refine ⟨taken, rest, requests, same, spelled, ?_⟩
  unfold main
  rw [same, mainLoop_spelled spelled]
  rcases stops with rfl | ⟨bad, others, rfl, unspelled⟩
  · refine .inl ⟨rfl, ?_⟩
    simp only [mainLoop_nil]
    exact Run.andThen_done _
  · obtain ⟨e, own, read⟩ := readLine_unspelled unspelled
    refine .inr ⟨bad, others, e, rfl, unspelled, own, ?_⟩
    have rejected : ∀ m : Machine γ, mainLoop env floatText .stdin true m (bad :: others) =
        ⟨[], .error (.error e), m⟩ := by
      intro m
      apply mainLoop_reject others read
      intro same
      cases same
      exact noMorePoints_not_requestError own
    simp only [rejected]

end Runs

end WatershedOracle
