import WatershedOracle.Library.ZigJson

set_option autoImplicit false

/-! What the writer of std.json writes for an integer or a plain string, its scanner
reads back. -/

namespace Zig.Json

/-! ### Integers -/

section Integers

variable {type : IntType} {negative : Bool}

theorem parseDigits_append (base : Nat) (first second : Bytes) (x : Int) :
    parseDigits type base negative (first ++ second) x =
      (parseDigits type base negative first x).bind (parseDigits type base negative second) := by
  induction first generalizing x with
  | nil => rfl
  | cons c rest ih =>
    rw [List.cons_append, parseDigits, parseDigits]
    split
    · exact ih x
    split
    · rfl
    · rename_i digit _
      dsimp only
      generalize (if negative = true then x * (base : Int) - digit else x * base + digit) = next
      split
      · exact ih next
      · rfl

/-- A number with its sign. -/
def signed (negative : Bool) (n : Nat) : Int := if negative then -n else n

def digitByte (d : Nat) : UInt8 := UInt8.ofNat (48 + d)

theorem digitChar_toUInt8 : ∀ d < 10, (Nat.digitChar d).toUInt8 = digitByte d := by decide

theorem charToDigit_digitByte : ∀ d < 10, charToDigit (digitByte d) 10 = some d := by decide

theorem isDigit_digitByte : ∀ d < 10, isDigit (digitByte d) = true := by decide

theorem digitByte_ne_underscore : ∀ d < 10, digitByte d ≠ underscore := by decide

theorem digitByte_ne_zero : ∀ d < 10, d ≠ 0 → digitByte d ≠ 48 := by decide

theorem natText_of_lt {n : Nat} (small : n < 10) : natText n = [digitByte n] := by
  rw [natText, Nat.toDigits_of_lt_base small, List.map_singleton, digitChar_toUInt8 n small]

theorem natText_of_le {n : Nat} (large : 10 ≤ n) :
    natText n = natText (n / 10) ++ [digitByte (n % 10)] := by
  rw [natText, Nat.toDigits_of_base_le (by decide) large, List.map_append, List.map_singleton,
    digitChar_toUInt8 _ (Nat.mod_lt n (by decide))]
  rfl

theorem parseDigits_digit {x : Int} {d : Nat} (small : d < 10)
    (scaled : type.Has (x * 10)) (next : type.Has (x * 10 + signed negative d)) :
    parseDigits type 10 negative [digitByte d] x = .ok (x * 10 + signed negative d) := by
  rw [parseDigits, if_neg (digitByte_ne_underscore d small), charToDigit_digitByte d small]
  cases negative with
  | false =>
    have inside : type.Has (x * 10 + d) := next
    simp [parseDigits, signed, scaled, inside]
  | true =>
    have inside : type.Has (x * 10 - d) := next
    rw [Int.sub_eq_add_neg] at inside
    simp [parseDigits, signed, scaled, inside, Int.sub_eq_add_neg]

/-- The digits of a number are read as the number. -/
theorem parseDigits_natText (n : Nat) (zero : type.Has 0) (fits : type.Has (signed negative n)) :
    parseDigits type 10 negative (natText n) 0 = .ok (signed negative n) := by
  have between : ∀ k : Nat, k ≤ n → type.Has (signed negative k) := by
    intro k small
    unfold IntType.Has signed at *
    cases negative <;> simp only [Bool.false_eq_true, ↓reduceIte] at * <;> omega
  induction n using Nat.strongRecOn with
  | ind n ih =>
    by_cases small : n < 10
    · rw [natText_of_lt small]
      have next : type.Has (0 * 10 + signed negative n) := by simpa using fits
      simpa using parseDigits_digit small (by simpa using zero) next
    · have large : 10 ≤ n := Nat.le_of_not_lt small
      have shorter : n / 10 < n := Nat.div_lt_self (by omega) (by decide)
      have whole : signed negative (n / 10) * 10 + signed negative (n % 10) = signed negative n := by
        unfold signed
        cases negative <;> simp only [Bool.false_eq_true, ↓reduceIte] <;> omega
      have scaled : type.Has (signed negative (n / 10) * 10) := by
        have tens := between (n / 10 * 10) (by omega)
        have same : signed negative (n / 10 * 10) = signed negative (n / 10) * 10 := by
          unfold signed
          cases negative <;> simp
        rwa [same] at tens
      have front := ih (n / 10) shorter (between _ (by omega)) fun k le => between k (by omega)
      rw [natText_of_le large, parseDigits_append, front]
      exact whole ▸ parseDigits_digit (Nat.mod_lt n (by decide)) scaled (whole.symm ▸ fits)

theorem natText_digits (n : Nat) : ∀ byte ∈ natText n, isDigit byte = true := by
  induction n using Nat.strongRecOn with
  | ind n ih =>
    by_cases small : n < 10
    · rw [natText_of_lt small]
      simpa using isDigit_digitByte n small
    · have large : 10 ≤ n := Nat.le_of_not_lt small
      rw [natText_of_le large]
      intro byte member
      rcases List.mem_append.mp member with front | last
      · exact ih _ (Nat.div_lt_self (by omega) (by decide)) byte front
      · obtain rfl := List.mem_singleton.mp last
        exact isDigit_digitByte _ (Nat.mod_lt n (by decide))

/-- The first digit; a zero only where the number is zero. -/
theorem natText_cons (n : Nat) :
    ∃ c rest, natText n = c :: rest ∧ isDigit c = true ∧ (c = 48 → rest = [] ∧ n = 0) := by
  induction n using Nat.strongRecOn with
  | ind n ih =>
    by_cases small : n < 10
    · refine ⟨digitByte n, [], natText_of_lt small, isDigit_digitByte n small, fun zero => ⟨rfl, ?_⟩⟩
      by_contra other
      exact digitByte_ne_zero n small other zero
    · have large : 10 ≤ n := Nat.le_of_not_lt small
      obtain ⟨c, rest, front, digit, zero⟩ := ih (n / 10) (Nat.div_lt_self (by omega) (by decide))
      refine ⟨c, rest ++ [digitByte (n % 10)], ?_, digit, fun isZero => ?_⟩
      · rw [natText_of_le large, front, List.cons_append]
      · have none_ := (zero isZero).2
        omega

theorem digit_plain : ∀ {c : UInt8}, isDigit c = true → c ≠ 43 ∧ c ≠ 45 ∧ c ≠ underscore := by
  intro c digit
  refine ⟨?_, ?_, ?_⟩ <;> rintro rfl <;> exact absurd digit (by decide)

theorem parseWithSign_natText (n : Nat) (zero : type.Has 0) (fits : type.Has (signed negative n)) :
    parseWithSign type 10 negative (natText n) = .ok (signed negative n) := by
  have digits := natText_digits n
  have plain : ∀ {c : UInt8}, c ∈ natText n → c ≠ underscore := fun member =>
    (digit_plain (digits _ member)).2.2
  obtain ⟨c, rest, shape, _, _⟩ := natText_cons n
  have head : (natText n).head? ≠ some underscore := fun same =>
    plain (List.mem_of_head? same) rfl
  have last : (natText n).getLast? ≠ some underscore := fun same =>
    plain (List.mem_of_getLast? same) rfl
  have occupied : natText n ≠ [] := by simp [shape]
  rw [parseWithSign, if_neg (by simp [head, last, occupied]), parseDigits_natText n zero fits]

/-- What intText writes, parseInt reads. -/
theorem parseInt_intText (n : Int) (zero : type.Has 0) (fits : type.Has n) :
    parseInt type (intText n) 10 = .ok n := by
  unfold intText
  split
  · rename_i negative
    have value : signed true n.natAbs = n := by
      simp only [signed, ↓reduceIte]
      omega
    rw [parseInt, parseWithSign_natText n.natAbs zero (value.symm ▸ fits), value]
  · rename_i positive
    have value : signed false n.natAbs = n := by
      simp only [signed, Bool.false_eq_true, ↓reduceIte]
      omega
    have read := parseWithSign_natText n.natAbs zero (value.symm ▸ fits)
    obtain ⟨c, rest, shape, digit, _⟩ := natText_cons n.natAbs
    obtain ⟨notPlus, notMinus, _⟩ := digit_plain digit
    rw [shape, value] at read
    rw [shape]
    unfold parseInt
    split
    · rename_i same
      exact absurd (List.cons.inj same).1 notPlus
    · rename_i same
      exact absurd (List.cons.inj same).1 notMinus
    · exact read

/-- A byte that ends a number token. -/
def EndsNumber (c : UInt8) : Prop := isDigit c = false ∧ c ≠ 46 ∧ c ≠ 101 ∧ c ≠ 69

theorem scanWhole_natText (n : Nat) {c : UInt8} (ends : EndsNumber c) (rest : Bytes) :
    scanWhole (natText n ++ c :: rest) = .ok (natText n, c :: rest) := by
  obtain ⟨first, others, shape, digit, zero⟩ := natText_cons n
  have digits := natText_digits n
  by_cases isZero : first = 48
  · obtain ⟨rfl, _⟩ := zero isZero
    rw [shape, isZero]
    rfl
  · have taken : (natText n ++ c :: rest).takeWhile isDigit = natText n := by
      rw [List.takeWhile_append_of_pos digits, List.takeWhile_cons_of_neg (by simp [ends.1]),
        List.append_nil]
    have dropped : (natText n ++ c :: rest).dropWhile isDigit = c :: rest := by
      rw [List.dropWhile_append_of_pos digits, List.dropWhile_cons_of_neg (by simp [ends.1])]
    rw [shape, List.cons_append] at taken dropped ⊢
    unfold scanWhole
    split
    · rename_i same
      exact absurd (List.cons.inj same).1 isZero
    · simp only [scanDigits1, digit, ↓reduceIte, taken, dropped]

theorem numberToken_intText (n : Int) {c : UInt8} (ends : EndsNumber c) (rest : Bytes) :
    numberToken (intText n ++ c :: rest) = .ok (intText n, c :: rest) := by
  have whole := scanWhole_natText n.natAbs ends rest
  obtain ⟨notDigit, notDot, notE, notE'⟩ := ends
  have fraction : scanFraction (c :: rest) = .ok ([], c :: rest) := by
    unfold scanFraction
    split
    · rename_i same
      exact absurd (List.cons.inj same).1 notDot
    · rfl
  have exponent : scanExponentPart (c :: rest) = .ok ([], c :: rest) := by
    simp only [scanExponentPart, notE, notE', or_self, ↓reduceIte]
  unfold intText
  split
  · simp [numberToken, whole, fraction, exponent, Bind.bind, Except.bind, pure, Except.pure]
  · obtain ⟨first, others, shape, digit, _⟩ := natText_cons n.natAbs
    have notMinus := (digit_plain digit).2.1
    rw [shape] at whole ⊢
    rw [List.cons_append] at whole ⊢
    unfold numberToken
    split
    rename_i parts
    split at parts
    · rename_i same
      exact absurd (List.cons.inj same).1 notMinus
    · cases parts
      simp [whole, fraction, exponent, Bind.bind, Except.bind, pure, Except.pure]

theorem intText_starts (n : Int) :
    ∃ c rest, intText n = c :: rest ∧ (c = 45 ∨ isDigit c = true) := by
  unfold intText
  split
  · exact ⟨_, _, rfl, .inl rfl⟩
  · obtain ⟨c, rest, shape, digit, _⟩ := natText_cons n.natAbs
    exact ⟨c, rest, shape, .inr digit⟩

/-- What intText writes is one number token. -/
theorem scalarToken_intText (n : Int) {c : UInt8} (ends : EndsNumber c) (rest : Bytes) :
    scalarToken (intText n ++ c :: rest) = .ok (intText n, c :: rest) := by
  have token := numberToken_intText n ends rest
  obtain ⟨first, others, shape, starts⟩ := intText_starts n
  have front : intText n ++ c :: rest = first :: (others ++ c :: rest) := by
    rw [shape, List.cons_append]
  rw [front] at token ⊢
  unfold scalarToken
  split
  · rename_i same
    cases same
  · rename_i same
    obtain rfl := (List.cons.inj same).1
    exact absurd starts (by decide)
  · rename_i same
    cases same
    rw [if_pos starts, token]

end Integers

/-! ### Strings -/

/-- A string without an escape. -/
def Plain (text : Bytes) : Prop := ∀ byte ∈ text, byte ≠ 34 ∧ byte ≠ 92 ∧ ¬ byte < 32

instance (text : Bytes) : Decidable (Plain text) :=
  List.decidableBAll (fun byte => byte ≠ 34 ∧ byte ≠ 92 ∧ ¬ byte < 32) text

theorem scanString_plain {text : Bytes} (plain : Plain text) (rest : Bytes) {fuel : Nat}
    (enough : text.length < fuel) : scanString fuel (text ++ 34 :: rest) = .ok (text, rest) := by
  induction text generalizing fuel with
  | nil =>
    obtain ⟨fuel, rfl⟩ := Nat.exists_eq_succ_of_ne_zero (Nat.ne_of_gt enough)
    rfl
  | cons c text ih =>
    obtain ⟨⟨notQuote, notBackslash, printable⟩, others⟩ := List.forall_mem_cons.mp plain
    obtain ⟨fuel, rfl⟩ := Nat.exists_eq_succ_of_ne_zero (Nat.ne_of_gt (Nat.zero_lt_of_lt enough))
    have later := ih others (Nat.lt_of_succ_lt_succ enough)
    rw [List.cons_append, scanString, if_neg notQuote, if_neg notBackslash, if_neg printable, later]
    rfl

theorem stringToken_plain {text : Bytes} (plain : Plain text)
    (utf8 : (ByteArray.mk text.toArray).validateUTF8 = true) (rest : Bytes) :
    stringToken (text ++ 34 :: rest) = .ok (text, rest) := by
  have scanned := scanString_plain plain rest
    (show text.length < (text ++ 34 :: rest).length + 1 by
      rw [List.length_append]
      omega)
  rw [stringToken, scanned]
  exact if_pos utf8

end Zig.Json
