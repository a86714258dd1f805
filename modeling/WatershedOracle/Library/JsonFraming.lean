import WatershedOracle.Library.Json

set_option autoImplicit false

/-! What the reader has read stays when more text follows, but for a number at the very
end. So no beginning of a document is read before its last brace has come. -/

namespace Json

open Zig (Bytes)
open Zig.Json

section Longer

variable {α : Type}

/-- `second` reads what `first` read, when more follows. -/
def Closes (first second : Bytes → Option (α × Bytes)) : Prop :=
  ∀ s a rest, first s = some (a, rest) → ∀ more, second (s ++ more) = some (a, rest ++ more)

/-- The same where `first` left something. -/
def Extends (first second : Bytes → Option (α × Bytes)) : Prop :=
  ∀ s a rest, first s = some (a, rest) → rest ≠ [] →
    ∀ more, second (s ++ more) = some (a, rest ++ more)

theorem skipWhitespace_append {s rest : Bytes} {c : UInt8}
    (solid : skipWhitespace s = c :: rest) (more : Bytes) :
    skipWhitespace (s ++ more) = c :: (rest ++ more) := by
  unfold skipWhitespace at solid ⊢
  rw [List.dropWhile_append, solid]
  rfl

theorem scanHex4_append {s rest : Bytes} {n : Nat} (read : scanHex4 s = .ok (n, rest))
    (more : Bytes) : scanHex4 (s ++ more) = .ok (n, rest ++ more) := by
  unfold scanHex4 at read
  split at read
  · rename_i a b c d others
    simp only [List.cons_append]
    unfold scanHex4
    split at read <;> simp_all
  · cases read

theorem scanUnicodeEscape_append {s piece rest : Bytes}
    (read : scanUnicodeEscape s = .ok (piece, rest)) (more : Bytes) :
    scanUnicodeEscape (s ++ more) = .ok (piece, rest ++ more) := by
  unfold scanUnicodeEscape at read ⊢
  cases first : scanHex4 s with
  | error e =>
    rw [first] at read
    cases read
  | ok found =>
    obtain ⟨n, others⟩ := found
    rw [first] at read
    rw [scanHex4_append first more]
    simp only [Bind.bind, Except.bind] at read ⊢
    split_ifs at read ⊢ with high low
    · split at read
      · rename_i others
        simp only [List.cons_append]
        cases second : scanHex4 others with
        | error e =>
          rw [second] at read
          cases read
        | ok found =>
          obtain ⟨k, others⟩ := found
          rw [second] at read
          rw [scanHex4_append second more]
          dsimp only at read ⊢
          split_ifs at read ⊢
          simp only [pure, Except.pure, Except.ok.injEq, Prod.mk.injEq] at read ⊢
          exact ⟨read.1, by rw [read.2]⟩
      · cases read
      · cases read
      · cases read
    · simp only [pure, Except.pure, Except.ok.injEq, Prod.mk.injEq] at read ⊢
      exact ⟨read.1, by rw [read.2]⟩

theorem scanEscape_append {s piece rest : Bytes} (read : scanEscape s = .ok (piece, rest))
    (more : Bytes) : scanEscape (s ++ more) = .ok (piece, rest ++ more) := by
  cases s with
  | nil => cases read
  | cons c s =>
    rw [List.cons_append]
    unfold scanEscape at read ⊢
    dsimp only at read ⊢
    split_ifs at read ⊢
    all_goals first
      | exact scanUnicodeEscape_append read more
      | (cases read; rfl)

theorem scanString_append {s text rest : Bytes} {fuel fuel' : Nat} (enough : fuel ≤ fuel')
    (read : scanString fuel s = .ok (text, rest)) (more : Bytes) :
    scanString fuel' (s ++ more) = .ok (text, rest ++ more) := by
  induction fuel generalizing fuel' s text rest with
  | zero => cases read
  | succ fuel ih =>
    obtain ⟨fuel', rfl⟩ := Nat.exists_eq_succ_of_ne_zero
      (Nat.ne_of_gt (Nat.lt_of_lt_of_le (Nat.zero_lt_succ _) enough))
    have enough' := Nat.le_of_succ_le_succ enough
    cases s with
    | nil => cases read
    | cons c s =>
      rw [List.cons_append]
      unfold scanString at read ⊢
      split_ifs at read ⊢
      · cases read
        rfl
      · cases escape : scanEscape s with
        | error e =>
          rw [escape] at read
          cases read
        | ok found =>
          obtain ⟨piece, others⟩ := found
          rw [escape] at read
          rw [scanEscape_append escape more]
          simp only [Bind.bind, Except.bind] at read ⊢
          cases later : scanString fuel others with
          | error e =>
            rw [later] at read
            cases read
          | ok found =>
            obtain ⟨text', rest'⟩ := found
            rw [later] at read
            rw [ih enough' later]
            cases read
            rfl
      · simp only [Bind.bind, Except.bind] at read ⊢
        cases later : scanString fuel s with
        | error e =>
          rw [later] at read
          cases read
        | ok found =>
          obtain ⟨text', rest'⟩ := found
          rw [later] at read
          rw [ih enough' later]
          cases read
          rfl

theorem stringToken_append {s text rest : Bytes} (read : stringToken s = .ok (text, rest))
    (more : Bytes) : stringToken (s ++ more) = .ok (text, rest ++ more) := by
  unfold stringToken at read ⊢
  have enough : s.length + 1 ≤ (s ++ more).length + 1 := by
    rw [List.length_append]
    omega
  cases scanned : scanString (s.length + 1) s with
  | error e =>
    rw [scanned] at read
    cases read
  | ok found =>
    obtain ⟨text', rest'⟩ := found
    rw [scanned] at read
    rw [scanString_append enough scanned more]
    simp only [Bind.bind, Except.bind] at read ⊢
    split_ifs at read ⊢
    cases read
    rfl

/-- Digits are scanned to their end where something follows them. -/
theorem scanDigits1_append {s digits rest : Bytes} (read : scanDigits1 s = .ok (digits, rest))
    (left : rest ≠ []) (more : Bytes) :
    scanDigits1 (s ++ more) = .ok (digits, rest ++ more) := by
  cases s with
  | nil => cases read
  | cons c s =>
    unfold scanDigits1 at read
    dsimp only at read
    split_ifs at read with digit
    obtain ⟨rfl, rfl⟩ :
        (c :: s).takeWhile isDigit = digits ∧ (c :: s).dropWhile isDigit = rest := by
      simpa using read
    have taken : ((c :: s) ++ more).takeWhile isDigit = (c :: s).takeWhile isDigit := by
      rw [List.takeWhile_append, if_neg]
      intro same
      apply left
      have whole := List.takeWhile_append_dropWhile (p := isDigit) (l := c :: s)
      have lengths := congrArg List.length whole
      rw [List.length_append] at lengths
      exact List.length_eq_zero_iff.mp (by omega)
    have dropped : ((c :: s) ++ more).dropWhile isDigit = (c :: s).dropWhile isDigit ++ more := by
      rw [List.dropWhile_append, if_neg]
      simpa using left
    rw [List.cons_append] at taken dropped ⊢
    unfold scanDigits1
    dsimp only
    rw [if_pos digit, taken, dropped]

theorem scanWhole_append {s digits rest : Bytes} (read : scanWhole s = .ok (digits, rest))
    (left : rest ≠ []) (more : Bytes) :
    scanWhole (s ++ more) = .ok (digits, rest ++ more) := by
  unfold scanWhole at read
  split at read
  · cases read
    rfl
  · rename_i notZero
    have scanned := scanDigits1_append read left more
    cases s with
    | nil => cases read
    | cons c s =>
      rw [List.cons_append] at scanned ⊢
      unfold scanWhole
      split
      · rename_i same
        cases same
        exact absurd rfl (notZero s)
      · exact scanned

theorem scanFraction_append {s fraction rest : Bytes}
    (read : scanFraction s = .ok (fraction, rest)) (left : rest ≠ []) (more : Bytes) :
    scanFraction (s ++ more) = .ok (fraction, rest ++ more) := by
  unfold scanFraction at read
  split at read
  · rename_i others
    rw [List.cons_append, scanFraction]
    cases digits : scanDigits1 others with
    | error e =>
      rw [digits] at read
      cases read
    | ok found =>
      obtain ⟨text, rest'⟩ := found
      rw [digits] at read
      cases read
      rw [scanDigits1_append digits left more]
      rfl
  · rename_i notDot
    cases read
    cases s with
    | nil => exact absurd rfl left
    | cons c s =>
      rw [List.cons_append]
      unfold scanFraction
      split
      · rename_i same
        cases same
        exact absurd rfl (notDot s)
      · rfl

theorem signedDigits_append (change : Bytes → Bytes) {s text rest : Bytes}
    (read : (scanDigits1 s >>= fun found => pure (change found.1, found.2)) = .ok (text, rest))
    (left : rest ≠ []) (more : Bytes) :
    (scanDigits1 (s ++ more) >>= fun found => pure (change found.1, found.2)) =
      .ok (text, rest ++ more) := by
  cases scanned : scanDigits1 s with
  | error e =>
    rw [scanned] at read
    cases read
  | ok found =>
    obtain ⟨text', rest'⟩ := found
    rw [scanned] at read
    cases read
    rw [scanDigits1_append scanned left more]
    rfl

theorem scanExponentPart_append {s exponent rest : Bytes}
    (read : scanExponentPart s = .ok (exponent, rest)) (left : rest ≠ []) (more : Bytes) :
    scanExponentPart (s ++ more) = .ok (exponent, rest ++ more) := by
  cases s with
  | nil =>
    cases read
    exact absurd rfl left
  | cons c s =>
    rw [List.cons_append]
    unfold scanExponentPart at read ⊢
    dsimp only at read ⊢
    split_ifs at read ⊢ with letter
    · split at read
      · rename_i others
        rw [List.cons_append]
        exact signedDigits_append (fun digits => c :: 43 :: digits) read left more
      · rename_i others
        rw [List.cons_append]
        exact signedDigits_append (fun digits => c :: 45 :: digits) read left more
      · rename_i notPlus notMinus
        have scanned := signedDigits_append (fun digits => c :: digits) read left more
        cases s with
        | nil => cases read
        | cons first s =>
          rw [List.cons_append] at scanned ⊢
          split
          · rename_i same
            cases same
            exact absurd rfl (notPlus s)
          · rename_i same
            cases same
            exact absurd rfl (notMinus s)
          · exact scanned
    · cases read
      rfl

/-- What follows the sign of a number. -/
theorem unsigned_append {sign s text rest : Bytes}
    (read : (do
      let (whole, rest) ← scanWhole s
      let (fraction, rest) ← scanFraction rest
      let (exponent, rest) ← scanExponentPart rest
      pure (sign ++ whole ++ fraction ++ exponent, rest)) = .ok (text, rest))
    (left : rest ≠ []) (more : Bytes) :
    (do
      let (whole, rest) ← scanWhole (s ++ more)
      let (fraction, rest) ← scanFraction rest
      let (exponent, rest) ← scanExponentPart rest
      pure (sign ++ whole ++ fraction ++ exponent, rest)) = .ok (text, rest ++ more) := by
  cases wholePart : scanWhole s with
  | error e =>
    rw [wholePart] at read
    cases read
  | ok found =>
    obtain ⟨whole, afterWhole⟩ := found
    rw [wholePart] at read
    cases fractionPart : scanFraction afterWhole with
    | error e =>
      simp only [Bind.bind, Except.bind, fractionPart] at read
      cases read
    | ok found =>
      obtain ⟨fraction, afterFraction⟩ := found
      cases exponentPart : scanExponentPart afterFraction with
      | error e =>
        simp only [Bind.bind, Except.bind, fractionPart, exponentPart] at read
        cases read
      | ok found =>
        obtain ⟨exponent, afterExponent⟩ := found
        simp only [Bind.bind, Except.bind, fractionPart, exponentPart, pure, Except.pure,
          Except.ok.injEq, Prod.mk.injEq] at read ⊢
        obtain ⟨rfl, rfl⟩ := read
        have leftFraction : afterFraction ≠ [] := by
          rintro rfl
          cases exponentPart
          exact left rfl
        have leftWhole : afterWhole ≠ [] := by
          rintro rfl
          cases fractionPart
          exact leftFraction rfl
        rw [scanWhole_append wholePart leftWhole more]
        dsimp only
        rw [scanFraction_append fractionPart leftFraction more]
        dsimp only
        rw [scanExponentPart_append exponentPart left more]

theorem numberToken_append {s text rest : Bytes} (read : numberToken s = .ok (text, rest))
    (left : rest ≠ []) (more : Bytes) :
    numberToken (s ++ more) = .ok (text, rest ++ more) := by
  cases s with
  | nil => cases read
  | cons c s =>
    rw [List.cons_append]
    by_cases minus : c = 45
    · subst minus
      exact unsigned_append read left more
    · have front : ∀ later, numberToken (c :: later) = (do
          let (whole, rest) ← scanWhole (c :: later)
          let (fraction, rest) ← scanFraction rest
          let (exponent, rest) ← scanExponentPart rest
          pure (([] : Bytes) ++ whole ++ fraction ++ exponent, rest)) := by
        intro later
        unfold numberToken
        split
        rename_i parts
        split at parts
        · rename_i same
          exact absurd (List.cons.inj same).1 minus
        · cases parts
          rfl
      rw [front] at read ⊢
      exact unsigned_append read left more

theorem word_append {s rest : Bytes} {v : Value} (read : word s = some (v, rest)) (more : Bytes) :
    word (s ++ more) = some (v, rest ++ more) := by
  unfold word at read
  split_ifs at read with isNull isTrue isFalse
  · obtain ⟨later, rfl⟩ := isNull
    cases read
    rfl
  · obtain ⟨later, rfl⟩ := isTrue
    cases read
    rfl
  · obtain ⟨later, rfl⟩ := isFalse
    cases read
    rfl

variable {close : UInt8} {first second : Bytes → Option (α × Bytes)}

theorem elements_append (longer : Extends first second) {s rest : Bytes} {items : List α}
    {fuel fuel' : Nat} (enough : fuel ≤ fuel')
    (read : elements close first fuel s = some (items, rest)) (more : Bytes) :
    elements close second fuel' (s ++ more) = some (items, rest ++ more) := by
  induction fuel generalizing fuel' s items rest with
  | zero => cases read
  | succ fuel ih =>
    obtain ⟨fuel', rfl⟩ := Nat.exists_eq_succ_of_ne_zero
      (Nat.ne_of_gt (Nat.lt_of_lt_of_le (Nat.zero_lt_succ _) enough))
    unfold elements at read ⊢
    cases element : first s with
    | none =>
      rw [element] at read
      cases read
    | some found =>
      obtain ⟨item, after⟩ := found
      rw [element] at read
      dsimp only at read
      cases solid : skipWhitespace after with
      | nil =>
        rw [solid] at read
        cases read
      | cons c others =>
        have left : after ≠ [] := by
          rintro rfl
          cases solid
        rw [solid] at read
        rw [longer s item after element left more]
        dsimp only at read ⊢
        rw [skipWhitespace_append solid]
        dsimp only at read ⊢
        split_ifs at read ⊢
        · cases later : elements close first fuel others with
          | none =>
            rw [later] at read
            cases read
          | some found =>
            obtain ⟨items', rest'⟩ := found
            rw [later] at read
            rw [ih (Nat.le_of_succ_le_succ enough) later]
            cases read
            rfl
        · cases read
          rfl

theorem sequence_append (longer : Extends first second) :
    Closes (sequence close first) (sequence close second) := by
  intro s items rest read more
  unfold sequence at read ⊢
  cases solid : skipWhitespace s with
  | nil =>
    rw [solid] at read
    cases read
  | cons c others =>
    have enough : s.length + 1 ≤ (s ++ more).length + 1 := by
      rw [List.length_append]
      omega
    rw [solid] at read
    rw [skipWhitespace_append solid]
    dsimp only at read ⊢
    split_ifs at read ⊢
    · cases read
      rfl
    · exact elements_append longer enough read more

theorem expect_append {c : UInt8} {s rest : Bytes} (read : expect c s = .ok rest)
    (more : Bytes) : expect c (s ++ more) = .ok (rest ++ more) := by
  unfold expect at read ⊢
  cases solid : skipWhitespace s with
  | nil =>
    rw [solid] at read
    cases read
  | cons b others =>
    rw [solid] at read
    rw [skipWhitespace_append solid]
    dsimp only at read ⊢
    split_ifs at read ⊢
    cases read
    rfl

theorem member_append (longer : Extends first second) : Extends (member first) (member second) := by
  intro s found rest read left more
  unfold member at read ⊢
  cases solid : skipWhitespace s with
  | nil =>
    rw [solid] at read
    cases read
  | cons c others =>
    rw [solid] at read
    rw [skipWhitespace_append solid]
    dsimp only at read ⊢
    split_ifs at read ⊢
    cases name : stringToken others with
    | error e =>
      rw [name] at read
      cases read
    | ok token =>
      obtain ⟨text, afterName⟩ := token
      rw [name] at read
      rw [stringToken_append name]
      dsimp only at read ⊢
      cases colon : expect 58 afterName with
      | error e =>
        rw [colon] at read
        cases read
      | ok afterColon =>
        rw [colon] at read
        rw [expect_append colon]
        dsimp only at read ⊢
        cases inner : first afterColon with
        | none =>
          rw [inner] at read
          cases read
        | some v =>
          obtain ⟨a, rest'⟩ := v
          rw [inner] at read
          cases read
          rw [longer afterColon a _ inner left]
          rfl

theorem toOption_eq_some {ε β : Type} {x : Except ε β} {b : β} (read : x.toOption = some b) :
    x = .ok b := by
  cases x with
  | error e => cases read
  | ok b' =>
    cases read
    rfl

/-- A value stays when more follows, and when more nesting is allowed. -/
theorem value_append {depth depth' : Nat} (deep : depth ≤ depth') :
    Extends (value depth) (value depth') := by
  induction depth generalizing depth' with
  | zero => intro s v rest read; cases read
  | succ depth ih =>
    obtain ⟨depth', rfl⟩ := Nat.exists_eq_succ_of_ne_zero
      (Nat.ne_of_gt (Nat.lt_of_lt_of_le (Nat.zero_lt_succ _) deep))
    have inner := ih (Nat.le_of_succ_le_succ deep)
    intro s v rest read left more
    unfold value at read ⊢
    cases solid : skipWhitespace s with
    | nil =>
      rw [solid] at read
      cases read
    | cons c others =>
      rw [solid] at read
      rw [skipWhitespace_append solid]
      dsimp only at read ⊢
      split_ifs at read ⊢
      · obtain ⟨⟨text, rest'⟩, token, same⟩ := Option.map_eq_some_iff.mp read
        cases same
        rw [stringToken_append (toOption_eq_some token)]
        rfl
      · obtain ⟨⟨items, rest'⟩, token, same⟩ := Option.map_eq_some_iff.mp read
        cases same
        rw [sequence_append inner others items _ token]
        rfl
      · obtain ⟨⟨members, rest'⟩, token, same⟩ := Option.map_eq_some_iff.mp read
        cases same
        rw [sequence_append (member_append inner) others members _ token]
        rfl
      · obtain ⟨⟨text, rest'⟩, token, same⟩ := Option.map_eq_some_iff.mp read
        cases same
        have whole := numberToken_append (toOption_eq_some token) left more
        rw [List.cons_append] at whole
        rw [whole]
        rfl
      · exact word_append read more

/-- An object is closed by its brace, so that it stays even at the end of a text. -/
theorem value_object_append {depth depth' : Nat} (deep : depth ≤ depth') {s rest : Bytes}
    {v : Value} (read : value depth (123 :: s) = some (v, rest)) (more : Bytes) :
    value depth' (123 :: s ++ more) = some (v, rest ++ more) := by
  cases depth with
  | zero => cases read
  | succ depth =>
    obtain ⟨depth', rfl⟩ := Nat.exists_eq_succ_of_ne_zero
      (Nat.ne_of_gt (Nat.lt_of_lt_of_le (Nat.zero_lt_succ _) deep))
    have inner := value_append (Nat.le_of_succ_le_succ deep)
    rw [List.cons_append]
    unfold value at read ⊢
    rw [skipWhitespace_cons (by decide)] at read ⊢
    dsimp only at read ⊢
    rw [if_neg (by decide), if_neg (by decide), if_pos rfl] at read ⊢
    obtain ⟨⟨members, rest'⟩, token, same⟩ := Option.map_eq_some_iff.mp read
    cases same
    rw [sequence_append (member_append inner) s members _ token]
    rfl

/-- No beginning of an object is a text of its own. -/
theorem read_beginning {text : Bytes} {v : Value}
    (whole : value (text.length + 1) text = some (v, [])) {part : Bytes}
    (object : ∃ rest, text = 123 :: rest) (begins : part <+: text) (proper : part ≠ text) :
    read part = none := by
  obtain ⟨rest, rfl⟩ := object
  obtain ⟨more, same⟩ := begins
  cases part with
  | nil => rfl
  | cons c part =>
    obtain ⟨rfl, _⟩ := List.cons_eq_cons.mp same
    unfold read
    cases found : value ((123 :: part).length + 1) (123 :: part) with
    | none => rfl
    | some result =>
      obtain ⟨v', left⟩ := result
      exfalso
      have deep : (123 :: part).length + 1 ≤ (123 :: rest).length + 1 := by
        rw [← same, List.length_append]
        omega
      have longer := value_object_append deep found more
      rw [same, whole] at longer
      have nothing : left ++ more = [] := (Prod.mk.inj (Option.some.inj longer)).2.symm
      obtain ⟨_, rfl⟩ := List.append_eq_nil_iff.mp nothing
      exact proper (by rw [← same, List.append_nil])

end Longer

/-- What was written of a document before its end is not read. -/
theorem read_partial {φ : Type} {floatText : φ → Bytes} {document : Document φ}
    (sound : Sound floatText document) {part : Bytes}
    (begins : part <+: render floatText document) (proper : part ≠ render floatText document) :
    read part = none :=
  read_beginning (value_render sound) ⟨_, rfl⟩ begins proper

end Json
