import WatershedOracle.NmeaSentences

set_option autoImplicit false

/-! Sentences with one damaged byte. The checksum of another body differs from the one
that was sent, and a damage that moves the framing leaves a message without its dollar
sign. -/

namespace WatershedOracle.Nmea

open Zig

/-! ### The exclusive or of a body -/

theorem xorOf_from (start : UInt8) (bytes : Bytes) :
    bytes.foldl (fun sum c => sum ^^^ c) start = start ^^^ xorOf bytes := by
  unfold xorOf
  induction bytes generalizing start with
  | nil => simp
  | cons c rest ih =>
    rw [List.foldl_cons, List.foldl_cons, ih, ih (0 ^^^ c), UInt8.zero_xor, UInt8.xor_assoc]

theorem xorOf_append (front back : Bytes) : xorOf (front ++ back) = xorOf front ^^^ xorOf back := by
  unfold xorOf
  rw [List.foldl_append]
  exact xorOf_from _ back

theorem xorOf_cons (c : UInt8) (rest : Bytes) : xorOf (c :: rest) = c ^^^ xorOf rest := by
  rw [xorOf, List.foldl_cons, xorOf_from, UInt8.zero_xor]

/-- Exchanging one byte for another changes the exclusive or. -/
theorem xorOf_replace (front back : Bytes) (a b : UInt8) :
    xorOf (front ++ b :: back) = xorOf (front ++ a :: back) ↔ b = a := by
  rw [xorOf_append, xorOf_append, xorOf_cons, xorOf_cons, UInt8.xor_right_inj, UInt8.xor_left_inj]

/-! ### Rejection -/

section Rejection

variable {body damaged : Bytes}

/-- The frame of one body around another. -/
def Frame.around (frame : Frame body) (damaged : Bytes) : Bytes :=
  sent damaged frame.high frame.low frame.lineEnd

/-- What stands between the last two stars of the whole text is rejected when it does not
begin with a dollar sign, and when its exclusive or is not that of the body. -/
theorem validateChecksum_around (frame : Frame body)
    (wrong : (afterStar (dollar :: damaged)).head? = some dollar →
      xorOf (afterStar (dollar :: damaged)).tail ≠ xorOf body) :
    validateChecksum (frame.around damaged) = invalidNMEA := by
  obtain ⟨h, l, isHigh, isLow, checksum⟩ := frame.correct
  have outside := star_not_mem_tail isHigh isLow frame.ends
  have split : splitBackwards star (frame.around damaged) =
      (frame.high :: frame.low :: frame.lineEnd) :: splitBackwards star (dollar :: damaged) :=
    splitBackwards_append _ outside
  have isHead := splitBackwards_head star (dollar :: damaged)
  unfold validateChecksum
  rw [split]
  dsimp only
  rw [trim_digits isHigh isLow frame.ends, parseInt_two_digits isHigh isLow]
  simp only [ofParse, Bind.bind, Except.bind]
  cases pieces : splitBackwards star (dollar :: damaged) with
  | nil => rfl
  | cons message before =>
    rw [pieces] at isHead
    obtain rfl : message = afterStar (dollar :: damaged) := Option.some.inj isHead
    dsimp only
    by_cases starts : (afterStar (dollar :: damaged)).head? = some dollar
    · have other : ((xorOf (afterStar (dollar :: damaged)).tail).toNat : Int) ≠
          (16 * h + l : Nat) := by
        rw [← checksum]
        intro same
        exact wrong starts (UInt8.toNat_inj.mp (by exact_mod_cast same))
      rw [if_neg (not_not.mpr starts), if_pos other]
    · rw [if_pos starts]

/-- A damage without a star leaves the framing, and is seen in the checksum. -/
theorem afterStar_of_not_mem (absent : star ∉ damaged) :
    afterStar (dollar :: damaged) = dollar :: damaged := by
  apply List.rtakeWhile_eq_self_iff.mpr
  intro byte member
  apply decide_eq_true
  rintro rfl
  rcases List.mem_cons.mp member with same | inside
  · exact absurd same (by decide)
  · exact absent inside

theorem xorOf_set_ne {i : Nat} (inside : i < body.length) {b : UInt8} (other : b ≠ body[i]) :
    xorOf (body.set i b) ≠ xorOf body := by
  have whole : body.take i ++ body[i] :: body.drop (i + 1) = body := by
    rw [← List.drop_eq_getElem_cons inside, List.take_append_drop]
  intro same
  rw [List.set_eq_take_append_cons_drop, if_pos inside, ← congrArg xorOf whole] at same
  exact other ((xorOf_replace _ _ _ _).mp same)

/-- Every single damaged byte of a body is rejected, wherever it stands and whatever it is. -/
theorem parse_damaged (body : Bytes)
    (free : ∀ byte ∈ body, byte ∉ [star, dollar, carriageReturn, lineFeed]) (frame : Frame body)
    (i : Nat) (inside : i < body.length) (b : UInt8) (other : b ≠ body[i]) :
    parse (frame.around (body.set i b)) = invalidNMEA := by
  have noStar : star ∉ body := fun member => free star member (by decide)
  have noDollar : dollar ∉ body := fun member => free dollar member (by decide)
  have rejected : validateChecksum (frame.around (body.set i b)) = invalidNMEA := by
    apply validateChecksum_around
    by_cases isStar : b = star
    · -- The new star cuts the message off, and what is left has no dollar sign.
      have cut : afterStar (dollar :: body.set i b) = body.drop (i + 1) := by
        rw [List.set_eq_take_append_cons_drop, if_pos inside, isStar, ← List.cons_append]
        apply afterStar_append
        intro member
        exact noStar (List.mem_of_mem_drop member)
      rw [cut]
      intro starts
      have member := List.mem_of_mem_drop (List.mem_of_head? starts)
      exact absurd member noDollar
    · have absent : star ∉ body.set i b := by
        intro member
        rcases List.mem_or_eq_of_mem_set member with before | new
        · exact noStar before
        · exact isStar new.symm
      rw [afterStar_of_not_mem absent]
      intro _
      exact xorOf_set_ne inside other
  unfold parse
  rw [rejected]
  rfl

end Rejection

/-- `$GPTXT*4F` with a star in place of the second letter. -/
theorem parse_damaged_star :
    parse ((Frame.standard (Zig.ascii "GPTXT") true).around ((Zig.ascii "GPTXT").set 1 star)) =
      invalidNMEA :=
  parse_damaged _ (by decide +kernel) _ 1 (by decide) star (by decide)

end WatershedOracle.Nmea
