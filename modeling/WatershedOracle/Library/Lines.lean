import Mathlib.Data.List.Basic

set_option autoImplicit false

/-! Streams that consist of lines, each ended by a separator that it does not hold. -/

namespace Lines

variable {α : Type} {separator : α}

def unlines (separator : α) (lines : List (List α)) : List α :=
  lines.flatMap fun line => line ++ [separator]

@[simp] theorem unlines_nil : unlines separator [] = [] := rfl

theorem unlines_cons (line : List α) (lines : List (List α)) :
    unlines separator (line :: lines) = line ++ separator :: unlines separator lines := by
  simp [unlines]

theorem unlines_append (first second : List (List α)) :
    unlines separator (first ++ second) = unlines separator first ++ unlines separator second :=
  List.flatMap_append

theorem unlines_concat (lines : List (List α)) (line : List α) :
    unlines separator (lines ++ [line]) = unlines separator lines ++ (line ++ [separator]) := by
  rw [unlines_append, unlines_cons]
  rfl

/-- The first separator ends the first line. -/
theorem first_unique {a b rest rest' : List α} (freeA : separator ∉ a) (freeB : separator ∉ b)
    (same : a ++ separator :: rest = b ++ separator :: rest') : a = b ∧ rest = rest' := by
  induction a generalizing b with
  | nil =>
    cases b with
    | nil => exact ⟨rfl, List.tail_eq_of_cons_eq same⟩
    | cons c b =>
      have head := List.head_eq_of_cons_eq same
      exact absurd (head ▸ List.mem_cons_self) freeB
  | cons c a ih =>
    cases b with
    | nil =>
      have head := List.head_eq_of_cons_eq same
      exact absurd (head ▸ List.mem_cons_self) freeA
    | cons c' b =>
      obtain ⟨rfl, tails⟩ := List.cons_eq_cons.mp same
      obtain ⟨rfl, rests⟩ := ih (fun member => freeA (List.mem_cons_of_mem _ member))
        (fun member => freeB (List.mem_cons_of_mem _ member)) tails
      exact ⟨rfl, rests⟩

/-- A stream that begins like another one has the other's first lines. -/
theorem prefix_of_unlines {a b : List (List α)} {rest : List α}
    (freeA : ∀ line ∈ a, separator ∉ line) (freeB : ∀ line ∈ b, separator ∉ line)
    (begins : unlines separator a ++ rest <+: unlines separator b) : a <+: b := by
  induction a generalizing b with
  | nil => exact List.nil_prefix
  | cons line a ih =>
    obtain ⟨first, others⟩ := List.forall_mem_cons.mp freeA
    obtain ⟨later, whole⟩ := begins
    rw [unlines_cons, List.append_assoc, List.append_assoc, List.cons_append] at whole
    cases b with
    | nil => simp at whole
    | cons line' b =>
      obtain ⟨first', others'⟩ := List.forall_mem_cons.mp freeB
      rw [unlines_cons] at whole
      obtain ⟨rfl, tails⟩ := first_unique first first' whole
      exact List.cons_prefix_cons.mpr
        ⟨rfl, ih others others' ⟨later, by rw [List.append_assoc]; exact tails⟩⟩

/-- The lines of a stream are unique. -/
theorem eq_of_unlines {a b : List (List α)} {rest : List α}
    (freeA : ∀ line ∈ a, separator ∉ line) (freeB : ∀ line ∈ b, separator ∉ line)
    (unfinished : separator ∉ rest)
    (same : unlines separator a ++ rest = unlines separator b) : a = b ∧ rest = [] := by
  obtain ⟨more, rfl⟩ := prefix_of_unlines freeA freeB ⟨[], by rw [List.append_nil, same]⟩
  rw [unlines_append] at same
  obtain rfl := List.append_cancel_left same
  cases more with
  | nil => simp
  | cons line more => exact absurd (by simp [unlines_cons]) unfinished

/-- A stream is its ended lines, and what stands after the last separator. -/
theorem exists_unlines [DecidableEq α] (separator : α) (stream : List α) :
    ∃ (lines : List (List α)) (tail : List α), (∀ line ∈ lines, separator ∉ line) ∧
      separator ∉ tail ∧ stream = unlines separator lines ++ tail := by
  induction stream with
  | nil => exact ⟨[], [], by simp, List.not_mem_nil, rfl⟩
  | cons c stream ih =>
    obtain ⟨lines, tail, free, unfinished, rfl⟩ := ih
    by_cases ends : c = separator
    · refine ⟨[] :: lines, tail, List.forall_mem_cons.mpr ⟨List.not_mem_nil, free⟩, unfinished, ?_⟩
      rw [ends, unlines_cons]
      rfl
    have other : separator ≠ c := fun same => ends same.symm
    cases lines with
    | nil => exact ⟨[], c :: tail, by simp, by simp [other, unfinished], rfl⟩
    | cons line lines =>
      obtain ⟨first, others⟩ := List.forall_mem_cons.mp free
      refine ⟨(c :: line) :: lines, tail, ?_, unfinished, ?_⟩
      · exact List.forall_mem_cons.mpr ⟨by simp [other, first], others⟩
      · rw [unlines_cons, unlines_cons]
        rfl

theorem splitOn_unlines [DecidableEq α] (lines : List (List α)) {tail : List α}
    (free : ∀ line ∈ lines, separator ∉ line) (unfinished : separator ∉ tail) :
    (unlines separator lines ++ tail).splitOn separator = lines ++ [tail] := by
  induction lines with
  | nil => exact List.splitOn_eq_singleton unfinished
  | cons line rest ih =>
    obtain ⟨first, others⟩ := List.forall_mem_cons.mp free
    rw [unlines_cons, List.append_assoc, List.cons_append,
      List.splitOn_append_cons_self_of_not_mem first, ih others, List.cons_append]

end Lines
