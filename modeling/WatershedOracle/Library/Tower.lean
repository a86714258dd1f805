import Mathlib.Data.List.Basic

set_option autoImplicit false

/-! Regions stacked from coarse to fine, and a stack of them kept between
lookups. Nothing here depends on where regions come from. -/

namespace Tower

variable {ρ π : Type}

/-- Regions arranged in levels, level 0 the coarsest. `under fine coarse` says
that `fine` is registered as a part of `coarse`; coverage is a separate matter. -/
structure Regions (ρ π : Type) where
  region : Nat → ρ → Prop
  under : ρ → ρ → Prop
  covers : ρ → π → Prop

namespace Regions

variable (T : Regions ρ π)

/-- `r` may be pushed onto the stack `stack`, whose head is the finest region. -/
def Child (r : ρ) (stack : List ρ) : Prop :=
  T.region stack.length r ∧ ∀ parent ∈ stack.head?, T.under r parent

/-- A stack, finest region first, in which each region is a child of the rest. -/
inductive Linked : List ρ → Prop
  | nil : Linked []
  | cons {r : ρ} {stack : List ρ} (child : T.Child r stack) (rest : Linked stack) :
      Linked (r :: stack)

/-- A region that covers a point lies under regions that cover it. -/
def Nested : Prop :=
  ∀ level fine coarse point, T.region (level + 1) fine → T.region level coarse →
    T.under fine coarse → T.covers fine point → T.covers coarse point

/-- Below the level `depth`, a region covering the point has a child covering it,
and some region of level 0 covers it. -/
structure Tiled (depth : Nat) (point : π) : Prop where
  root : ∃ r, T.region 0 r ∧ T.covers r point
  child : ∀ level r, level + 1 < depth → T.region level r → T.covers r point →
    ∃ fine, T.region (level + 1) fine ∧ T.under fine r ∧ T.covers fine point

/-- At most one region of each level covers the point. -/
def UniqueAt (point : π) : Prop :=
  ∀ level a b, T.region level a → T.region level b →
    T.covers a point → T.covers b point → a = b

variable {T}

theorem Linked.child {r : ρ} {stack : List ρ} (linked : T.Linked (r :: stack)) :
    T.Child r stack := by
  cases linked with
  | cons child _ => exact child

theorem Linked.root {stack : List ρ} (linked : T.Linked stack) (occupied : stack ≠ []) :
    ∃ r ∈ stack, T.region 0 r := by
  induction linked with
  | nil => exact absurd rfl occupied
  | @cons r stack child rest ih =>
    cases stack with
    | nil => exact ⟨r, List.mem_cons_self, child.1⟩
    | cons parent coarser =>
      obtain ⟨root, member, isRoot⟩ := ih (List.cons_ne_nil _ _)
      exact ⟨root, List.mem_cons_of_mem _ member, isRoot⟩

theorem Linked.suffix {stack kept : List ρ} (linked : T.Linked stack)
    (suffix : kept <:+ stack) : T.Linked kept := by
  induction linked with
  | nil =>
    rw [List.suffix_nil.mp suffix]
    exact .nil
  | @cons r stack child rest ih =>
    rcases List.suffix_cons_iff.mp suffix with rfl | inner
    · exact .cons child rest
    · exact ih inner

/-- More regions link what fewer linked. -/
theorem Linked.mono {T' : Regions ρ π} (region : ∀ n r, T.region n r → T'.region n r)
    (under : ∀ fine coarse, T.under fine coarse → T'.under fine coarse) {stack : List ρ}
    (linked : T.Linked stack) : T'.Linked stack := by
  induction linked with
  | nil => exact .nil
  | cons child rest ih =>
    apply Linked.cons _ ih
    exact ⟨region _ _ child.1, fun parent isHead => under _ _ (child.2 parent isHead)⟩

/-- Coverage climbs from the finest region to the root. -/
theorem Linked.covers_all (nested : T.Nested) {point : π} {stack : List ρ}
    (linked : T.Linked stack) (finest : ∀ r ∈ stack.head?, T.covers r point) :
    ∀ r ∈ stack, T.covers r point := by
  induction linked with
  | nil => simp
  | @cons r stack child rest ih =>
    have head : T.covers r point := finest r (by simp)
    have below : ∀ parent ∈ stack.head?, T.covers parent point := by
      intro parent isHead
      cases stack with
      | nil => simp at isHead
      | cons top bottom =>
        obtain rfl : top = parent := by simpa using isHead
        exact nested bottom.length r top point child.1 rest.child.1
          (child.2 top (by simp)) head
    intro other member
    rcases List.mem_cons.mp member with rfl | deeper
    · exact head
    · exact ih below other deeper

end Regions

/-- Push what `search` finds below the current stack, at most `room` times. -/
def descend (search : List ρ → Option ρ) : Nat → List ρ → List ρ
  | 0, stack => stack
  | room + 1, stack =>
      match search stack with
      | none => stack
      | some r => descend search room (r :: stack)

/-- Drop the finest regions until one passes the test. -/
def revalidate (covers : ρ → Bool) (stack : List ρ) : List ρ :=
  stack.dropWhile fun r => !covers r

/-- Keep what still covers, then search the levels that are left. -/
def lookup (covers : ρ → Bool) (search : List ρ → Option ρ) (depth : Nat)
    (stack : List ρ) : List ρ :=
  descend search (depth - (revalidate covers stack).length) (revalidate covers stack)

theorem revalidate_suffix (covers : ρ → Bool) (stack : List ρ) :
    revalidate covers stack <:+ stack :=
  List.dropWhile_suffix _

theorem revalidate_head (covers : ρ → Bool) (stack : List ρ) :
    ∀ r ∈ (revalidate covers stack).head?, covers r = true := by
  induction stack with
  | nil => simp [revalidate]
  | cons top rest ih =>
    by_cases covered : covers top = true
    · simp [revalidate, covered]
    · simpa [revalidate, covered] using ih

@[simp] theorem revalidate_nil (covers : ρ → Bool) : revalidate covers [] = [] := rfl

theorem revalidate_cons_of_covers (covers : ρ → Bool) (top : ρ) (rest : List ρ)
    (covered : covers top = true) : revalidate covers (top :: rest) = top :: rest := by
  simp [revalidate, covered]

theorem revalidate_cons_of_not_covers (covers : ρ → Bool) (top : ρ) (rest : List ρ)
    (uncovered : covers top = false) :
    revalidate covers (top :: rest) = revalidate covers rest := by
  simp [revalidate, uncovered]

section Descend

variable (search : List ρ → Option ρ)

theorem descend_of_none {stack : List ρ} (absent : search stack = none) (room : Nat) :
    descend search room stack = stack := by
  cases room <;> simp [descend, absent]

theorem descend_of_some {stack : List ρ} {r : ρ} (found : search stack = some r)
    (room : Nat) : descend search (room + 1) stack = descend search room (r :: stack) := by
  simp [descend, found]

/-- A descent may be interrupted anywhere and taken up again. -/
theorem descend_add (first second : Nat) (stack : List ρ) :
    descend search (first + second) stack =
      descend search second (descend search first stack) := by
  induction first generalizing stack with
  | zero => simp [descend]
  | succ first ih =>
    rw [Nat.succ_add_eq_add_succ, Nat.add_succ]
    cases found : search stack with
    | none => simp only [descend_of_none search found]
    | some r => rw [descend_of_some search found, descend_of_some search found, ih]

theorem descend_suffix (room : Nat) (stack : List ρ) :
    stack <:+ descend search room stack := by
  induction room generalizing stack with
  | zero => exact List.suffix_refl _
  | succ room ih =>
    cases found : search stack with
    | none => exact (descend_of_none search found (room + 1)).symm ▸ List.suffix_refl _
    | some r =>
      rw [descend_of_some search found]
      exact (List.suffix_cons r stack).trans (ih (r :: stack))

/-- A descent that stops early has nothing to go on with. -/
theorem descend_stuck (room : Nat) (stack : List ρ)
    (short : (descend search room stack).length < room + stack.length) :
    search (descend search room stack) = none := by
  induction room generalizing stack with
  | zero => simp [descend] at short
  | succ room ih =>
    cases found : search stack with
    | none => rwa [descend_of_none search found]
    | some r =>
      rw [descend_of_some search found] at short ⊢
      exact ih (r :: stack) (by simp only [List.length_cons]; omega)

end Descend

/-- What a search must deliver for the stacks it builds to be trusted. -/
structure Finds (T : Regions ρ π) (point : π) (search : List ρ → Option ρ) : Prop where
  sound : ∀ stack r, T.Linked stack → search stack = some r →
    T.Child r stack ∧ T.covers r point
  complete : ∀ stack r, T.Linked stack → search stack = none →
    T.Child r stack → ¬ T.covers r point

section Lookup

variable {T : Regions ρ π} {point : π} {search : List ρ → Option ρ}

theorem descend_linked (finds : Finds T point search) (room : Nat) {stack : List ρ}
    (linked : T.Linked stack) : T.Linked (descend search room stack) := by
  induction room generalizing stack with
  | zero => exact linked
  | succ room ih =>
    cases found : search stack with
    | none => rwa [descend_of_none search found]
    | some r =>
      rw [descend_of_some search found]
      exact ih (.cons (finds.sound stack r linked found).1 linked)

theorem descend_covers (finds : Finds T point search) (room : Nat) {stack : List ρ}
    (linked : T.Linked stack) (covered : ∀ r ∈ stack, T.covers r point) :
    ∀ r ∈ descend search room stack, T.covers r point := by
  induction room generalizing stack with
  | zero => exact covered
  | succ room ih =>
    cases found : search stack with
    | none => rwa [descend_of_none search found]
    | some r =>
      rw [descend_of_some search found]
      have child := finds.sound stack r linked found
      exact ih (.cons child.1 linked) (List.forall_mem_cons.mpr ⟨child.2, covered⟩)

/-- Nothing is searched twice: a linked, covering stack is what a descent from
the empty stack finds first, when no level offers a choice. -/
theorem descend_rebuilds (finds : Finds T point search) (unique : T.UniqueAt point)
    {stack : List ρ} (linked : T.Linked stack) (covered : ∀ r ∈ stack, T.covers r point) :
    descend search stack.length [] = stack := by
  induction linked with
  | nil => rfl
  | @cons r stack child rest ih =>
    obtain ⟨head, tail⟩ := List.forall_mem_cons.mp covered
    rw [List.length_cons, descend_add, ih tail]
    cases found : search stack with
    | none => exact absurd head (finds.complete stack r rest found child)
    | some other =>
      obtain ⟨otherChild, otherCovers⟩ := finds.sound stack other rest found
      rw [descend_of_some search found]
      simp only [descend, unique _ _ _ otherChild.1 child.1 otherCovers head]

theorem revalidate_covers (nested : T.Nested) {covers : ρ → Bool}
    (decides : ∀ r, covers r = true ↔ T.covers r point) {stack : List ρ}
    (linked : T.Linked stack) :
    ∀ r ∈ revalidate covers stack, T.covers r point := by
  apply (linked.suffix (revalidate_suffix covers stack)).covers_all nested
  intro r isHead
  exact (decides r).mp (revalidate_head covers stack r isHead)

theorem lookup_linked (finds : Finds T point search) (covers : ρ → Bool) (depth : Nat)
    {stack : List ρ} (linked : T.Linked stack) : T.Linked (lookup covers search depth stack) :=
  descend_linked finds _ (linked.suffix (revalidate_suffix covers stack))

/-- Every region of the stack after a lookup covers the point. -/
theorem lookup_covers (nested : T.Nested) (finds : Finds T point search)
    {covers : ρ → Bool} (decides : ∀ r, covers r = true ↔ T.covers r point)
    (depth : Nat) {stack : List ρ} (linked : T.Linked stack) :
    ∀ r ∈ lookup covers search depth stack, T.covers r point :=
  descend_covers finds _ (linked.suffix (revalidate_suffix covers stack))
    (revalidate_covers nested decides linked)

/-- Where no level offers a choice, a lookup forgets the stack it started from. -/
theorem lookup_eq_fresh (nested : T.Nested) (finds : Finds T point search)
    (unique : T.UniqueAt point) {covers : ρ → Bool}
    (decides : ∀ r, covers r = true ↔ T.covers r point) {depth : Nat} {stack : List ρ}
    (linked : T.Linked stack) (fits : stack.length ≤ depth) :
    lookup covers search depth stack = lookup covers search depth [] := by
  have kept := linked.suffix (revalidate_suffix covers stack)
  have short := (revalidate_suffix covers stack).length_le
  have rebuilt := descend_rebuilds finds unique kept (revalidate_covers nested decides linked)
  have whole : depth = (revalidate covers stack).length +
      (depth - (revalidate covers stack).length) := by omega
  calc lookup covers search depth stack
      = descend search (depth - (revalidate covers stack).length)
          (descend search (revalidate covers stack).length []) := by rw [rebuilt]; rfl
    _ = descend search depth [] := by rw [← descend_add, ← whole]
    _ = lookup covers search depth [] := by simp [lookup]

/-- No choice of covering sibling leads a descent into a dead end. -/
theorem descend_complete (finds : Finds T point search) {depth : Nat}
    (tiled : T.Tiled depth point) (room : Nat) {stack : List ρ} (linked : T.Linked stack)
    (covered : ∀ r ∈ stack, T.covers r point) (fits : room + stack.length = depth) :
    (descend search room stack).length = depth := by
  induction room generalizing stack with
  | zero => simpa [descend] using fits
  | succ room ih =>
    cases found : search stack with
    | none =>
      exfalso
      cases linked with
      | nil =>
        obtain ⟨r, region, covers⟩ := tiled.root
        exact finds.complete [] r .nil found ⟨region, by simp⟩ covers
      | @cons top rest child below =>
        simp only [List.length_cons] at fits
        obtain ⟨fine, region, under, covers⟩ :=
          tiled.child rest.length top (by omega) child.1 (covered top (by simp))
        refine finds.complete (top :: rest) fine (.cons child below) found ⟨region, ?_⟩ covers
        intro parent isHead
        obtain rfl : top = parent := by simpa using isHead
        exact under
    | some r =>
      rw [descend_of_some search found]
      have child := finds.sound stack r linked found
      exact ih (.cons child.1 linked) (List.forall_mem_cons.mpr ⟨child.2, covered⟩)
        (by simp only [List.length_cons]; omega)

theorem lookup_complete (nested : T.Nested) (finds : Finds T point search)
    {covers : ρ → Bool} (decides : ∀ r, covers r = true ↔ T.covers r point)
    {depth : Nat} (tiled : T.Tiled depth point) {stack : List ρ}
    (linked : T.Linked stack) (fits : stack.length ≤ depth) :
    (lookup covers search depth stack).length = depth := by
  have short := (revalidate_suffix covers stack).length_le
  exact descend_complete finds tiled _ (linked.suffix (revalidate_suffix covers stack))
    (revalidate_covers nested decides linked) (by omega)

/-- A lookup that ends above the greatest depth ends where nothing below covers the
point. -/
theorem lookup_stuck (finds : Finds T point search) {covers : ρ → Bool} {depth : Nat}
    {stack : List ρ} (linked : T.Linked stack) (fits : stack.length ≤ depth)
    (short : (lookup covers search depth stack).length < depth) {r : ρ}
    (child : T.Child r (lookup covers search depth stack)) : ¬ T.covers r point := by
  have room := (revalidate_suffix covers stack).length_le
  have stuck := descend_stuck search (depth - (revalidate covers stack).length)
    (revalidate covers stack) (by rw [Nat.sub_add_cancel (by omega)]; exact short)
  exact finds.complete _ r (lookup_linked finds covers depth linked) stuck child

end Lookup

/-! ### Lookups of less depth -/

/-- The `n` coarsest regions of a stack. -/
def coarsest (n : Nat) (stack : List ρ) : List ρ := stack.drop (stack.length - n)

theorem coarsest_suffix (n : Nat) (stack : List ρ) : coarsest n stack <:+ stack :=
  List.drop_suffix _ _

theorem coarsest_length (n : Nat) (stack : List ρ) :
    (coarsest n stack).length = min n stack.length := by
  rw [coarsest, List.length_drop]
  omega

theorem reverse_coarsest (n : Nat) (stack : List ρ) :
    (coarsest n stack).reverse = stack.reverse.take n := by
  rw [coarsest, List.take_reverse]

theorem coarsest_of_length_le {n : Nat} {stack : List ρ} (fits : stack.length ≤ n) :
    coarsest n stack = stack := by
  rw [coarsest, Nat.sub_eq_zero_of_le fits, List.drop_zero]

/-- What is put on top of enough regions does not count. -/
theorem coarsest_of_suffix {n : Nat} {kept stack : List ρ} (suffix : kept <:+ stack)
    (enough : n ≤ kept.length) : coarsest n stack = coarsest n kept := by
  obtain ⟨front, rfl⟩ := suffix
  have split : (front ++ kept).length - n = front.length + (kept.length - n) := by
    rw [List.length_append]
    omega
  rw [coarsest, split, List.drop_length_add_append, coarsest]

theorem descend_length_le (search : List ρ → Option ρ) (room : Nat) (stack : List ρ) :
    (descend search room stack).length ≤ room + stack.length := by
  induction room generalizing stack with
  | zero => simp [descend]
  | succ room ih =>
    cases found : search stack with
    | none =>
      rw [descend_of_none search found]
      omega
    | some r =>
      have deeper := ih (r :: stack)
      rw [List.length_cons] at deeper
      rw [descend_of_some search found]
      omega

theorem revalidate_of_head {covers : ρ → Bool} {stack : List ρ}
    (head : ∀ r ∈ stack.head?, covers r = true) : revalidate covers stack = stack := by
  cases stack with
  | nil => rfl
  | cons top rest => exact revalidate_cons_of_covers covers top rest (head top rfl)

/-- Regions that are dropped anyway may be missing from the start. -/
theorem revalidate_of_suffix {covers : ρ → Bool} {stack bottom : List ρ}
    (suffix : bottom <:+ stack) (kept : (revalidate covers stack).length ≤ bottom.length) :
    revalidate covers bottom = revalidate covers stack := by
  obtain ⟨front, rfl⟩ := suffix
  induction front with
  | nil => rfl
  | cons top front ih =>
    rw [List.cons_append] at kept ⊢
    by_cases covered : covers top = true
    · rw [revalidate_cons_of_covers covers _ _ covered] at kept
      simp only [List.length_cons, List.length_append] at kept
      omega
    · rw [revalidate_cons_of_not_covers covers _ _ (by simpa using covered)] at kept ⊢
      exact ih kept

/-- A lookup that goes less deep knows the same regions, as far as it goes. -/
theorem lookup_coarsest {T : Regions ρ π} {point : π} (nested : T.Nested) {covers : ρ → Bool}
    (decides : ∀ r, covers r = true ↔ T.covers r point) (search : List ρ → Option ρ)
    (n k : Nat) {stack : List ρ} (linked : T.Linked stack) :
    lookup covers search n (coarsest n stack) =
      coarsest n (lookup covers search (n + k) stack) := by
  have suffix := revalidate_suffix covers stack
  by_cases short : (revalidate covers stack).length ≤ n
  · have same : revalidate covers (coarsest n stack) = revalidate covers stack := by
      apply revalidate_of_suffix (coarsest_suffix n stack)
      have fits := suffix.length_le
      rw [coarsest_length]
      omega
    unfold lookup
    rw [same]
    generalize revalidate covers stack = kept at short
    have room : n + k - kept.length = (n - kept.length) + k := by omega
    have fits := descend_length_le search (n - kept.length) kept
    rw [room, descend_add]
    generalize reached : descend search (n - kept.length) kept = final at fits
    by_cases full : final.length = n
    · rw [coarsest_of_suffix (descend_suffix search k final) (Nat.le_of_eq full.symm),
        coarsest_of_length_le (Nat.le_of_eq full)]
    · -- The shallow lookup found nothing more, and neither does the deep one.
      have stuck : search final = none := by
        rw [← reached]
        apply descend_stuck
        rw [reached]
        omega
      rw [descend_of_none search stuck, coarsest_of_length_le (by omega)]
  · have enough : n ≤ (revalidate covers stack).length := by omega
    have covered := revalidate_covers nested decides linked
    have below : coarsest n stack = coarsest n (revalidate covers stack) :=
      coarsest_of_suffix suffix enough
    have kept : revalidate covers (coarsest n stack) = coarsest n stack := by
      apply revalidate_of_head
      intro r isHead
      rw [below] at isHead
      apply (decides r).mpr
      apply covered
      exact (coarsest_suffix n _).subset (List.mem_of_mem_head? isHead)
    have length : (coarsest n stack).length = n := by
      rw [below, coarsest_length]
      omega
    rw [lookup, kept, length, Nat.sub_self, descend, lookup,
      coarsest_of_suffix (descend_suffix search _ _) enough, below]

end Tower
