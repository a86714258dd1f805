import WatershedOracle.Boxes

set_option autoImplicit false

/-! The slots between two calls: a run of levels from huc2 down, each code
beginning with the code above it. -/

namespace WatershedOracle

variable {γ : Type}

/-- A slot splits the list of cached regions at its level. -/
theorem WatershedStack.Holds.split {stack : WatershedStack γ} {list : List (Watershed γ)}
    (holds : stack.Holds list) {level : Level} {w : Watershed γ}
    (occupied : stack.slot level = some w) :
    ∃ finer coarser, list = finer ++ w :: coarser ∧ coarser.length = level.index := by
  rw [holds.slot] at occupied
  obtain ⟨inside, isAt⟩ := List.getElem?_eq_some_iff.mp occupied
  refine ⟨(list.reverse.drop (level.index + 1)).reverse,
    (list.reverse.take level.index).reverse, ?_, ?_⟩
  · have whole : list.reverse = list.reverse.take level.index ++
        w :: list.reverse.drop (level.index + 1) := by
      rw [← isAt, List.getElem_cons_drop, List.take_append_drop]
    have back := congrArg List.reverse whole
    simpa only [List.reverse_reverse, List.reverse_append, List.reverse_cons, List.append_assoc,
      List.singleton_append] using back
  · rw [List.length_reverse, List.length_take]
    exact Nat.min_eq_left (Nat.le_of_lt inside)

theorem WatershedStack.Holds.isSome {stack : WatershedStack γ} {list : List (Watershed γ)}
    (holds : stack.Holds list) (level : Level) :
    (stack.slot level).isSome ↔ level.index < list.length := by
  simp [holds.slot]

theorem WatershedStack.valid_iff_slot {stack : WatershedStack γ} :
    stack.valid = true ↔ ∃ level, (stack.slot level).isSome := by
  simp only [WatershedStack.valid, Bool.or_eq_true]
  constructor
  · rintro (((((((h | h) | h) | h) | h) | h) | h) | h)
    exacts [⟨.huc2, h⟩, ⟨.huc4, h⟩, ⟨.huc6, h⟩, ⟨.huc8, h⟩, ⟨.huc10, h⟩, ⟨.huc12, h⟩,
      ⟨.huc14, h⟩, ⟨.huc16, h⟩]
  · rintro ⟨level, occupied⟩
    cases level <;> simp_all [WatershedStack.slot]

/-- The shape of the stack, slot by slot. -/
structure WatershedStack.Chain (stack : WatershedStack γ) : Prop where
  contiguous : ∀ coarse fine : Level, coarse.index ≤ fine.index →
    (stack.slot fine).isSome → (stack.slot coarse).isSome
  coded : ∀ level w, stack.slot level = some w → IsCode level w.region.code
  nested : ∀ (coarse fine : Level) above below, fine.index = coarse.index + 1 →
    stack.slot coarse = some above → stack.slot fine = some below →
      above.region.code <+: below.region.code
  skipped : stack.skipHuc14and16 = true → stack.huc14 = none ∧ stack.huc16 = none

section Chain

variable {env : Externals γ} {listed : Level → Row → Prop}

/-- Two slots one level apart are neighbours in the list. -/
theorem WatershedStack.Holds.neighbours {stack : WatershedStack γ} {list : List (Watershed γ)}
    (holds : stack.Holds list) {coarse fine : Level} {above below : Watershed γ}
    (next : fine.index = coarse.index + 1) (isAbove : stack.slot coarse = some above)
    (isBelow : stack.slot fine = some below) :
    ∃ coarser, below :: above :: coarser <:+ list := by
  obtain ⟨finer, back, whole, length⟩ := holds.split isBelow
  obtain ⟨finer', coarser, whole', length'⟩ := holds.split isAbove
  have first : back <:+ list := ⟨finer ++ [below], by simp [whole]⟩
  have second : above :: coarser <:+ list := ⟨finer', whole'.symm⟩
  have same : back = above :: coarser := by
    have inner := List.suffix_of_suffix_length_le first second (by simp; omega)
    exact inner.eq_of_length (by simp; omega)
  exact ⟨coarser, finer, by rw [whole, same]⟩

theorem Stacked.chain (serves : Serves env listed) {stack : WatershedStack γ}
    {list : List (Watershed γ)} (stacked : Stacked env listed stack list) : stack.Chain where
  contiguous coarse fine ordered occupied := by
    rw [stacked.1.isSome] at occupied ⊢
    omega
  coded level w occupied := by
    obtain ⟨finer, coarser, whole, length⟩ := stacked.1.split occupied
    have linked : (regions env listed).Linked ((w :: coarser).map Watershed.region) :=
      stacked.2.suffix ⟨finer.map Watershed.region, by rw [whole, List.map_append]⟩
    obtain ⟨level', at_, isCode, _⟩ := region_code serves linked.child.1
    obtain rfl : level' = level := Level.index_injective (by
      rw [at_, List.length_map, length])
    exact isCode
  nested coarse fine above below next isAbove isBelow := by
    obtain ⟨coarser, suffix⟩ := stacked.1.neighbours next isAbove isBelow
    have linked := stacked.2.suffix (suffix.map Watershed.region)
    exact linked.child.2 above.region (by simp)
  skipped skipped := by
    have fits := stacked.1.1
    rw [WatershedStack.depth_of_skip skipped] at fits
    exact ⟨stacked.1.vacant (show list.length ≤ Level.huc14.index from fits),
      stacked.1.vacant (show list.length ≤ Level.huc16.index from Nat.le_succ_of_le fits)⟩

/-- A chain is empty or reaches huc2. -/
theorem WatershedStack.Chain.valid_iff {stack : WatershedStack γ} (chain : stack.Chain) :
    stack.valid = true ↔ stack.huc2.isSome := by
  rw [WatershedStack.valid_iff_slot]
  constructor
  · rintro ⟨level, occupied⟩
    exact chain.contiguous .huc2 level (Nat.zero_le _) occupied
  · exact fun occupied => ⟨.huc2, occupied⟩

/-- Whatever SQLite, GEOS and the allocator did to the updates before. -/
theorem after_chain (serves : Serves env listed) (skip : Bool) (history : List Point) :
    (after env skip history).stack.Chain ∧
      (after env skip history).stack.skipHuc14and16 = skip ∧
      ((after env skip history).stack.valid = true ↔
        (after env skip history).stack.huc2.isSome) := by
  obtain ⟨list, stacked⟩ := after_stacked serves skip history
  have chain := stacked.chain serves
  exact ⟨chain, after_skip env skip history, chain.valid_iff⟩

end Chain

theorem after_chain_squares :
    (after (squareWorld 7) true strayHistory).stack.Chain ∧
      (after (squareWorld 7) true strayHistory).stack.skipHuc14and16 = true ∧
      ((after (squareWorld 7) true strayHistory).stack.valid = true ↔
        (after (squareWorld 7) true strayHistory).stack.huc2.isSome) :=
  after_chain (serve_hosts (squares 7) boxes).serves true strayHistory

end WatershedOracle
