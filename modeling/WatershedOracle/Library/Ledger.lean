import Mathlib.Data.List.Perm.Basic
import Mathlib.Data.List.Nodup

set_option autoImplicit false

/-! Handles that must be given back once. A trace, newest entry first, is orderly
when it acquires no handle twice and releases, uses and forgets handles in turn. -/

namespace Ledger

variable {η : Type}

/-- What a trace says of a handle. `forget` stands for an owner that is overwritten. -/
inductive Entry (η : Type)
  | acquire (h : η)
  | release (h : η)
  | use (h : η)
  | forget (h : η)
  deriving DecidableEq

variable [DecidableEq η]

/-- The handles acquired and not released. -/
def live : List (Entry η) → List η
  | [] => []
  | .acquire h :: earlier => h :: live earlier
  | .release h :: earlier => (live earlier).erase h
  | .use _ :: earlier => live earlier
  | .forget _ :: earlier => live earlier

inductive Orderly : List (Entry η) → Prop
  | nil : Orderly []
  | acquire {h : η} {earlier : List (Entry η)} (fresh : .acquire h ∉ earlier)
      (rest : Orderly earlier) : Orderly (.acquire h :: earlier)
  | release {h : η} {earlier : List (Entry η)} (isLive : h ∈ live earlier)
      (rest : Orderly earlier) : Orderly (.release h :: earlier)
  | use {h : η} {earlier : List (Entry η)} (isLive : h ∈ live earlier)
      (rest : Orderly earlier) : Orderly (.use h :: earlier)
  | forget {h : η} {earlier : List (Entry η)} (released : .release h ∈ earlier)
      (rest : Orderly earlier) : Orderly (.forget h :: earlier)

/-- Only acquired handles are live. -/
theorem acquired_of_live {h : η} {entries : List (Entry η)} (isLive : h ∈ live entries) :
    .acquire h ∈ entries := by
  induction entries with
  | nil => cases isLive
  | cons entry earlier ih =>
    cases entry with
    | acquire other =>
      rcases List.mem_cons.mp isLive with rfl | older
      · exact List.mem_cons_self
      · exact List.mem_cons_of_mem _ (ih older)
    | release other => exact List.mem_cons_of_mem _ (ih (List.mem_of_mem_erase isLive))
    | use other => exact List.mem_cons_of_mem _ (ih isLive)
    | forget other => exact List.mem_cons_of_mem _ (ih isLive)

namespace Orderly

variable {h : η} {entries earlier later : List (Entry η)}

theorem tail {entry : Entry η} (orderly : Orderly (entry :: earlier)) : Orderly earlier := by
  cases orderly <;> assumption

theorem suffix (orderly : Orderly (later ++ earlier)) : Orderly earlier := by
  induction later with
  | nil => exact orderly
  | cons entry later ih => exact ih orderly.tail

theorem nodup (orderly : Orderly entries) : (live entries).Nodup := by
  induction orderly with
  | nil => exact List.nodup_nil
  | acquire fresh rest ih =>
    apply List.nodup_cons.mpr
    exact ⟨fun isLive => fresh (acquired_of_live isLive), ih⟩
  | release isLive rest ih => exact ih.erase _
  | use isLive rest ih => exact ih
  | forget released rest ih => exact ih

/-- A handle is live from its acquisition to its release. -/
theorem mem_live_iff (orderly : Orderly entries) :
    h ∈ live entries ↔ .acquire h ∈ entries ∧ .release h ∉ entries := by
  induction orderly with
  | nil => simp [live]
  | @acquire other earlier fresh rest ih =>
    have unreleased : Entry.release other ∉ earlier := by
      intro member
      obtain ⟨front, back, rfl⟩ := List.append_of_mem member
      cases rest.suffix with
      | release isLive _ =>
        apply fresh
        exact List.mem_append_right front (List.mem_cons_of_mem _ (acquired_of_live isLive))
    by_cases same : h = other
    · subst same
      simp [live, unreleased]
    · simp [live, ih, same]
  | @release other earlier isLive rest ih =>
    by_cases same : h = other
    · subst same
      simp [live, rest.nodup.not_mem_erase]
    · rw [live, List.mem_erase_of_ne same, ih]
      simp [same]
  | use isLive rest ih => simp [live, ih]
  | forget released rest ih => simp [live, ih]

/-- Nothing is released twice. -/
theorem released_once (orderly : Orderly (later ++ .release h :: earlier)) :
    .release h ∉ later ∧ .release h ∉ earlier := by
  have before : Entry.release h ∉ earlier := by
    cases orderly.suffix with
    | release isLive rest => exact (rest.mem_live_iff.mp isLive).2
  refine ⟨fun member => ?_, before⟩
  obtain ⟨front, back, rfl⟩ := List.append_of_mem member
  have again : Orderly (.release h :: (back ++ .release h :: earlier)) := by
    have shape : Orderly (front ++ (.release h :: (back ++ .release h :: earlier))) := by
      simpa using orderly
    exact shape.suffix
  cases again with
  | release isLive rest =>
    have gone := (rest.mem_live_iff.mp isLive).2
    exact gone (by simp)

/-- Nothing is used after its release. -/
theorem unused_after (orderly : Orderly (later ++ .release h :: earlier)) : .use h ∉ later := by
  intro member
  obtain ⟨front, back, rfl⟩ := List.append_of_mem member
  have again : Orderly (.use h :: (back ++ .release h :: earlier)) := by
    have shape : Orderly (front ++ (.use h :: (back ++ .release h :: earlier))) := by
      simpa using orderly
    exact shape.suffix
  cases again with
  | use isLive rest =>
    have gone := (rest.mem_live_iff.mp isLive).2
    exact gone (by simp)

end Orderly

/-- An orderly trace after which exactly `handles` are live. -/
structure Balanced (entries : List (Entry η)) (handles : List η) : Prop where
  orderly : Orderly entries
  exact_ : (live entries).Perm handles

namespace Balanced

variable {h : η} {entries : List (Entry η)} {handles : List η}

theorem nil : Balanced ([] : List (Entry η)) [] := ⟨.nil, .nil⟩

theorem perm {others : List η} (balanced : Balanced entries handles)
    (same : handles.Perm others) : Balanced entries others :=
  ⟨balanced.orderly, balanced.exact_.trans same⟩

theorem mem (balanced : Balanced entries handles) (member : h ∈ handles) : h ∈ live entries :=
  balanced.exact_.mem_iff.mpr member

theorem acquire (balanced : Balanced entries handles) (fresh : .acquire h ∉ entries) :
    Balanced (.acquire h :: entries) (h :: handles) :=
  ⟨.acquire fresh balanced.orderly, balanced.exact_.cons h⟩

theorem release (balanced : Balanced entries (h :: handles)) :
    Balanced (.release h :: entries) handles := by
  refine ⟨.release (balanced.mem List.mem_cons_self) balanced.orderly, ?_⟩
  have erased := balanced.exact_.erase h
  rwa [List.erase_cons_head] at erased

theorem use (balanced : Balanced entries handles) (member : h ∈ handles) :
    Balanced (.use h :: entries) handles :=
  ⟨.use (balanced.mem member) balanced.orderly, balanced.exact_⟩

theorem forget (balanced : Balanced entries handles) (released : .release h ∈ entries) :
    Balanced (.forget h :: entries) handles :=
  ⟨.forget released balanced.orderly, balanced.exact_⟩

end Balanced

end Ledger
