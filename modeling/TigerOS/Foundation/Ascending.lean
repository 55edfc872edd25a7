import Mathlib.Data.List.TakeWhile

/-! # Ascending lists

Inserting an element after all smaller ones keeps a list ascending
(`Foundation.ascending_insert`).
-/

namespace Foundation

variable {α : Type*} {r : α → α → Prop} [DecidableRel r] {list : List α} {x : α}

/-- The element put after all smaller ones. -/
def insertAscending (r : α → α → Prop) [DecidableRel r] (x : α) (list : List α) : List α :=
  list.takeWhile (fun y => r y x) ++ x :: list.dropWhile (fun y => r y x)

@[simp] theorem mem_insertAscending {y : α} :
    y ∈ insertAscending r x list ↔ y = x ∨ y ∈ list := by
  have parts := List.takeWhile_append_dropWhile (p := fun y => decide (r y x)) (l := list)
  rw [insertAscending, List.mem_append, List.mem_cons, or_left_comm, ← List.mem_append, parts]

/-- **Insertion keeps a list ascending**, where the element differs from all
others. -/
theorem ascending_insert (trans : ∀ a ∈ list, ∀ b ∈ list, r x a → r a b → r x b)
    (ascending : list.Pairwise r) (comparable : ∀ y ∈ list, r y x ∨ r x y) :
    (insertAscending r x list).Pairwise r := by
  have before : ∀ y ∈ list.takeWhile (fun y => r y x), r y x := by
    intro y member
    have holds := List.mem_takeWhile_imp member
    simpa using holds
  have after : ∀ y ∈ list.dropWhile (fun y => r y x), r x y := by
    have sub := (List.dropWhile_suffix (fun y => decide (r y x)) (l := list)).sublist
    have rest := ascending.sublist sub
    cases tail : list.dropWhile (fun y => r y x) with
    | nil => simp
    | cons head tail' =>
        have stops : ¬ r head x := by
          have first := List.head_dropWhile_not (fun y => decide (r y x)) (l := list)
            (by simp [tail])
          simpa [tail] using first
        have head_after : r x head :=
          (comparable head (sub.subset (by simp [tail]))).resolve_left stops
        rw [tail, List.pairwise_cons] at rest
        intro y member
        rcases List.mem_cons.mp member with rfl | later
        · exact head_after
        · refine trans head ?_ y ?_ head_after (rest.1 y later)
          · exact sub.subset (by simp [tail])
          · exact sub.subset (by simp [tail, later])
  have parts := List.takeWhile_append_dropWhile (p := fun y => decide (r y x)) (l := list)
  rw [← parts, List.pairwise_append] at ascending
  rw [insertAscending, List.pairwise_append]
  refine ⟨ascending.1, List.pairwise_cons.mpr ⟨after, ascending.2.1⟩, ?_⟩
  intro y member z member'
  rcases List.mem_cons.mp member' with rfl | later
  · exact before y member
  · exact ascending.2.2 y member z later

end Foundation
