/-
  EntityFormulas/Collection/Ascending.lean
  ========================================
  **Finite sets as ascending lists.**

  Sets that an answer shows (entity ids, property names, paths, traversals) are
  lists in ascending order without repetition.  `insertAscending` adds one
  member and `ascending` orders a whole list; both keep exactly the members
  given (`mem_insertAscending`, `mem_ascending`) and their result ascends
  strictly (`ascending_pairwise`).
-/

namespace EntityFormulas

universe u

variable {α : Type u} [LT α] [DecidableLT α]

/-- Adds a member to an ascending list. -/
def insertAscending (x : α) : List α → List α
  | [] => [x]
  | y :: ys => if x < y then x :: y :: ys else if y < x then y :: insertAscending x ys else y :: ys

/-- The members of a list in ascending order, each once. -/
def ascending (xs : List α) : List α := xs.foldr insertAscending []

/-! ### Laws -/

section Laws

variable [Std.Trichotomous (α := α) (· < ·)]

theorem mem_insertAscending {x z : α} {ys : List α} :
    z ∈ insertAscending x ys ↔ z = x ∨ z ∈ ys := by
  induction ys with
  | nil => simp [insertAscending]
  | cons y ys ih =>
    simp only [insertAscending]
    split
    · simp
    · split
      · simp only [List.mem_cons, ih]; exact or_left_comm
      · rename_i hxy hyx
        have := Std.Trichotomous.trichotomous (r := (· < · : α → α → Prop)) x y hxy hyx
        subst this; simp

theorem mem_ascending {z : α} {xs : List α} : z ∈ ascending xs ↔ z ∈ xs := by
  induction xs with
  | nil => simp [ascending]
  | cons x xs ih => simpa [ascending, mem_insertAscending] using or_congr_right ih

theorem insertAscending_pairwise [Trans (α := α) (· < ·) (· < ·) (· < ·)] {x : α} {ys : List α}
    (h : ys.Pairwise (· < ·)) : (insertAscending x ys).Pairwise (· < ·) := by
  induction ys with
  | nil => simp [insertAscending]
  | cons y ys ih =>
    have hy := List.pairwise_cons.1 h
    simp only [insertAscending]
    split
    · rename_i hxy
      refine List.pairwise_cons.2 ⟨fun z hz => ?_, h⟩
      rcases List.mem_cons.1 hz with rfl | hz
      · exact hxy
      · exact Trans.trans hxy (hy.1 z hz)
    · split
      · rename_i hyx
        refine List.pairwise_cons.2 ⟨fun z hz => ?_, ih hy.2⟩
        rcases mem_insertAscending.1 hz with rfl | hz
        · exact hyx
        · exact hy.1 z hz
      · exact h

theorem ascending_pairwise [Trans (α := α) (· < ·) (· < ·) (· < ·)] (xs : List α) :
    (ascending xs).Pairwise (· < ·) := by
  induction xs with
  | nil => exact List.Pairwise.nil
  | cons x xs ih => exact insertAscending_pairwise ih

end Laws

end EntityFormulas
