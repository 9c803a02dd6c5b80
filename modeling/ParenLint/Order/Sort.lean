/-!
# Stable sorting

Sorting by insertion. Items that the order does not tell apart keep the order in which they were.
-/

namespace ParenLint

variable {α : Type}

/-- Put an item in front of the first that does not have to come before it. -/
def insertBy (le : α → α → Bool) (x : α) : List α → List α
  | [] => [x]
  | y :: ys => if le x y then x :: y :: ys else y :: insertBy le x ys

/-- The items in ascending order. -/
def sortBy (le : α → α → Bool) (xs : List α) : List α := xs.foldr (insertBy le) []

@[simp] theorem mem_insertBy {le : α → α → Bool} {x z : α} {ys : List α} :
    z ∈ insertBy le x ys ↔ z = x ∨ z ∈ ys := by
  induction ys with
  | nil => simp [insertBy]
  | cons y ys ih =>
    rw [insertBy]
    split
    · simp
    · simp only [List.mem_cons, ih]
      exact or_left_comm

/-- Sorting keeps the items. -/
@[simp] theorem mem_sortBy {le : α → α → Bool} {z : α} {xs : List α} :
    z ∈ sortBy le xs ↔ z ∈ xs := by
  induction xs with
  | nil => simp [sortBy]
  | cons x xs ih =>
    have h : sortBy le (x :: xs) = insertBy le x (sortBy le xs) := rfl
    rw [h, mem_insertBy, ih, List.mem_cons]

end ParenLint
