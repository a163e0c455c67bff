/-!
# Stable sorting

Insertion sort by a Boolean order. Elements that the order does not tell apart keep their places.
-/

namespace PropertyWrapper.Sorting

variable {α : Type}

/-- An element placed before the first element that it does not exceed. -/
def insertStably (le : α → α → Bool) (x : α) : List α → List α
  | [] => [x]
  | y :: ys => if le x y then x :: y :: ys else y :: insertStably le x ys

/-- The elements of a list in ascending order. -/
def sortStably (le : α → α → Bool) : List α → List α
  | [] => []
  | x :: xs => insertStably le x (sortStably le xs)

/-- Inserting adds one element and keeps the others. -/
theorem insertStably_perm (le : α → α → Bool) (x : α) (xs : List α) :
    (insertStably le x xs).Perm (x :: xs) := by
  induction xs with
  | nil => exact .refl _
  | cons y ys ih =>
    rw [insertStably]
    split
    · exact .refl _
    · exact (ih.cons y).trans (.swap x y ys)

/-- Sorting keeps all elements. -/
theorem sortStably_perm (le : α → α → Bool) (xs : List α) : (sortStably le xs).Perm xs := by
  induction xs with
  | nil => exact .refl _
  | cons x xs ih => exact (insertStably_perm le x _).trans (ih.cons x)

end PropertyWrapper.Sorting
