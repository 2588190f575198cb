/-
Sorting by insertion. Each element in turn moves from the back past the
elements that it is less than, so equal elements keep their order.
-/

namespace Recast

/-- Puts `x` into a list that is sorted from the greatest down: behind every element it is less
than. -/
def insertDown (less : α → α → Bool) (x : α) : List α → List α
  | [] => [x]
  | y :: ys => if less x y then y :: insertDown less x ys else x :: y :: ys

/-- The elements in ascending order. -/
def sortBy (less : α → α → Bool) (xs : List α) : List α :=
  (xs.foldl (fun sorted x => insertDown less x sorted) []).reverse

theorem insertDown_perm (less : α → α → Bool) (x : α) (ys : List α) :
    (insertDown less x ys).Perm (x :: ys) := by
  induction ys with
  | nil => exact .refl _
  | cons y ys ih =>
    unfold insertDown
    split
    · exact (ih.cons y).trans (.swap x y ys)
    · exact .refl _

/-- Sorting neither loses nor adds an element. -/
theorem sortBy_perm (less : α → α → Bool) (xs : List α) : (sortBy less xs).Perm xs := by
  have go (acc : List α) : ∀ xs : List α,
      (xs.foldl (fun sorted x => insertDown less x sorted) acc).Perm (xs ++ acc) := by
    intro xs
    induction xs generalizing acc with
    | nil => exact .refl _
    | cons x xs ih =>
      refine (ih _).trans ?_
      refine ((insertDown_perm less x acc).append_left xs).trans ?_
      simp [List.perm_middle]
  refine (List.reverse_perm _).trans ?_
  simpa using go [] xs

@[simp] theorem length_sortBy (less : α → α → Bool) (xs : List α) :
    (sortBy less xs).length = xs.length := (sortBy_perm less xs).length_eq

end Recast
