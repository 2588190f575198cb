/-
Sorting by an order that is linear on the elements gives them in ascending
order, and so in the only way that the same elements can be put: two lists are
sorted into the same one when each is a rearrangement of the other.
-/
import Recast.Sorting

namespace Recast

variable {α : Type} {P : α → Prop} {less : α → α → Bool} {x : α} {xs ys : List α}

/-- `less` puts the elements that satisfy `P` in a line. -/
structure LinearOn (P : α → Prop) (less : α → α → Bool) : Prop where
  asymm : ∀ x y, P x → P y → less x y = true → less y x = false
  trans : ∀ x y z, P x → P y → P z → less x y = false → less y z = false → less x z = false
  antisymm : ∀ x y, P x → P y → less x y = false → less y x = false → x = y

theorem pairwise_insertDown (hless : LinearOn P less) (hx : P x) (hys : ∀ y ∈ ys, P y)
    (hsorted : ys.Pairwise fun y z => less y z = false) :
    (insertDown less x ys).Pairwise fun y z => less y z = false := by
  induction ys with
  | nil => simp [insertDown]
  | cons y ys ih =>
    rw [List.forall_mem_cons] at hys
    rw [List.pairwise_cons] at hsorted
    unfold insertDown
    split
    · next hlt =>
      refine List.pairwise_cons.2 ⟨fun z hz => ?_, ih hys.2 hsorted.2⟩
      rcases List.mem_cons.1 ((insertDown_perm less x ys).mem_iff.1 hz) with rfl | hz
      · exact hless.asymm _ _ hx hys.1 hlt
      · exact hsorted.1 z hz
    · next hle =>
      rw [Bool.not_eq_true] at hle
      refine List.pairwise_cons.2 ⟨List.forall_mem_cons.2 ⟨hle, fun z hz => ?_⟩,
        List.pairwise_cons.2 hsorted⟩
      exact hless.trans _ _ _ hx hys.1 (hys.2 z hz) hle (hsorted.1 z hz)

theorem pairwise_sortBy (hless : LinearOn P less) (hxs : ∀ x ∈ xs, P x) :
    (sortBy less xs).Pairwise fun x y => less y x = false := by
  have go (sorted : List α) (hP : ∀ x ∈ sorted, P x)
      (hsorted : sorted.Pairwise fun x y => less x y = false) :
      (xs.foldl (fun sorted x => insertDown less x sorted) sorted).Pairwise
        fun x y => less x y = false := by
    induction xs generalizing sorted with
    | nil => exact hsorted
    | cons x xs ih =>
      rw [List.forall_mem_cons] at hxs
      refine ih hxs.2 _ (fun y hy => ?_) (pairwise_insertDown hless hxs.1 hP hsorted)
      rcases List.mem_cons.1 ((insertDown_perm less x sorted).mem_iff.1 hy) with rfl | hy
      · exact hxs.1
      · exact hP y hy
  exact List.pairwise_reverse.2 (go [] (by simp) .nil)

/-- Elements in a line are sorted in one way, wherever they stood before. -/
theorem sortBy_eq_of_perm (hless : LinearOn P less) (hxs : ∀ x ∈ xs, P x) (h : xs.Perm ys) :
    sortBy less xs = sortBy less ys := by
  have hpermx := sortBy_perm less xs
  have hpermy := sortBy_perm less ys
  have hys : ∀ y ∈ ys, P y := fun y hy => hxs y (h.mem_iff.2 hy)
  refine List.Perm.eq_of_pairwise (fun x y hx hy hxy hyx => ?_) (pairwise_sortBy hless hxs)
    (pairwise_sortBy hless hys) ((hpermx.trans h).trans hpermy.symm)
  exact hless.antisymm x y (hxs x (hpermx.mem_iff.1 hx)) (hys y (hpermy.mem_iff.1 hy)) hyx hxy

theorem perm_of_sortBy_eq (h : sortBy less xs = sortBy less ys) : xs.Perm ys :=
  (sortBy_perm less xs).symm.trans (h ▸ sortBy_perm less ys)

end Recast
