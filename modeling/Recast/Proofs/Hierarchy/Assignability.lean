/-
When a type is assignable to another.

Assignability is decided by cases: a type is assignable to itself, null to
nothing else, everything else to `any`, arrays as their components are, and
the remaining types to their ancestors.
-/
import Recast.Hierarchy

namespace Recast.Hierarchy

variable {h : Hierarchy} {s t : Ty}

@[simp] theorem isAssignable_refl (h : Hierarchy) (t : Ty) : h.isAssignable t t = true := by
  unfold isAssignable
  simp

/-- Null is assignable to nothing but its own type. -/
theorem isAssignable_null (ht : t ≠ .null) : h.isAssignable .null t = false := by
  unfold isAssignable
  simp [Ne.symm ht]

theorem isAssignable_any (hs : s ≠ .null) : h.isAssignable s .any = true := by
  cases s with
  | null => exact absurd rfl hs
  | _ => simp [isAssignable]

/-- Arrays are covariant. -/
@[simp] theorem isAssignable_array (h : Hierarchy) (s t : Ty) :
    h.isAssignable (.array s) (.array t) = h.isAssignable s t := by
  by_cases heq : s = t
  · subst heq
    simp only [isAssignable_refl]
  · rw [isAssignable]
    simp [heq]

end Recast.Hierarchy
