/-
Hierarchies that leave the built-in types alone.

A caller may declare supertypes of its own types only, which have nothing but a
name (`DeclaresNamed`). Then every other type keeps its levels
(`DeclaresNamed.levels_eq`): a walk from it meets built-in types alone. It is
assignable to just what it was before, too, and so are arrays of it
(`DeclaresNamed.isAssignable_eq`). No built-in superclass leads back to a
declared type, so the superclasses form no cycle when the declared ones alone
form none (`DeclaresNamed.acyclic_iff`).
-/
import Recast.Proofs.Hierarchy.Specificity

namespace Recast

/-- The type has a meaning of its own, or it is an array of such a type. -/
def Ty.isBuiltin : Ty → Bool
  | .named _ => false
  | .array component => component.isBuiltin
  | _ => true

namespace Hierarchy

open Relation

variable {h : Hierarchy} {s t u : Ty}

/-- Only types that are nothing but a name are declared. -/
def DeclaresNamed (h : Hierarchy) : Prop := ∀ t, h.isDeclared t → ∃ name, t = .named name

/-- The declaration of a type names the superclass. -/
def DeclaredSuperclass (h : Hierarchy) (t s : Ty) : Prop :=
  (h.declared.lookup t).bind (·.superclass) = some s

namespace DeclaresNamed

variable (hn : h.DeclaresNamed)

include hn

theorem isDeclared_eq_false (ht : ∀ name, t ≠ .named name) : h.isDeclared t = false := by
  rw [← Bool.not_eq_true]
  intro hd
  obtain ⟨name, rfl⟩ := hn t hd
  exact ht name rfl

theorem isDeclared_builtin : ∀ t ∈ Supertypes.builtinTypes, h.isDeclared t = false := by
  intro t ht
  refine hn.isDeclared_eq_false fun name heq => ?_
  simp [heq, Supertypes.builtinTypes] at ht

/-! ## Levels -/

theorem levels_eq (hs : ∀ name, s ≠ .named name) : h.levels s = empty.levels s := by
  rw [levels_builtin (List.forall_mem_cons.2 ⟨hn.isDeclared_eq_false hs, hn.isDeclared_builtin⟩),
    levels_builtin fun _ _ => rfl]

theorem ancestors_eq (hs : ∀ name, s ≠ .named name) : h.ancestors s = empty.ancestors s := by
  rw [ancestors, ancestors, hn.levels_eq hs]

/-! ## Assignability -/

/-- A type that is built in, or an array of one, is assignable to what it was before. -/
theorem isAssignable_eq {s : Ty} (hs : s.isBuiltin) (t : Ty) :
    h.isAssignable s t = empty.isAssignable s t := by
  have hname : ∀ name, s ≠ .named name := by
    intro name heq
    simp [heq, Ty.isBuiltin] at hs
  by_cases hnull : s = .null
  · by_cases ht : t = .null
    · simp [hnull, ht]
    · rw [hnull, isAssignable_null ht, isAssignable_null ht]
  by_cases hc : s.component? = none ∨ t.component? = none
  · rw [Bool.eq_iff_iff, isAssignable_iff_mem_ancestors hnull hc,
      isAssignable_iff_mem_ancestors hnull hc, hn.ancestors_eq hname]
  · -- both are arrays, and decided by their components
    rw [not_or] at hc
    match s, t with
    | .array c, .array d =>
      have hcomponents : c.isBuiltin := hs
      rw [isAssignable_array, isAssignable_array, isAssignable_eq hcomponents d]

/-! ## Cycles -/

theorem declaredSuperclass (hts : h.Superclass t s) (hsu : h.Superclass s u) :
    h.DeclaredSuperclass t s := by
  cases ht : h.isDeclared t with
  | true =>
    obtain ⟨n, hn⟩ := Option.isSome_iff_exists.1 ht
    rw [Superclass, node, hn] at hts
    rw [DeclaredSuperclass, hn]
    exact hts
  | false =>
    -- the superclass is a built-in one, and has none
    rw [Superclass, node_of_isDeclared_eq_false ht] at hts
    have hs : s ∈ (Supertypes.builtin t).all := List.mem_append_left _ (by simp [hts])
    rw [Superclass, node_of_isDeclared_eq_false (hn.isDeclared_builtin s (builtin_all_subset t hs)),
      builtin_superclass_eq_none hts] at hsu
    cases hsu

theorem acyclic_iff : h.Acyclic ↔ ∀ t, ¬TransGen h.DeclaredSuperclass t t := by
  have hsuperclass {t s : Ty} (hts : h.DeclaredSuperclass t s) : h.Superclass t s := by
    obtain ⟨n, hlookup, hs⟩ := Option.bind_eq_some_iff.1 hts
    rw [Superclass, node, hlookup]
    exact hs
  have hdeclared {t s u : Ty} (hts : TransGen h.Superclass t s) (hsu : h.Superclass s u) :
      TransGen h.DeclaredSuperclass t s := by
    induction hts generalizing u with
    | single hts => exact .single (hn.declaredSuperclass hts hsu)
    | tail _ hrs ih => exact .tail (ih hrs) (hn.declaredSuperclass hrs hsu)
  constructor
  · intro ha t ht
    exact ha t (ht.lift id fun _ _ => hsuperclass)
  · intro hd t ht
    obtain ⟨s, hts, -⟩ := TransGen.head'_iff.1 ht
    exact hd t (hdeclared ht hts)

end DeclaresNamed

end Hierarchy

end Recast
