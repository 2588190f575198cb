/-
Declarations are local.

A walk looks up the supertypes of what it meets, and of nothing else. So two
hierarchies that agree on the ancestors of a type give it the same levels
(`levels_congr`), on a cycle too: the walks are compared step by step, and what
they have seen is the same at every step. Their fuel is not, as a declaration
adds to the types that are known; both are given that of the two together.

To declare the supertypes of a type that is not an ancestor of another leaves
the other as it was (`declare_local`). Assignability follows the levels but for
arrays, which are compared by their components, so there the types nested in
the source count too.
-/
import Recast.Proofs.Hierarchy.Specificity

namespace Recast

/-- The types nested in an array type: its component, the component of that, and so on. -/
def Ty.nested : Ty → List Ty
  | .array component => component :: component.nested
  | _ => []

namespace Hierarchy

variable {h h' : Hierarchy} {k s t x y : Ty} {seen frontier : List Ty} {fuel : Nat}

/-! ## Two walks, step by step -/

theorem chainFrom_congr {next : Option Ty}
    (hagree : ∀ s ∈ h.chainFrom fuel seen next, h'.node s = h.node s) :
    h'.chainFrom fuel seen next = h.chainFrom fuel seen next := by
  induction fuel generalizing seen next with
  | zero => rfl
  | succ fuel ih =>
    cases next with
    | none => rfl
    | some t =>
      simp only [chainFrom] at hagree ⊢
      split
      · rfl
      next hstop =>
        rw [if_neg hstop, List.forall_mem_cons] at hagree
        rw [hagree.1, ih hagree.2]

theorem layers_congr (hagree : ∀ s ∈ (h.layers fuel seen frontier).flatten, h'.node s = h.node s) :
    h'.layers fuel seen frontier = h.layers fuel seen frontier := by
  induction fuel generalizing seen frontier with
  | zero => rfl
  | succ fuel ih =>
    simp only [layers] at hagree ⊢
    split at hagree
    next => rfl
    next hne =>
      rw [List.flatten_cons, List.forall_mem_append] at hagree
      -- The next frontier is read off this layer, where the two agree.
      have hnext : ((fresh seen frontier).flatMap fun t => (h'.node t).all) =
          (fresh seen frontier).flatMap fun t => (h.node t).all :=
        List.flatMap_congr fun s hs => by rw [hagree.1 s hs]
      rw [hnext, ih hagree.2]

/-! ## Levels -/

theorem superclassChain_of_le (hle : h.fuel ≤ fuel) (t : Ty) :
    h.chainFrom fuel [t] (h.node t).superclass = h.superclassChain t :=
  chainFrom_of_le (fuelled_self h t) (List.subset_cons_self _ _)
    (fun _ hs => List.mem_cons_of_mem _ (Superclass.mem_known hs)) hle

theorem upperLayers_of_le (hle : h.fuel ≤ fuel) (ht : t ≠ .any) :
    h.layers fuel (.any :: t :: h.superclassChain t)
      ((t :: h.superclassChain t).flatMap fun t => (h.node t).interfaces) = h.upperLayers t :=
  layers_of_le (fuelled_line ht) (known_subset h t) (interfaces_subset h t _) hle

theorem superclassChain_congr
    (hagree : ∀ s ∈ t :: h.superclassChain t, h'.node s = h.node s) :
    h'.superclassChain t = h.superclassChain t := by
  obtain ⟨hself, hchain⟩ := List.forall_mem_cons.1 hagree
  have hle : h.fuel ≤ h.fuel + h'.fuel := Nat.le_add_right _ _
  rw [← superclassChain_of_le hle] at hchain
  -- Each walk has the fuel of its own hierarchy; with that of both they go step by step alike.
  calc h'.superclassChain t
      = h'.chainFrom (h.fuel + h'.fuel) [t] (h'.node t).superclass :=
        (superclassChain_of_le (Nat.le_add_left _ _) t).symm
    _ = h'.chainFrom (h.fuel + h'.fuel) [t] (h.node t).superclass := by rw [hself]
    _ = h.chainFrom (h.fuel + h'.fuel) [t] (h.node t).superclass := chainFrom_congr hchain
    _ = h.superclassChain t := superclassChain_of_le hle t

theorem upperLayers_congr (ht : t ≠ .any)
    (hline : ∀ s ∈ t :: h.superclassChain t, h'.node s = h.node s)
    (hupper : ∀ s ∈ (h.upperLayers t).flatten, h'.node s = h.node s) :
    h'.upperLayers t = h.upperLayers t := by
  have hle : h.fuel ≤ h.fuel + h'.fuel := Nat.le_add_right _ _
  have hchain : h'.superclassChain t = h.superclassChain t := superclassChain_congr hline
  have hfrontier : ((t :: h.superclassChain t).flatMap fun t => (h'.node t).interfaces) =
      (t :: h.superclassChain t).flatMap fun t => (h.node t).interfaces :=
    List.flatMap_congr fun s hs => by rw [hline s hs]
  rw [← upperLayers_of_le hle ht] at hupper
  rw [← upperLayers_of_le (Nat.le_add_left h'.fuel h.fuel) ht, hchain, hfrontier,
    layers_congr hupper, upperLayers_of_le hle ht]

/-- Hierarchies that agree on the ancestors of a type give it the same levels. -/
theorem levels_congr (hagree : ∀ s ∈ h.ancestors t, h'.node s = h.node s) :
    h'.levels t = h.levels t := by
  by_cases ht : t = .null ∨ t = .any
  · rw [levels_of_bottom_or_top ht, levels_of_bottom_or_top ht]
  rw [not_or] at ht
  rw [ancestors_of_inner ht.1 ht.2, List.forall_mem_append, List.forall_mem_append] at hagree
  obtain ⟨⟨hline, hupper⟩, -⟩ := hagree
  rw [levels_of_inner ht.1 ht.2, levels_of_inner ht.1 ht.2, superclassChain_congr hline]
  have hlayers := upperLayers_congr ht.2 hline hupper
  rw [upperLayers, superclassChain_congr hline] at hlayers
  rw [hlayers]

/-! ## Assignability -/

theorem isAssignable_congr (hc : x.component? = none ∨ y.component? = none)
    (hancestors : h'.ancestors x = h.ancestors x) : h'.isAssignable x y = h.isAssignable x y := by
  by_cases hx : x = .null
  · subst hx
    by_cases hy : y = .null
    · simp [hy]
    · rw [isAssignable_null hy, isAssignable_null hy]
  · rw [Bool.eq_iff_iff, isAssignable_iff_mem_ancestors hx hc,
      isAssignable_iff_mem_ancestors hx hc, hancestors]

theorem isAssignable_congr_of_nested {x : Ty}
    (hancestors : ∀ t ∈ x :: x.nested, h'.ancestors t = h.ancestors t) (y : Ty) :
    h'.isAssignable x y = h.isAssignable x y := by
  by_cases hc : x.component? = none ∨ y.component? = none
  · exact isAssignable_congr hc (hancestors x List.mem_cons_self)
  rw [not_or] at hc
  match x, y with
  | .array c, .array d =>
    rw [isAssignable_array, isAssignable_array]
    exact isAssignable_congr_of_nested (fun t ht => hancestors t (List.mem_cons_of_mem _ ht)) d

/-! ## Declarations -/

theorem node_declare_of_ne (n : Supertypes) (hs : s ≠ k) : (h.declare k n).node s = h.node s := by
  simp [node, declare, List.lookup_cons, beq_false_of_ne hs]

theorem levels_declare (n : Supertypes) (hk : k ∉ h.ancestors t) :
    (h.declare k n).levels t = h.levels t :=
  levels_congr fun _ hs => node_declare_of_ne n fun heq => hk (heq ▸ hs)

theorem ancestors_declare (n : Supertypes) (hk : k ∉ h.ancestors t) :
    (h.declare k n).ancestors t = h.ancestors t := by
  rw [ancestors, ancestors, levels_declare n hk]

/-- **Declarations are local.** To declare supertypes for a type that is not an ancestor of `x`
leaves the levels and ancestors of `x` as they were, and all that `x` is assignable to unless both
types are arrays; for two array types too when the type is no ancestor of any type nested in `x`. -/
theorem declare_local (n : Supertypes) (hk : k ∉ h.ancestors x) :
    (h.declare k n).levels x = h.levels x ∧
      (h.declare k n).ancestors x = h.ancestors x ∧
      (∀ y, x.component? = none ∨ y.component? = none →
        (h.declare k n).isAssignable x y = h.isAssignable x y) ∧
      ((∀ t ∈ x.nested, k ∉ h.ancestors t) →
        ∀ y, (h.declare k n).isAssignable x y = h.isAssignable x y) := by
  refine ⟨levels_declare n hk, ancestors_declare n hk, fun y hc => ?_, fun hnested => ?_⟩
  · exact isAssignable_congr hc (ancestors_declare n hk)
  · refine isAssignable_congr_of_nested fun t ht => ancestors_declare n ?_
    rcases List.mem_cons.1 ht with rfl | ht
    · exact hk
    · exact hnested t ht

/-- Superclasses that form a cycle, and a type that is put below it: arrays of arrays of a square
are still arrays of arrays of a label. To declare the square anew is no such declaration for them,
although it is no ancestor of the array type. -/
theorem declare_local_ring :
    let square : Ty := .named "Square"
    let rect : Ty := .named "Rect"
    let label : Ty := .named "Label"
    let tile : Ty := .named "Tile"
    let grid (t : Ty) : Ty := .array (.array t)
    let h : Hierarchy := ⟨[(square, ⟨some rect, [label]⟩), (rect, ⟨some square, []⟩)]⟩
    tile ∉ h.ancestors (grid square) ∧ (∀ t ∈ (grid square).nested, tile ∉ h.ancestors t) ∧
      (h.declare tile ⟨some square, [grid square]⟩).isAssignable (grid square) (grid label) = true ∧
      square ∉ h.ancestors (grid square) ∧
      (h.declare square {}).isAssignable (grid square) (grid label) = false := by
  intro square rect label tile grid h
  have hk : tile ∉ h.ancestors (grid square) := by decide +kernel
  have hnested : ∀ t ∈ (grid square).nested, tile ∉ h.ancestors t := by decide +kernel
  obtain ⟨-, -, -, harrays⟩ := declare_local ⟨some square, [grid square]⟩ hk
  have hsame := harrays hnested (grid label)
  exact ⟨hk, hnested, hsame.trans (by decide +kernel), by decide +kernel, by decide +kernel⟩

end Hierarchy

end Recast
