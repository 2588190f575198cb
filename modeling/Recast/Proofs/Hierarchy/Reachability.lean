/-
The ancestors of a type are what its direct supertypes lead to.

The walk over the levels skips what it has seen and is bounded by fuel, so
that it ends on every hierarchy, cyclic ones too. It misses nothing by that:
its layers go on as long as there is anything at the next distance
(`levels_breadth_first`). So the ancestors of a type are `any` and the types
that a path of direct supertypes reaches (`mem_ancestors_iff_reachable`), and
ancestors of ancestors are ancestors (`ancestors_trans`).
-/
import Recast.Proofs.Hierarchy.Layering

namespace Recast.Hierarchy

open Relation

variable {h : Hierarchy} {s t u : Ty} {seen : List Ty} {fuel : Nat}

/-! ## The line of a type -/

theorem reachable_of_mem_chainFrom (ht : t ≠ .any)
    (hs : s ∈ h.chainFrom fuel seen (h.node t).superclass) : ReflTransGen h.Direct t s := by
  induction fuel generalizing seen t with
  | zero => simp [chainFrom] at hs
  | succ fuel ih =>
    cases hn : (h.node t).superclass with
    | none => simp [hn] at hs
    | some v =>
      have hd : h.Direct t v := ⟨ht, List.mem_append_left _ (Option.mem_toList.2 hn)⟩
      simp only [hn, chainFrom] at hs
      split at hs
      · cases hs
      next hstop =>
        simp only [Bool.or_eq_true, decide_eq_true_eq, not_or] at hstop
        rcases List.mem_cons.1 hs with rfl | hs
        · exact .single hd
        · exact .head hd (ih hstop.1 hs)

theorem exists_distanceFrom_line_iff (ht : t ≠ .any) (hs : s ≠ .any) :
    (∃ n, h.DistanceFrom (t :: h.superclassChain t) n s) ↔ ReflTransGen h.Direct t s := by
  rw [exists_distanceFrom_iff]
  simp only [exists_path_iff hs]
  constructor
  · rintro ⟨u, hu, hr⟩
    rcases List.mem_cons.1 hu with rfl | hu
    · exact hr
    · exact (reachable_of_mem_chainFrom ht hu).trans hr
  · exact fun hr => ⟨t, List.mem_cons_self, hr⟩

/-! ## Ancestors -/

theorem mem_ancestors_iff_path (ht : t ≠ .null) :
    s ∈ h.ancestors t ↔ s = .any ∨ ∃ n, h.Path t n s := by
  by_cases hta : t = .any
  · subst hta
    have honly : ∀ n, h.Path .any n s → s = .any := by
      intro n hp
      induction hp with
      | refl => rfl
      | tail _ hd _ ih => exact absurd ih hd.1
    rw [ancestors, levels_of_bottom_or_top (.inr rfl)]
    simpa using honly
  by_cases hs : s = .any
  · rw [ancestors_of_inner ht hta]
    simp [hs]
  calc s ∈ h.ancestors t
      ↔ s ∈ t :: h.superclassChain t ∨ s ∈ (h.upperLayers t).flatten := by
        rw [ancestors_of_inner ht hta, List.mem_append, List.mem_append, List.mem_singleton,
          or_iff_left hs]
    _ ↔ ∃ n, h.DistanceFrom (t :: h.superclassChain t) n s := by
        rw [mem_flatten_upperLayers_iff hta, ← distanceFrom_zero_iff (h := h)]
        exact Nat.or_exists_add_one
    _ ↔ ∃ n, h.Path t n s := by rw [exists_distanceFrom_line_iff hta hs, exists_path_iff hs]
    _ ↔ s = .any ∨ ∃ n, h.Path t n s := by simp [hs]

/-- **The walk is exact.** Its ancestors of a type are `any` and the types that a path of direct
supertypes reaches. -/
theorem mem_ancestors_iff_reachable (ht : t ≠ .null) :
    s ∈ h.ancestors t ↔ s = .any ∨ ReflTransGen h.Direct t s := by
  rw [mem_ancestors_iff_path ht]
  by_cases hs : s = .any
  · simp [hs]
  · rw [exists_path_iff hs]

/-- The ancestors of a type are closed under direct supertypes. -/
theorem mem_ancestors_of_direct (hs : s ∈ h.ancestors t) (hd : h.Direct s u) (ht : t ≠ .null) :
    u ∈ h.ancestors t := by
  rw [mem_ancestors_iff_reachable ht] at hs ⊢
  exact .inr ((hs.resolve_left hd.1).tail hd)

/-- Ancestors of ancestors are ancestors. -/
theorem ancestors_trans (hs : s ∈ h.ancestors t) (hu : u ∈ h.ancestors s) (ht : t ≠ .null)
    (hsn : s ≠ .null) : u ∈ h.ancestors t := by
  rw [mem_ancestors_iff_reachable hsn] at hu
  rcases hu with rfl | hu
  · exact (mem_ancestors_iff_reachable ht).2 (.inl rfl)
  induction hu with
  | refl => exact hs
  | tail _ hd ih => exact mem_ancestors_of_direct ih hd ht

/-! ## Levels -/

/-- **The walk is breadth first.** The levels of a type are the type itself; its superclasses, one
by one; for every distance from these, from 1 on and as long as there are types at it, the types
at just that distance; and `any`. No type stands twice on them, all that can be reached stands on
them, and no fuel would find more. -/
theorem levels_breadth_first (h : Hierarchy) {t : Ty} (hn : t ≠ .null) (ha : t ≠ .any) :
    h.levels t = [t] :: (h.superclassChain t).map ([·]) ++ h.upperLayers t ++ [[.any]] ∧
    (∀ level ∈ h.upperLayers t, level ≠ []) ∧
    (∀ d s, s ∈ (h.upperLayers t).getD d [] ↔
      h.DistanceFrom (t :: h.superclassChain t) (d + 1) s) ∧
    (h.ancestors t).Nodup ∧
    (∀ s, s ∈ h.ancestors t ↔ s = .any ∨ ∃ n, h.Path t n s) ∧
    ∀ fuel, h.fuel ≤ fuel →
      h.chainFrom fuel [t] (h.node t).superclass = h.superclassChain t ∧
      h.layers fuel (.any :: t :: h.superclassChain t)
        ((t :: h.superclassChain t).flatMap fun t => (h.node t).interfaces) = h.upperLayers t := by
  refine ⟨levels_of_inner hn ha, fun _ => ne_nil_of_mem_layers, fun _ _ => mem_upperLayers_iff ha,
    nodup_ancestors h t, fun _ => mem_ancestors_iff_path hn, fun fuel hle => ⟨?_, ?_⟩⟩
  · exact chainFrom_of_le (fuelled_self h t) (List.subset_cons_self _ _)
      (fun s hs => List.mem_cons_of_mem _ (Superclass.mem_known hs)) hle
  · exact layers_of_le (fuelled_line ha) (known_subset h t) (interfaces_subset h t _) hle

/-- Superclasses that form a cycle, an interface on two ways, and one below the type itself: three
steps above the cycle stands what the last interface adds. -/
theorem levels_breadth_first_ring :
    let square : Ty := .named "Square"
    let rect : Ty := .named "Rect"
    let label : Ty := .named "Label"
    let quad : Ty := .named "Quad"
    let polygon : Ty := .named "Polygon"
    let shape : Ty := .named "Shape"
    let h : Hierarchy := ⟨[(square, ⟨some rect, [label]⟩), (rect, ⟨some square, [quad]⟩),
      (quad, ⟨some polygon, [label, .any]⟩), (polygon, ⟨none, [square, shape]⟩)]⟩
    square ≠ .null ∧ square ≠ .any ∧
      h.levels square = [[square], [rect], [label, quad], [polygon], [shape], [.any]] ∧
      h.DistanceFrom [square, rect] 3 shape := by
  intro square rect label quad polygon shape h
  have hn : square ≠ .null := by decide
  have ha : square ≠ .any := by decide
  obtain ⟨-, -, hdistance, -⟩ := levels_breadth_first h hn ha
  have hchain : h.superclassChain square = [rect] := by decide +kernel
  have hlayer : shape ∈ (h.upperLayers square).getD 2 [] := by decide +kernel
  refine ⟨hn, ha, by decide +kernel, ?_⟩
  exact hchain ▸ (hdistance 2 shape).1 hlayer

end Recast.Hierarchy
