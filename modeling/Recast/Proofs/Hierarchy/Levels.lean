/-
The levels of a type: what stands on them, and that nothing stands on them
twice.

The superclass chain and the layers above it are walks that skip what they
have seen, so no type occurs twice on the levels of a type
(`nodup_ancestors`). What they meet is known to the hierarchy: apart from the
type itself and `any`, a type has ancestors only among the declared types,
their declared supertypes and the built-in supertypes (`mem_ancestors`). The
chain misses no superclass: that of a type on it is on it too, or is `any`
(`superclass_mem_line`).
-/
import Recast.Proofs.Hierarchy.Superclass

namespace Recast.Hierarchy

variable {h : Hierarchy} {s t : Ty}

/-! ## The chain of superclasses -/

@[simp] theorem chainFrom_none (h : Hierarchy) (fuel : Nat) (seen : List Ty) :
    h.chainFrom fuel seen none = [] := by
  cases fuel <;> rfl

theorem mem_chainFrom {fuel : Nat} {seen : List Ty} {next : Option Ty}
    (hs : s ∈ h.chainFrom fuel seen next) :
    s ≠ .any ∧ s ∉ seen ∧ (next = some s ∨ s ∈ h.known) := by
  induction fuel generalizing seen next with
  | zero => simp [chainFrom] at hs
  | succ fuel ih =>
    cases next with
    | none => simp [chainFrom] at hs
    | some t =>
      simp only [chainFrom] at hs
      split at hs
      · simp at hs
      next hstop =>
      simp only [Bool.or_eq_true, decide_eq_true_eq, List.contains_iff_mem, not_or] at hstop
      rcases List.mem_cons.1 hs with rfl | hs
      · exact ⟨hstop.1, hstop.2, .inl rfl⟩
      obtain ⟨hany, hseen, hnext⟩ := ih hs
      refine ⟨hany, fun hm => hseen (List.mem_cons_of_mem _ hm), .inr ?_⟩
      rcases hnext with hnext | hk
      · exact Superclass.mem_known (h := h) (t := t) hnext
      · exact hk

theorem nodup_chainFrom (h : Hierarchy) (fuel : Nat) (seen : List Ty) (next : Option Ty) :
    (h.chainFrom fuel seen next).Nodup := by
  induction fuel generalizing seen next with
  | zero => exact .nil
  | succ fuel ih =>
    cases next with
    | none => exact .nil
    | some t =>
      simp only [chainFrom]
      split
      · exact .nil
      · exact List.nodup_cons.2 ⟨fun ht => (mem_chainFrom ht).2.1 List.mem_cons_self, ih _ _⟩

theorem mem_superclassChain (hs : s ∈ h.superclassChain t) : s ≠ .any ∧ s ≠ t ∧ s ∈ h.known := by
  obtain ⟨hany, hseen, hnext⟩ := mem_chainFrom hs
  refine ⟨hany, by simpa using hseen, ?_⟩
  rcases hnext with hnext | hk
  · exact Superclass.mem_known hnext
  · exact hk

theorem nodup_line (ht : t ≠ .any) : (Ty.any :: t :: h.superclassChain t).Nodup := by
  rw [List.nodup_cons, List.nodup_cons, List.mem_cons, not_or]
  exact ⟨⟨Ne.symm ht, fun hm => (mem_superclassChain hm).1 rfl⟩,
    fun hm => (mem_superclassChain hm).2.1 rfl, nodup_chainFrom _ _ _ _⟩

theorem superclass_mem_chainFrom {us seen : List Ty} {fuel : Nat} {next : Option Ty}
    (hf : Fuelled us fuel seen) (hus : h.known ⊆ us) (hnext : ∀ v, next = some v → v ∈ us) :
    (∀ v, next = some v → v = .any ∨ v ∈ seen ∨ v ∈ h.chainFrom fuel seen next) ∧
      ∀ x ∈ h.chainFrom fuel seen next, ∀ v, h.Superclass x v →
        v = .any ∨ v ∈ seen ∨ v ∈ h.chainFrom fuel seen next := by
  induction fuel generalizing seen next with
  | zero => exact absurd rfl hf.ne_zero
  | succ fuel ih =>
    cases next with
    | none => simp [chainFrom]
    | some t =>
      simp only [chainFrom]
      split
      next hstop =>
        simp only [Bool.or_eq_true, decide_eq_true_eq, List.contains_iff_mem] at hstop
        refine ⟨?_, by simp⟩
        rintro v ⟨⟩
        exact hstop.imp_right .inl
      next hstop =>
      simp only [Bool.or_eq_true, decide_eq_true_eq, List.contains_iff_mem, not_or] at hstop
      obtain ⟨hfirst, hrest⟩ := ih (hf.cons (hnext t rfl) hstop.2)
        (fun v hv => hus (Superclass.mem_known (t := t) hv))
      -- What lies behind `t` is now in front of it, or `t` itself.
      have hmove : ∀ v, (v = .any ∨ v ∈ t :: seen ∨
            v ∈ h.chainFrom fuel (t :: seen) (h.node t).superclass) →
          v = .any ∨ v ∈ seen ∨
            v ∈ t :: h.chainFrom fuel (t :: seen) (h.node t).superclass := by
        simp only [List.mem_cons]
        tauto
      refine ⟨?_, fun x hx v hv => hmove v ?_⟩
      · rintro v ⟨⟩
        exact .inr (.inr List.mem_cons_self)
      rcases List.mem_cons.1 hx with rfl | hx
      · exact hfirst v hv
      · exact hrest x hx v hv

/-- The superclass of a type on the line from `t` upwards is on that line, or `any`. -/
theorem superclass_mem_line {u : Ty} (hs : s ∈ t :: h.superclassChain t)
    (hu : h.Superclass s u) : u ∈ Ty.any :: t :: h.superclassChain t := by
  obtain ⟨hfirst, hrest⟩ := superclass_mem_chainFrom (fuelled_self h t)
    (List.subset_cons_self _ _)
    (fun v hv => List.mem_cons_of_mem _ (Superclass.mem_known (t := t) hv))
  have hmet : u = .any ∨ u ∈ [t] ∨ u ∈ h.superclassChain t := by
    rcases List.mem_cons.1 hs with rfl | hs
    · exact hfirst u hu
    · exact hrest s hs u hu
  simpa using hmet

/-! ## Layers -/

theorem mem_fresh {seen ts : List Ty} : t ∈ fresh seen ts ↔ t ∈ ts ∧ t ∉ seen := by
  induction ts generalizing seen with
  | nil => simp [fresh]
  | cons u ts ih =>
    simp only [fresh]
    split
    next hu =>
      rw [List.contains_iff_mem] at hu
      rw [ih, List.mem_cons]
      refine ⟨fun ⟨ht, hs⟩ => ⟨.inr ht, hs⟩, fun ⟨ht, hs⟩ => ⟨?_, hs⟩⟩
      rcases ht with rfl | ht
      · exact absurd hu hs
      · exact ht
    next hu =>
      rw [List.contains_iff_mem] at hu
      rw [List.mem_cons, ih, List.mem_cons, List.mem_cons, not_or]
      constructor
      · rintro (rfl | ⟨ht, -, hs⟩)
        · exact ⟨.inl rfl, hu⟩
        · exact ⟨.inr ht, hs⟩
      · rintro ⟨rfl | ht, hs⟩
        · exact .inl rfl
        · by_cases hut : t = u
          · exact .inl hut
          · exact .inr ⟨ht, hut, hs⟩

theorem nodup_fresh (seen ts : List Ty) : (fresh seen ts).Nodup := by
  induction ts generalizing seen with
  | nil => exact .nil
  | cons t ts ih =>
    simp only [fresh]
    split
    · exact ih _
    · exact List.nodup_cons.2 ⟨fun ht => (mem_fresh.1 ht).2 List.mem_cons_self, ih _⟩

theorem mem_layers {fuel : Nat} {seen frontier : List Ty}
    (hs : s ∈ (h.layers fuel seen frontier).flatten) :
    s ∉ seen ∧ (s ∈ frontier ∨ s ∈ h.known) := by
  induction fuel generalizing seen frontier with
  | zero => simp [layers] at hs
  | succ fuel ih =>
    simp only [layers] at hs
    split at hs
    · simp at hs
    rw [List.flatten_cons, List.mem_append] at hs
    rcases hs with hs | hs
    · obtain ⟨hf, hseen⟩ := mem_fresh.1 hs
      exact ⟨hseen, .inl hf⟩
    obtain ⟨hseen, hfrom⟩ := ih hs
    refine ⟨fun hm => hseen (List.mem_append_right _ hm), .inr ?_⟩
    rcases hfrom with hf | hk
    · obtain ⟨u, -, hu⟩ := List.mem_flatMap.1 hf
      exact mem_known_of_node hu
    · exact hk

theorem nodup_layers (h : Hierarchy) (fuel : Nat) (seen frontier : List Ty) :
    (h.layers fuel seen frontier).flatten.Nodup := by
  induction fuel generalizing seen frontier with
  | zero => exact .nil
  | succ fuel ih =>
    simp only [layers]
    split
    · exact .nil
    rw [List.flatten_cons, List.nodup_append']
    refine ⟨nodup_fresh _ _, ih _ _, fun t ht ht' => ?_⟩
    exact (mem_layers ht').1 (List.mem_append_left _ ht)

/-! ## Levels -/

theorem levels_of_bottom_or_top (ht : t = .null ∨ t = .any) : h.levels t = [[t]] := by
  rw [levels, if_pos (by simpa using ht)]

theorem levels_of_inner (hn : t ≠ .null) (ha : t ≠ .any) :
    h.levels t = (t :: h.superclassChain t).map ([·]) ++
      h.layers h.fuel (.any :: t :: h.superclassChain t)
        ((t :: h.superclassChain t).flatMap fun t => (h.node t).interfaces) ++ [[.any]] := by
  rw [levels, if_neg (by simp [hn, ha])]

theorem levels_head (h : Hierarchy) (t : Ty) : (h.levels t).head? = some [t] := by
  by_cases ht : t = .null ∨ t = .any
  · rw [levels_of_bottom_or_top ht, List.head?_cons]
  · rw [not_or] at ht
    rw [levels_of_inner ht.1 ht.2, List.map_cons, List.cons_append, List.cons_append,
      List.head?_cons]

theorem self_mem_ancestors (h : Hierarchy) (t : Ty) : t ∈ h.ancestors t :=
  List.mem_flatten.2 ⟨[t], List.mem_of_mem_head? (levels_head h t), List.mem_singleton_self t⟩

theorem ancestors_of_inner (hn : t ≠ .null) (ha : t ≠ .any) :
    h.ancestors t = (t :: h.superclassChain t) ++
      (h.layers h.fuel (.any :: t :: h.superclassChain t)
        ((t :: h.superclassChain t).flatMap fun t => (h.node t).interfaces)).flatten ++ [.any] := by
  have hline : ∀ ts : List Ty, (ts.map ([·])).flatten = ts := fun ts => by
    rw [← List.flatMap_def, List.flatMap_singleton']
  rw [ancestors, levels_of_inner hn ha, List.flatten_append, List.flatten_append, hline,
    List.flatten_singleton]

/-- **No type stands twice** on the levels of a type. -/
theorem nodup_ancestors (h : Hierarchy) (t : Ty) : (h.ancestors t).Nodup := by
  by_cases ht : t = .null ∨ t = .any
  · rw [ancestors, levels_of_bottom_or_top ht]
    simp
  rw [not_or] at ht
  have hline := nodup_line (h := h) ht.2
  rw [ancestors_of_inner ht.1 ht.2]
  refine List.nodup_append'.2 ⟨List.nodup_append'.2 ⟨(List.nodup_cons.1 hline).2,
    nodup_layers _ _ _ _, ?_⟩, List.nodup_singleton _, ?_⟩
  · exact fun u hu hu' => (mem_layers hu').1 (List.mem_cons_of_mem _ hu)
  · intro u hu hany
    rw [List.mem_singleton] at hany
    subst hany
    rcases List.mem_append.1 hu with hu | hu
    · exact (List.nodup_cons.1 hline).1 hu
    · exact (mem_layers hu).1 List.mem_cons_self

theorem levels_index_unique {i j : Nat} {l l' : List Ty} (hi : (h.levels t)[i]? = some l)
    (hj : (h.levels t)[j]? = some l') (hs : s ∈ l) (hs' : s ∈ l') : i = j := by
  have hd := (List.nodup_flatten.1 (nodup_ancestors h t)).2
  obtain ⟨hi', rfl⟩ := List.getElem?_eq_some_iff.1 hi
  obtain ⟨hj', rfl⟩ := List.getElem?_eq_some_iff.1 hj
  rcases Nat.lt_trichotomy i j with hlt | heq | hlt
  · exact absurd hs' (List.pairwise_iff_getElem.1 hd i j hi' hj' hlt hs)
  · exact heq
  · exact absurd hs (List.pairwise_iff_getElem.1 hd j i hj' hi' hlt hs')

theorem nodup_level {l : List Ty} (hl : l ∈ h.levels t) : l.Nodup :=
  (List.nodup_flatten.1 (nodup_ancestors h t)).1 l hl

/-- The ancestors of a type are the type, `any`, and types that the hierarchy knows. -/
theorem mem_ancestors (hs : s ∈ h.ancestors t) : s = t ∨ s = .any ∨ s ∈ h.known := by
  by_cases ht : t = .null ∨ t = .any
  · rw [ancestors, levels_of_bottom_or_top ht] at hs
    exact .inl (by simpa using hs)
  rw [not_or] at ht
  rw [ancestors_of_inner ht.1 ht.2, List.mem_append, List.mem_append, List.mem_cons] at hs
  rcases hs with ((rfl | hs) | hs) | hs
  · exact .inl rfl
  · exact .inr (.inr (mem_superclassChain hs).2.2)
  · rcases (mem_layers hs).2 with hf | hk
    · obtain ⟨u, -, hu⟩ := List.mem_flatMap.1 hf
      exact .inr (.inr (mem_known_of_node (List.mem_append_right _ hu)))
    · exact .inr (.inr hk)
  · exact .inr (.inl (List.mem_singleton.1 hs))

end Recast.Hierarchy
