/-
Specificity by levels, and by the subtype relation.

A walk meets the supertypes of a type level by level, and what stands on an
earlier level counts as more specific. The subtype relation need not agree:
an interface may be declared right above a type and, further up, above another
of its interfaces too, and then it stands on an earlier level than its own
subtype. Where every type on the levels stands before its direct supertypes
(`Stratified`), the two agree (`Stratified.level_lt`). That holds of every
source whose supertypes are the built-in ones (`stratified_builtin`).

Assignability is membership in the ancestors, but for one rule: arrays are
covariant, and the levels know nothing of that.
-/
import Recast.Proofs.Hierarchy.Assignability
import Recast.Proofs.Hierarchy.Reachability

namespace Recast.Hierarchy

open Relation

variable {h : Hierarchy} {s t u : Ty}

/-! ## Assignability and ancestors -/

theorem any_mem_ancestors (ht : t ≠ .null) : Ty.any ∈ h.ancestors t :=
  (mem_ancestors_iff_reachable ht).2 (.inl rfl)

/-- Unless both are arrays, a type is assignable to its ancestors and to nothing else. -/
theorem isAssignable_iff_mem_ancestors (hs : s ≠ .null)
    (hc : s.component? = none ∨ t.component? = none) :
    h.isAssignable s t ↔ t ∈ h.ancestors s := by
  by_cases ha : t = .any
  · subst ha
    simp [isAssignable_any hs, any_mem_ancestors hs]
  by_cases he : s = t
  · subst he
    simp [self_mem_ancestors]
  cases s with
  | null => exact absurd rfl hs
  | array c =>
    cases t with
    | array d => simp [Ty.component?] at hc
    | any => exact absurd rfl ha
    | _ => simp [isAssignable]
  | _ => cases t <;> simp_all [isAssignable]

/-- Without declarations only arrays and the built-in supertypes take values of other types. -/
theorem isAssignable_eq_false (hs : s ≠ .null) (hne : s ≠ t) (hc : t.component? = none)
    (ht : t ∉ Ty.any :: Supertypes.builtinTypes) : empty.isAssignable s t = false := by
  rw [← Bool.not_eq_true, isAssignable_iff_mem_ancestors hs (.inr hc)]
  intro hmem
  rcases mem_ancestors hmem with heq | hany | hknown
  · exact hne heq.symm
  · exact ht (hany ▸ List.mem_cons_self)
  · exact ht (List.mem_cons_of_mem _ hknown)

theorem node_of_isDeclared_eq_false (hd : h.isDeclared t = false) :
    h.node t = Supertypes.builtin t := by
  rw [isDeclared, Option.isSome_eq_false_iff, Option.isNone_iff_eq_none] at hd
  rw [node, hd, Option.getD_none]

theorem ancestors_array {c : Ty} (hd : h.isDeclared (.array c) = false) :
    h.ancestors (.array c) = [.array c, .any] := by
  have hnode : h.node (.array c) = {} := node_of_isDeclared_eq_false hd
  have hchain : h.superclassChain (.array c) = [] := by
    simp [superclassChain, hnode]
  rw [ancestors_of_inner (by simp) (by simp), hchain]
  simp [hnode, layers, fuel, fresh]

/-! ## Levels as numbers -/

/-- The number of the level of `t` that `s` stands on, from 0 for `t` itself. -/
def level (h : Hierarchy) (t s : Ty) : Nat := (h.levels t).findIdx (·.contains s)

theorem level_eq {i : Nat} {l : List Ty} (hl : (h.levels t)[i]? = some l) (hs : s ∈ l) :
    h.level t s = i := by
  have hlt : h.level t s < (h.levels t).length :=
    List.findIdx_lt_length.2 ⟨l, List.mem_of_getElem? hl, by simpa using hs⟩
  have hfound : s ∈ (h.levels t)[h.level t s] :=
    List.contains_iff_mem.1 (List.findIdx_getElem (w := hlt))
  exact levels_index_unique (List.getElem?_eq_getElem hlt) hl hfound hs

theorem exists_level (hs : s ∈ h.ancestors t) :
    ∃ l, (h.levels t)[h.level t s]? = some l ∧ s ∈ l := by
  obtain ⟨l, hl, hsl⟩ := List.mem_flatten.1 hs
  obtain ⟨i, hi⟩ := List.mem_iff_getElem?.1 hl
  exact ⟨l, level_eq hi hsl ▸ hi, hsl⟩

theorem level_lt_level_any (ht : t ≠ .null) (hs : s ∈ h.ancestors t) (hne : s ≠ .any) :
    h.level t s < h.level t .any := by
  have hta : t ≠ .any := by
    rintro rfl
    rw [ancestors, levels_of_bottom_or_top (.inr rfl)] at hs
    exact hne (by simpa using hs)
  set lower := (t :: h.superclassChain t).map ([·]) ++
    h.layers h.fuel (.any :: t :: h.superclassChain t)
      ((t :: h.superclassChain t).flatMap fun t => (h.node t).interfaces)
  have hlevels : h.levels t = lower ++ [[.any]] := levels_of_inner ht hta
  have hany : h.level t .any = lower.length :=
    level_eq (l := [.any]) (by simp [hlevels]) (List.mem_singleton_self _)
  obtain ⟨l, hl, hsl⟩ := exists_level hs
  rw [hlevels] at hl
  rw [hany]
  by_contra hge
  rw [List.getElem?_append_right (by omega)] at hl
  have hmem := List.mem_of_getElem? hl
  rw [List.mem_singleton.1 hmem] at hsl
  exact hne (List.mem_singleton.1 hsl)

/-! ## Agreement with the subtype relation -/

/-- Every type on the levels of `t` stands before its direct supertypes, and at most one of them is
an array. -/
structure Stratified (h : Hierarchy) (t : Ty) : Prop where
  direct : ∀ s ∈ h.ancestors t, ∀ u, h.Direct s u → u ≠ .any → h.level t s < h.level t u
  arrays : ∀ s ∈ h.ancestors t, ∀ u ∈ h.ancestors t,
    s.component? ≠ none → u.component? ≠ none → s = u

/-- On stratified levels a subtype stands before its supertypes. -/
theorem Stratified.level_lt (ht : h.Stratified t) (hs : s ∈ h.ancestors t)
    (hu : u ∈ h.ancestors t) (hsup : h.isStrictSupertype u s = true) :
    h.level t s < h.level t u := by
  simp only [isStrictSupertype, ne_eq, Bool.and_eq_true, decide_eq_true_eq] at hsup
  obtain ⟨hne, ha⟩ := hsup
  have hsn : s ≠ .null := by
    rintro rfl
    rw [isAssignable_null hne] at ha
    cases ha
  have htn : t ≠ .null := by
    rintro rfl
    rw [ancestors, levels_of_bottom_or_top (.inl rfl)] at hs
    exact hsn (by simpa using hs)
  have hsa : s ≠ .any := by
    rintro rfl
    rw [isAssignable_iff_mem_ancestors hsn (.inl rfl), ancestors,
      levels_of_bottom_or_top (.inr rfl)] at ha
    exact hne (by simpa using ha)
  have hc : s.component? = none ∨ u.component? = none := by
    by_contra hnot
    rw [not_or] at hnot
    exact hne (ht.arrays s hs u hu hnot.1 hnot.2).symm
  rw [isAssignable_iff_mem_ancestors hsn hc, mem_ancestors_iff_reachable hsn] at ha
  rcases ha with rfl | hpath
  · exact level_lt_level_any htn hs hsa
  -- Every step of the path goes up by a level at least.
  have hrise : ∀ {v}, ReflTransGen h.Direct s v →
      v ∈ h.ancestors t ∧ (v = s ∨ h.level t s < h.level t v) := by
    intro v hv
    induction hv with
    | refl => exact ⟨hs, .inl rfl⟩
    | @tail v w _ hd ih =>
      have hw : w ∈ h.ancestors t := mem_ancestors_of_direct ih.1 hd htn
      refine ⟨hw, .inr ?_⟩
      have hvw : h.level t v < h.level t w := by
        by_cases hwa : w = .any
        · exact hwa ▸ level_lt_level_any htn ih.1 hd.1
        · exact ht.direct v ih.1 w hd hwa
      rcases ih.2 with rfl | hlt
      · exact hvw
      · exact Nat.lt_trans hlt hvw
  exact (hrise hpath).2.resolve_left hne

/-- The built-in supertypes of the collections of a shape. -/
def upperOfShape : Shape → List (List Ty)
  | .collection => [[.collection (.interface .collection)], [.any]]
  | .list => [[.collection (.interface .list)], [.collection (.interface .collection)], [.any]]
  | .set => [[.collection (.interface .set)], [.collection (.interface .collection)], [.any]]
  | .sortedSet => [[.collection (.interface .sortedSet)], [.collection (.interface .set)],
      [.collection (.interface .collection)], [.any]]

/-- The levels above a type by the built-in supertypes alone. -/
def builtinUpper : Ty → List (List Ty)
  | .any | .null => []
  | .anyEnum | .boolean | .char | .duration | .zoneOffset => [[.comparable], [.any]]
  | .integral _ | .float | .double | .decimal => [[.number], [.comparable], [.any]]
  | .string | .stringBuilder => [[.charSequence, .comparable], [.any]]
  | .date | .localDateTime | .dateTime | .time | .instant => [[.temporal, .comparable], [.any]]
  | .enum _ => [[.anyEnum], [.comparable], [.any]]
  | .enumSet _ => upperOfShape .set
  | .collection (.interface s) => (upperOfShape s).tail
  | .collection (.concrete .linkedHashSet) =>
    [.collection (.concrete .hashSet)] :: upperOfShape .set
  | .collection (.concrete c) => upperOfShape c.shape
  | .collection (.wrapped _ s) => upperOfShape s
  | _ => [[.any]]

/-- Above a type stand built-in supertypes, none of them an array, and each before its own
supertypes. -/
theorem builtinUpper_rises (t : Ty) : ∀ s ∈ (builtinUpper t).flatten, s ≠ .any →
    s ∈ Supertypes.builtinTypes ∧ s.component? = none ∧ ∀ u ∈ (Supertypes.builtin s).all,
      u ∈ (builtinUpper t).flatten ∧
        (builtinUpper t).findIdx (·.contains s) < (builtinUpper t).findIdx (·.contains u) := by
  cases t
  case' collection k =>
    cases k
    case' interface s => cases s
    case' concrete c => cases c
    case' wrapped w s => cases s
  all_goals
    simp only [builtinUpper, upperOfShape, Concrete.shape]
    decide

theorem not_mem_builtin_all (t : Ty) : t ∉ (Supertypes.builtin t).all := by
  cases t
  case' collection k =>
    cases k
    case' interface s => cases s
    case' concrete c => cases c
  all_goals simp [Supertypes.builtin, Supertypes.all, Shape.parent?]

section Builtin

variable (hd : ∀ s ∈ t :: Supertypes.builtinTypes, h.isDeclared s = false)

include hd

theorem node_builtin (hs : s ∈ t :: Supertypes.builtinTypes) :
    h.node s = Supertypes.builtin s :=
  node_of_isDeclared_eq_false (hd s hs)

/-- Declarations of other types leave a source on its built-in levels. -/
theorem levels_builtin : h.levels t = [t] :: builtinUpper t := by
  have hnode : ∀ s ∈ t :: Supertypes.builtinTypes, h.node s = Supertypes.builtin s :=
    fun s hs => node_builtin hd hs
  obtain ⟨n, hn⟩ : ∃ n, h.fuel = n + 12 :=
    ⟨(h.declared.flatMap fun d => d.1 :: d.2.all).length, by
      simp [fuel, known, Supertypes.builtinTypes]⟩
  simp only [Supertypes.builtinTypes, List.forall_mem_cons] at hnode
  cases t
  case' collection k =>
    cases k
    case' interface s => cases s
    case' concrete c => cases c
    case' wrapped w s => cases s
  all_goals
    simp [levels, superclassChain, chainFrom, layers, fresh, hn, hnode, Supertypes.builtin,
      Supertypes.all, Shape.parent?, Concrete.shape, builtinUpper, upperOfShape]

theorem ancestors_builtin : h.ancestors t = t :: (builtinUpper t).flatten := by
  rw [ancestors, levels_builtin hd, List.flatten_cons, List.singleton_append]

/-- The levels of a source with its built-in supertypes are stratified. -/
theorem stratified_builtin : h.Stratified t := by
  have hlevels := levels_builtin hd
  have hancestors := ancestors_builtin hd
  have hupper : ∀ {s}, s ∈ (builtinUpper t).flatten → s ≠ t := by
    rintro s hs rfl
    exact (List.nodup_cons.1 (hancestors ▸ nodup_ancestors h s)).1 hs
  have hself : h.level t t = 0 := by simp [level, hlevels, List.findIdx_cons]
  have habove : ∀ {s}, s ≠ t → h.level t s = (builtinUpper t).findIdx (·.contains s) + 1 := by
    intro s hs
    simp [level, hlevels, List.findIdx_cons, hs]
  refine ⟨fun s hs u hdirect _ => ?_, fun s hs u hu hsc huc => ?_⟩
  · obtain ⟨hsa, hu⟩ := hdirect
    rw [hancestors] at hs
    rcases List.mem_cons.1 hs with rfl | hs
    · rw [node_builtin hd List.mem_cons_self] at hu
      have hne : u ≠ s := fun heq => not_mem_builtin_all s (heq ▸ hu)
      rw [hself, habove hne]
      omega
    · obtain ⟨hbuiltin, -, hrises⟩ := builtinUpper_rises t s hs hsa
      rw [node_builtin hd (List.mem_cons_of_mem _ hbuiltin)] at hu
      obtain ⟨hmem, hlt⟩ := hrises u hu
      rw [habove (hupper hs), habove (hupper hmem)]
      omega
  · have harray : ∀ s ∈ h.ancestors t, s.component? ≠ none → s = t := by
      intro s hs hc
      rw [hancestors] at hs
      refine (List.mem_cons.1 hs).resolve_right fun hm => hc ?_
      by_cases hsa : s = .any
      · rw [hsa]
        rfl
      · exact (builtinUpper_rises t s hm hsa).2.1
    exact (harray s hs hsc).trans (harray u hu huc).symm

end Builtin

end Recast.Hierarchy
