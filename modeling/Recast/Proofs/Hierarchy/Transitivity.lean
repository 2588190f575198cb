/-
When assignability is transitive.

Two rules make a type assignable to another: it is so to its ancestors, whose
ancestors are its own, and arrays are covariant. Where the two meet,
assignability need not be transitive: the ancestors of a type that is declared
below an array type know no other arrays, and what is declared of an array type
does not hold of the arrays assignable to it (`isAssignable_not_transitive`).

They can meet only where just two of three types are arrays (`Ty.mixArrays`).
Everywhere else, and everywhere at all in a hierarchy where no array type
stands above or below another type but `any` (`ArraysApart`), assignability is
transitive (`isAssignable_trans`).
-/
import Recast.Proofs.Hierarchy.Specificity

namespace Recast

open Relation

namespace Ty

/-- Both types are arrays, and different ones. -/
def differentArrays (s t : Ty) : Bool := s.component?.isSome && t.component?.isSome && s ≠ t

/-- Just two of three types are arrays, and different ones, once the array levels that all three
share are taken off. An end at `any` does not count. -/
def mixArrays : Ty → Ty → Ty → Bool
  | .array a, .array b, .array c => mixArrays a b c
  | a, b, c => differentArrays a b && c ≠ .any || differentArrays b c || differentArrays a c

theorem differentArrays_eq_false_iff {s t : Ty} :
    s.differentArrays t = false ↔ s = t ∨ s.component? = none ∨ t.component? = none := by
  unfold differentArrays
  cases s.component? <;> cases t.component? <;> simp

theorem differentArrays_iff {s t : Ty} :
    s.differentArrays t ↔ s.component? ≠ none ∧ t.component? ≠ none ∧ s ≠ t := by
  rw [← Bool.not_eq_false, differentArrays_eq_false_iff]
  tauto

theorem exists_array {t : Ty} (ht : t.component? ≠ none) : ∃ c, t = .array c := by
  cases t with
  | array c => exact ⟨c, rfl⟩
  | _ => exact absurd rfl ht

end Ty

namespace Hierarchy

variable {h : Hierarchy} {a b c s t : Ty}

/-! ## By ancestors alone -/

theorem ne_null_of_isAssignable (hab : h.isAssignable a b) (hne : a ≠ b) : a ≠ .null := by
  rintro rfl
  rw [isAssignable_null hne.symm] at hab
  cases hab

theorem isAssignable_trans_of_ancestors (hab : h.isAssignable a b) (hbc : h.isAssignable b c)
    (hdab : a.differentArrays b = false) (hdbc : b.differentArrays c = false)
    (hdac : a.differentArrays c = false) : h.isAssignable a c := by
  rw [Ty.differentArrays_eq_false_iff] at hdab hdbc hdac
  rcases hdab with rfl | hdab
  · exact hbc
  rcases hdbc with rfl | hdbc
  · exact hab
  rcases hdac with rfl | hdac
  · exact isAssignable_refl h a
  by_cases hne : a = b
  · exact hne ▸ hbc
  by_cases hne' : b = c
  · exact hne' ▸ hab
  have ha : a ≠ .null := ne_null_of_isAssignable hab hne
  have hb : b ≠ .null := ne_null_of_isAssignable hbc hne'
  rw [isAssignable_iff_mem_ancestors ha hdab] at hab
  rw [isAssignable_iff_mem_ancestors hb hdbc] at hbc
  rw [isAssignable_iff_mem_ancestors ha hdac]
  exact ancestors_trans hab hbc ha hb

theorem isAssignable_trans_of_not_mixArrays (hab : h.isAssignable a b) (hbc : h.isAssignable b c)
    (hm : Ty.mixArrays a b c = false) : h.isAssignable a c := by
  fun_induction Ty.mixArrays a b c with
  | case1 a b c ih =>
    rw [isAssignable_array] at hab hbc ⊢
    exact ih hab hbc hm
  | case2 a b c =>
    by_cases hne : a = b
    · exact hne ▸ hbc
    by_cases hany : c = .any
    · exact hany ▸ isAssignable_any (ne_null_of_isAssignable hab hne)
    simp only [hany, ne_eq, not_false_eq_true, decide_true, Bool.and_true,
      Bool.or_eq_false_iff] at hm
    exact isAssignable_trans_of_ancestors hab hbc hm.1.1 hm.1.2 hm.2

/-! ## Arrays that stand apart -/

/-- No array type stands directly above or below another type, but for `any`. -/
def ArraysApart (h : Hierarchy) : Prop :=
  ∀ t s, h.Direct t s → s ≠ .any → t.component? = none ∧ s.component? = none

theorem ArraysApart.eq_of_mem_ancestors (ha : h.ArraysApart) (hs : s ≠ .null)
    (ht : t.component? ≠ none) (hm : t ∈ h.ancestors s) : t = s := by
  rcases (mem_ancestors_iff_reachable hs).1 hm with rfl | hr
  · exact absurd rfl ht
  rcases ReflTransGen.cases_tail hr with heq | ⟨u, -, hd⟩
  · exact heq
  · exact absurd (ha u t hd (fun heq => ht (heq ▸ rfl))).2 ht

theorem ArraysApart.ancestors_of_array (ha : h.ArraysApart) (hs : s.component? ≠ none)
    (hm : t ∈ h.ancestors s) : t = s ∨ t = .any := by
  have hnull : s ≠ .null := fun heq => hs (heq ▸ rfl)
  rcases (mem_ancestors_iff_reachable hnull).1 hm with hany | hr
  · exact .inr hany
  rcases ReflTransGen.cases_head hr with heq | ⟨u, hd, hr⟩
  · exact .inl heq.symm
  by_cases hu : u = .any
  · subst hu
    rcases ReflTransGen.cases_head hr with heq | ⟨v, hd', -⟩
    · exact .inr heq.symm
    · exact absurd rfl hd'.1
  · exact absurd (ha s u hd hu).1 hs

theorem ArraysApart.mixArrays_eq_false (ha : h.ArraysApart) (hab : h.isAssignable a b)
    (hbc : h.isAssignable b c) : Ty.mixArrays a b c = false := by
  fun_induction Ty.mixArrays a b c with
  | case1 a b c ih =>
    rw [isAssignable_array] at hab hbc
    exact ih hab hbc
  | case2 a b c hnot =>
    have hone : a.component? = none ∨ b.component? = none ∨ c.component? = none := by
      by_contra hall
      simp only [not_or] at hall
      obtain ⟨⟨a', rfl⟩, ⟨b', rfl⟩, c', rfl⟩ :=
        hall.imp Ty.exists_array (And.imp Ty.exists_array Ty.exists_array)
      exact hnot a' b' c' rfl rfl rfl
    by_contra hmix
    simp only [Bool.not_eq_false, Bool.or_eq_true, Bool.and_eq_true, decide_eq_true_eq,
      Ty.differentArrays_iff] at hmix
    rcases hmix with (⟨⟨hca, hcb, -⟩, hany⟩ | ⟨hcb, hcc, hne⟩) | ⟨hca, hcc, hne⟩
    · -- nothing but `any` is above the array `b`
      have hcc := (hone.resolve_left hca).resolve_left hcb
      have hnull : b ≠ .null := fun heq => hcb (heq ▸ rfl)
      rw [isAssignable_iff_mem_ancestors hnull (.inr hcc)] at hbc
      rcases ha.ancestors_of_array hcb hbc with rfl | heq
      · exact hcb hcc
      · exact hany heq
    · -- nothing but itself is below the array `b`
      have hca := hone.resolve_right (not_or.2 ⟨hcb, hcc⟩)
      have hnull : a ≠ .null := ne_null_of_isAssignable hab fun heq => hcb (heq ▸ hca)
      rw [isAssignable_iff_mem_ancestors hnull (.inl hca)] at hab
      exact hcb (ha.eq_of_mem_ancestors hnull hcb hab ▸ hca)
    · -- nothing but itself is below the array `c`
      have hcb := (hone.resolve_left hca).resolve_right hcc
      have hnull : b ≠ .null := ne_null_of_isAssignable hbc fun heq => hcc (heq ▸ hcb)
      rw [isAssignable_iff_mem_ancestors hnull (.inl hcb)] at hbc
      exact hcc (ha.eq_of_mem_ancestors hnull hcc hbc ▸ hcb)

/-- **Assignability is transitive** for all types, unless just two of the three are arrays, and
different ones, once the array levels that all three share are taken off. Where no array type
stands above or below another type but `any`, it is so without exception. -/
theorem isAssignable_trans (hab : h.isAssignable a b) (hbc : h.isAssignable b c)
    (hm : Ty.mixArrays a b c → h.ArraysApart) : h.isAssignable a c := by
  refine isAssignable_trans_of_not_mixArrays hab hbc ?_
  cases hmix : Ty.mixArrays a b c with
  | false => rfl
  | true =>
    rw [(hm hmix).mixArrays_eq_false hab hbc] at hmix
    cases hmix

/-- Rows that are arrays of integers: arrays of arrays of rows are arrays of arrays of arrays of
integers, and these are arrays of arrays. -/
theorem isAssignable_trans_rows :
    let row : Ty := .named "Row"
    let h := empty.declare row { interfaces := [.array (.integral .integer)] }
    let rows : Ty := .arrayOf row 2
    let integers : Ty := .arrayOf (.integral .integer) 3
    let arrays : Ty := .arrayOf .any 2
    h.isAssignable rows integers ∧ h.isAssignable integers arrays ∧
      (Ty.mixArrays rows integers arrays → h.ArraysApart) ∧ h.isAssignable rows arrays := by
  intro row h rows integers arrays
  have hab : h.isAssignable rows integers := by decide +kernel
  have hbc : h.isAssignable integers arrays := by decide +kernel
  have hm : Ty.mixArrays rows integers arrays → h.ArraysApart := nofun
  exact ⟨hab, hbc, hm, isAssignable_trans hab hbc hm⟩

/-- Rows are arrays of integers, and these arrays of numbers, but rows are no arrays of numbers.
Nor are arrays of integers rows where arrays of numbers are; and where these are rows, and rows
arrays of text, they are no arrays of text. -/
theorem isAssignable_not_transitive :
    let row : Ty := .named "Row"
    let integers : Ty := .array (.integral .integer)
    let numbers : Ty := .array .number
    let below := empty.declare row { interfaces := [integers] }
    let above := empty.declare numbers { interfaces := [row] }
    let between :=
      (empty.declare integers { interfaces := [row] }).declare row { interfaces := [.array .string] }
    (below.isAssignable row integers ∧ below.isAssignable integers numbers ∧
      below.isAssignable row numbers = false) ∧
    (above.isAssignable integers numbers ∧ above.isAssignable numbers row ∧
      above.isAssignable integers row = false) ∧
    between.isAssignable integers row ∧ between.isAssignable row (.array .string) ∧
      between.isAssignable integers (.array .string) = false := by
  decide +kernel

end Hierarchy

end Recast
