/-
How far above a type its supertypes stand.

Above a type comes its chain of superclasses, and above that line the rest,
layer by layer. The layers are those of a breadth-first walk: on the first
stands what is one step above the line, on the second what is two steps above
it and no nearer, and so on up to the last that holds anything
(`mem_upperLayers_iff`). All ways lead along superclasses and interfaces, and
not by way of `any`.

What the walk has seen, and what it comes to next, is said in terms of
distances (`Layered`). From that a layer holds just the types of the next
distance, and every layer keeps it.
-/
import Recast.Proofs.Hierarchy.Levels
import Mathlib.Data.List.GetD
import Mathlib.Data.Nat.Find
import Mathlib.Order.Bounds.Defs

namespace Recast.Hierarchy

open Relation

/-! ## Distances -/

/-- `s` stands directly above `t`. Nothing stands above `any`, whatever is declared for it. -/
def Direct (h : Hierarchy) (t s : Ty) : Prop := t ≠ .any ∧ s ∈ (h.node t).all

/-- A way of so many steps from `t` up to another type, along superclasses and interfaces, none of
them `any`. -/
inductive Path (h : Hierarchy) (t : Ty) : Nat → Ty → Prop
  | refl : Path h t 0 t
  | tail {n : Nat} {s u : Ty} (hp : Path h t n s) (hd : h.Direct s u) (hu : u ≠ .any) :
    Path h t (n + 1) u

variable {h : Hierarchy} {s t u : Ty} {ts us seen frontier : List Ty} {n d fuel : Nat}

/-- Some of the types has a way of `n` steps at most up to `s`. -/
def Within (h : Hierarchy) (ts : List Ty) (n : Nat) (s : Ty) : Prop :=
  ∃ m ≤ n, ∃ t ∈ ts, h.Path t m s

/-- The shortest way from any of the types up to `s` has `n` steps. -/
def DistanceFrom (h : Hierarchy) (ts : List Ty) (n : Nat) (s : Ty) : Prop :=
  IsLeast {m | ∃ t ∈ ts, h.Path t m s} n

theorem exists_path_iff (hs : s ≠ .any) :
    (∃ n, h.Path t n s) ↔ ReflTransGen h.Direct t s := by
  constructor
  · rintro ⟨n, hp⟩
    induction hp with
    | refl => exact .refl
    | tail _ hd _ ih => exact (ih hd.1).tail hd
  · intro hr
    induction hr with
    | refl => exact ⟨0, .refl⟩
    | tail _ hd ih =>
      obtain ⟨n, hp⟩ := ih hd.1
      exact ⟨n + 1, hp.tail hd hs⟩

theorem within_zero : h.Within ts 0 s ↔ s ∈ ts := by
  constructor
  · rintro ⟨m, hm, t, ht, hp⟩
    obtain rfl := Nat.le_zero.1 hm
    cases hp
    exact ht
  · exact fun hs => ⟨0, Nat.le_refl 0, s, hs, .refl⟩

theorem Within.succ (hs : h.Within ts n s) : h.Within ts (n + 1) s := by
  obtain ⟨m, hm, hp⟩ := hs
  exact ⟨m, Nat.le_succ_of_le hm, hp⟩

theorem Within.tail (hs : h.Within ts n s) (hd : h.Direct s u) (hu : u ≠ .any) :
    h.Within ts (n + 1) u := by
  obtain ⟨m, hm, t, ht, hp⟩ := hs
  exact ⟨m + 1, Nat.succ_le_succ hm, t, ht, hp.tail hd hu⟩

theorem Within.cases_succ (hs : h.Within ts (n + 1) s) :
    h.Within ts n s ∨ ∃ u, h.Within ts n u ∧ h.Direct u s := by
  obtain ⟨m, hm, t, ht, hp⟩ := hs
  cases hp with
  | refl => exact .inl ⟨0, Nat.zero_le n, _, ht, .refl⟩
  | tail hp hd => exact .inr ⟨_, ⟨_, Nat.le_of_succ_le_succ hm, t, ht, hp⟩, hd⟩

theorem Within.ne_any (hs : h.Within ts n s) (hts : Ty.any ∉ ts) : s ≠ .any := by
  obtain ⟨m, -, t, ht, hp⟩ := hs
  cases hp with
  | refl => exact fun heq => hts (heq ▸ ht)
  | tail _ _ hany => exact hany

theorem distanceFrom_zero_iff : h.DistanceFrom ts 0 s ↔ s ∈ ts := by
  rw [← within_zero (h := h)]
  constructor
  · rintro ⟨hp, -⟩
    exact ⟨0, Nat.le_refl 0, hp⟩
  · rintro ⟨m, hm, hp⟩
    obtain rfl := Nat.le_zero.1 hm
    exact ⟨hp, fun _ _ => Nat.zero_le _⟩

theorem distanceFrom_succ_iff :
    h.DistanceFrom ts (n + 1) s ↔ h.Within ts (n + 1) s ∧ ¬ h.Within ts n s := by
  constructor
  · rintro ⟨hp, hleast⟩
    refine ⟨⟨n + 1, Nat.le_refl _, hp⟩, ?_⟩
    rintro ⟨m, hm, hp'⟩
    exact absurd (hleast hp') (Nat.not_le_of_lt (Nat.lt_succ_of_le hm))
  · rintro ⟨⟨m, hm, hp⟩, hnot⟩
    have hfar : ∀ k, (∃ t ∈ ts, h.Path t k s) → n + 1 ≤ k :=
      fun k hk => Nat.lt_of_not_le fun hle => hnot ⟨k, hle, hk⟩
    obtain rfl : m = n + 1 := Nat.le_antisymm hm (hfar m hp)
    exact ⟨hp, hfar⟩

theorem DistanceFrom.exists_pred (hs : h.DistanceFrom ts (n + 1) s) :
    ∃ u, h.DistanceFrom ts n u := by
  obtain ⟨⟨t, ht, hp⟩, hleast⟩ := hs
  cases hp with
  | @tail _ u _ hp hd hany =>
    refine ⟨u, ⟨t, ht, hp⟩, fun m hm => ?_⟩
    obtain ⟨t', ht', hp'⟩ := hm
    exact Nat.le_of_succ_le_succ (hleast ⟨t', ht', hp'.tail hd hany⟩)

theorem DistanceFrom.exists_of_le {m : Nat} (hs : h.DistanceFrom ts n s) (hm : m ≤ n) :
    ∃ u, h.DistanceFrom ts m u := by
  induction n, hm using Nat.le_induction generalizing s with
  | base => exact ⟨s, hs⟩
  | succ n _ ih =>
    obtain ⟨u, hu⟩ := hs.exists_pred
    exact ih hu

theorem exists_distanceFrom_iff :
    (∃ n, h.DistanceFrom ts n s) ↔ ∃ t ∈ ts, ∃ n, h.Path t n s := by
  classical
  constructor
  · rintro ⟨n, ⟨t, ht, hp⟩, -⟩
    exact ⟨t, ht, n, hp⟩
  · rintro ⟨t, ht, n, hp⟩
    have hex : ∃ m, ∃ t ∈ ts, h.Path t m s := ⟨n, t, ht, hp⟩
    exact ⟨Nat.find hex, Nat.find_spec hex, fun m hm => Nat.find_min' hex hm⟩

/-! ## One layer -/

/-- What a walk from some types has seen after `n` layers, and what it comes to next. -/
structure Layered (h : Hierarchy) (ts : List Ty) (n : Nat) (seen frontier : List Ty) : Prop where
  any_notMem : Ty.any ∉ ts
  mem_seen : ∀ s, s ∈ seen ↔ s = .any ∨ h.Within ts n s
  mem_frontier : ∀ s, s ∉ seen → (s ∈ frontier ↔ h.Within ts (n + 1) s)

theorem Layered.mem_fresh_iff (hl : h.Layered ts n seen frontier) :
    s ∈ fresh seen frontier ↔ h.DistanceFrom ts (n + 1) s := by
  rw [mem_fresh, distanceFrom_succ_iff]
  constructor
  · rintro ⟨hs, hnew⟩
    exact ⟨(hl.mem_frontier s hnew).1 hs, fun hw => hnew ((hl.mem_seen s).2 (.inr hw))⟩
  · rintro ⟨hw, hfar⟩
    have hnew : s ∉ seen := by
      rw [hl.mem_seen, not_or]
      exact ⟨hw.ne_any hl.any_notMem, hfar⟩
    exact ⟨(hl.mem_frontier s hnew).2 hw, hnew⟩

/-- A layer keeps the walk layered. -/
theorem Layered.next (hl : h.Layered ts n seen frontier) :
    h.Layered ts (n + 1) (fresh seen frontier ++ seen)
      ((fresh seen frontier).flatMap fun t => (h.node t).all) := by
  have hseen : ∀ s, s ∈ fresh seen frontier ++ seen ↔ s = .any ∨ h.Within ts (n + 1) s := by
    intro s
    rw [List.mem_append, hl.mem_fresh_iff, hl.mem_seen, distanceFrom_succ_iff]
    have hsucc : h.Within ts n s → h.Within ts (n + 1) s := Within.succ
    tauto
  refine ⟨hl.any_notMem, hseen, fun s hs => ?_⟩
  rw [hseen, not_or] at hs
  rw [List.mem_flatMap]
  constructor
  · rintro ⟨u, hu, hsu⟩
    have hw : h.Within ts (n + 1) u := (distanceFrom_succ_iff.1 (hl.mem_fresh_iff.1 hu)).1
    exact hw.tail ⟨hw.ne_any hl.any_notMem, hsu⟩ hs.1
  · intro hw
    obtain ⟨u, hu, hd⟩ := hw.cases_succ.resolve_left hs.2
    have hfar : ¬ h.Within ts n u := fun hnear => hs.2 (hnear.tail hd hs.1)
    exact ⟨u, hl.mem_fresh_iff.2 (distanceFrom_succ_iff.2 ⟨hu, hfar⟩), hd.2⟩

/-! ## All layers -/

theorem flatMap_all_subset (hus : h.known ⊆ us) (ts : List Ty) :
    (ts.flatMap fun t => (h.node t).all) ⊆ us := by
  intro s hs
  obtain ⟨t, -, hs⟩ := List.mem_flatMap.1 hs
  exact hus (mem_known_of_node hs)

/-- A layer that is not empty leaves enough fuel for the rest. -/
theorem Fuelled.fresh (hf : Fuelled us (fuel + 1) seen) (hfrontier : frontier ⊆ us)
    (hne : fresh seen frontier ≠ []) : Fuelled us fuel (fresh seen frontier ++ seen) :=
  hf.append (nodup_fresh _ _)
    (fun _ ht => ⟨hfrontier (mem_fresh.1 ht).1, (mem_fresh.1 ht).2⟩) hne

/-- A walk with fuel for all that it can meet gives a layer for each distance, and ends when no
type stands at the next. -/
theorem Layered.mem_layers_iff (hl : h.Layered ts n seen frontier) (hf : Fuelled us fuel seen)
    (hus : h.known ⊆ us) (hfrontier : frontier ⊆ us) :
    s ∈ (h.layers fuel seen frontier).getD d [] ↔ h.DistanceFrom ts (n + 1 + d) s := by
  induction fuel generalizing n seen frontier d with
  | zero => exact absurd rfl hf.ne_zero
  | succ fuel ih =>
    simp only [layers]
    split
    next hnil =>
      -- nothing stands at this distance, and so nothing further away
      simp only [List.getD_nil, List.not_mem_nil, false_iff]
      intro hs
      obtain ⟨u, hu⟩ := hs.exists_of_le (Nat.le_add_right (n + 1) d)
      rw [← hl.mem_fresh_iff, hnil] at hu
      cases hu
    next hne =>
      cases d with
      | zero => rw [List.getD_cons_zero, hl.mem_fresh_iff, Nat.add_zero]
      | succ d =>
        rw [List.getD_cons_succ, ih hl.next (hf.fresh hfrontier hne) (flatMap_all_subset hus _)]
        congr! 1
        omega

theorem ne_nil_of_mem_layers {level : List Ty} (hl : level ∈ h.layers fuel seen frontier) :
    level ≠ [] := by
  induction fuel generalizing seen frontier with
  | zero => cases hl
  | succ fuel ih =>
    simp only [layers] at hl
    split at hl
    · cases hl
    next hne =>
      rcases List.mem_cons.1 hl with rfl | hl
      · exact hne
      · exact ih hl

/-- More fuel than for all that can be met finds no more layers. -/
theorem layers_of_le {fuel' : Nat} (hf : Fuelled us fuel seen) (hus : h.known ⊆ us)
    (hfrontier : frontier ⊆ us) (hle : fuel ≤ fuel') :
    h.layers fuel' seen frontier = h.layers fuel seen frontier := by
  induction fuel generalizing fuel' seen frontier with
  | zero => exact absurd rfl hf.ne_zero
  | succ fuel ih =>
    obtain ⟨fuel', rfl⟩ := Nat.exists_eq_add_of_le' (Nat.le_of_add_left_le hle)
    simp only [layers]
    split
    · rfl
    next hne =>
      rw [ih (hf.fresh hfrontier hne) (flatMap_all_subset hus _) (Nat.le_of_succ_le_succ hle)]

/-- More fuel than for all that can be met finds no more superclasses. -/
theorem chainFrom_of_le {fuel' : Nat} {next : Option Ty} (hf : Fuelled us fuel seen)
    (hus : h.known ⊆ us) (hnext : ∀ t, next = some t → t ∈ us) (hle : fuel ≤ fuel') :
    h.chainFrom fuel' seen next = h.chainFrom fuel seen next := by
  induction fuel generalizing fuel' seen next with
  | zero => exact absurd rfl hf.ne_zero
  | succ fuel ih =>
    obtain ⟨fuel', rfl⟩ := Nat.exists_eq_add_of_le' (Nat.le_of_add_left_le hle)
    cases next with
    | none => rfl
    | some t =>
      simp only [chainFrom]
      split
      · rfl
      next hstop =>
        simp only [Bool.or_eq_true, List.contains_iff_mem, not_or] at hstop
        rw [ih (hf.cons (hnext t rfl) hstop.2) (fun s hs => hus (Superclass.mem_known hs))
          (Nat.le_of_succ_le_succ hle)]

/-! ## The layers above a type -/

/-- The layers above the line from `t` upwards. -/
abbrev upperLayers (h : Hierarchy) (t : Ty) : List (List Ty) :=
  h.layers h.fuel (.any :: t :: h.superclassChain t)
    ((t :: h.superclassChain t).flatMap fun t => (h.node t).interfaces)

/-- The walk from the line upwards has fuel for all that it can meet. -/
theorem fuelled_line (ht : t ≠ .any) :
    Fuelled (.any :: t :: h.known) h.fuel (.any :: t :: h.superclassChain t) where
  nodup := nodup_line ht
  subset := by
    intro s hs
    simp only [List.mem_cons] at hs ⊢
    exact hs.imp_right (.imp_right fun hs => (mem_superclassChain hs).2.2)
  length_lt := by
    simp only [fuel, List.length_cons]
    omega

theorem known_subset (h : Hierarchy) (t : Ty) : h.known ⊆ .any :: t :: h.known :=
  fun _ hs => List.mem_cons_of_mem _ (List.mem_cons_of_mem _ hs)

theorem interfaces_subset (h : Hierarchy) (t : Ty) (ts : List Ty) :
    (ts.flatMap fun t => (h.node t).interfaces) ⊆ .any :: t :: h.known := by
  intro s hs
  obtain ⟨u, -, hs⟩ := List.mem_flatMap.1 hs
  exact known_subset h t (mem_known_of_node (List.mem_append_right _ hs))

theorem layered_line (ht : t ≠ .any) :
    h.Layered (t :: h.superclassChain t) 0 (.any :: t :: h.superclassChain t)
      ((t :: h.superclassChain t).flatMap fun t => (h.node t).interfaces) := by
  have hany : Ty.any ∉ t :: h.superclassChain t := (List.nodup_cons.1 (nodup_line ht)).1
  have hseen : ∀ s, s ∈ Ty.any :: t :: h.superclassChain t ↔
      s = .any ∨ h.Within (t :: h.superclassChain t) 0 s := by
    intro s
    rw [within_zero, List.mem_cons]
  refine ⟨hany, hseen, fun s hs => ?_⟩
  have hnew := (hseen s).not.1 hs
  rw [not_or] at hnew
  rw [List.mem_flatMap]
  constructor
  · rintro ⟨u, hu, hsu⟩
    have hne : u ≠ .any := fun heq => hany (heq ▸ hu)
    exact (within_zero.2 hu).tail ⟨hne, List.mem_append_right _ hsu⟩ hnew.1
  · intro hw
    obtain ⟨u, hu, hd⟩ := hw.cases_succ.resolve_left hnew.2
    have hline := within_zero.1 hu
    refine ⟨u, hline, (List.mem_append.1 hd.2).resolve_left fun hsup => hs ?_⟩
    exact superclass_mem_line hline (Option.mem_toList.1 hsup)

/-- The layers above a type are the distances from its line. -/
theorem mem_upperLayers_iff (ht : t ≠ .any) :
    s ∈ (h.upperLayers t).getD d [] ↔
      h.DistanceFrom (t :: h.superclassChain t) (d + 1) s := by
  rw [(layered_line ht).mem_layers_iff (fuelled_line ht) (known_subset h t)
    (interfaces_subset h t _), Nat.zero_add, Nat.add_comm]

theorem mem_flatten_upperLayers_iff (ht : t ≠ .any) : s ∈ (h.upperLayers t).flatten ↔
    ∃ d, h.DistanceFrom (t :: h.superclassChain t) (d + 1) s := by
  simp only [← mem_upperLayers_iff ht]
  rw [List.mem_flatten]
  constructor
  · rintro ⟨l, hl, hs⟩
    obtain ⟨d, hd, rfl⟩ := List.mem_iff_getElem.1 hl
    exact ⟨d, by rwa [List.getD_eq_getElem]⟩
  · rintro ⟨d, hs⟩
    by_cases hd : d < (h.upperLayers t).length
    · rw [List.getD_eq_getElem _ _ hd] at hs
      exact ⟨_, List.getElem_mem hd, hs⟩
    · rw [List.getD_eq_default _ _ (Nat.le_of_not_lt hd)] at hs
      cases hs

end Recast.Hierarchy
