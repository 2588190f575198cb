/-
Superclass links: what `validate` says of them, and what the chain of a type is.

`validate` follows the links from every declared type, by fuel, and refuses a
hierarchy in which one of these walks comes back to a type it has met. It
accepts exactly the hierarchies without a cycle of superclasses
(`validate_eq_ok_iff`), whatever types the cycle would run through: the
built-in links alone form no cycle, so that each cycle has a declared type on
it, and the fuel outlasts every walk that meets no type twice (`Fuelled`).

Without a cycle the chain of a type is its whole path of superclasses
(`Acyclic.superclassPath_chain`): it stops at a type that has none, or before
`any`, and nowhere else.
-/
import Recast.Hierarchy
import Mathlib.Data.List.Chain
import Mathlib.Data.List.Nodup
import Mathlib.Data.List.Perm.Subperm
import Mathlib.Logic.Relation

namespace Recast.Hierarchy

open Relation

variable {h : Hierarchy} {s t : Ty} {us seen : List Ty} {fuel : Nat}

/-- `s` is the superclass of `t`. -/
def Superclass (h : Hierarchy) (t s : Ty) : Prop := (h.node t).superclass = some s

/-- No type stands above itself by superclass links. -/
def Acyclic (h : Hierarchy) : Prop := ∀ t, ¬ TransGen h.Superclass t t

/-! ## Fuel -/

/-- A walk has fuel for all types of a list that it may still meet: what it has seen is on the
list, none of it twice. -/
structure Fuelled (us : List Ty) (fuel : Nat) (seen : List Ty) : Prop where
  nodup : seen.Nodup
  subset : seen ⊆ us
  length_lt : us.length < fuel + seen.length

namespace Fuelled

theorem ne_zero (hf : Fuelled us fuel seen) : fuel ≠ 0 := by
  rintro rfl
  have hle : seen.length ≤ us.length := (List.subperm_of_subset hf.nodup hf.subset).length_le
  have hlt := hf.length_lt
  omega

/-- A step that meets something new leaves enough for the rest. -/
theorem append {level : List Ty} (hf : Fuelled us (fuel + 1) seen) (hlevel : level.Nodup)
    (hnew : ∀ t ∈ level, t ∈ us ∧ t ∉ seen) (hne : level ≠ []) :
    Fuelled us fuel (level ++ seen) where
  nodup := List.nodup_append'.2 ⟨hlevel, hf.nodup, fun t ht => (hnew t ht).2⟩
  subset := List.append_subset.2 ⟨fun t ht => (hnew t ht).1, hf.subset⟩
  length_lt := by
    have hpos : 0 < level.length := List.length_pos_of_ne_nil hne
    have hlt := hf.length_lt
    rw [List.length_append]
    omega

theorem cons (hf : Fuelled us (fuel + 1) seen) (ht : t ∈ us) (hnew : t ∉ seen) :
    Fuelled us fuel (t :: seen) :=
  hf.append (List.nodup_singleton t) (by simpa using ⟨ht, hnew⟩) (List.cons_ne_nil _ _)

end Fuelled

/-- The walk from a type has fuel for all that it can meet. -/
theorem fuelled_self (h : Hierarchy) (t : Ty) : Fuelled (t :: h.known) h.fuel [t] where
  nodup := List.nodup_singleton t
  subset := by simp
  length_lt := by
    simp only [fuel, List.length_cons, List.length_nil]
    omega

/-! ## Declared types -/

theorem mem_declared_of_lookup {n : Supertypes} (hn : h.declared.lookup t = some n) :
    (t, n) ∈ h.declared := by
  obtain ⟨l₁, l₂, heq, -⟩ := List.lookup_eq_some_iff.1 hn
  rw [heq]
  simp

theorem node_of_not_declared (ht : ∀ n, (t, n) ∉ h.declared) : h.node t = Supertypes.builtin t := by
  have hl : h.declared.lookup t = none := by
    rw [Option.eq_none_iff_forall_not_mem]
    exact fun n hn => ht n (mem_declared_of_lookup hn)
  rw [node, hl, Option.getD_none]

theorem builtin_all_subset (t : Ty) : (Supertypes.builtin t).all ⊆ Supertypes.builtinTypes := by
  cases t with
  | collection k =>
    cases k with
    | interface s => cases s <;> decide
    | concrete c => cases c <;> decide
    | wrapped w s =>
      cases s <;> simp [Supertypes.builtin, Supertypes.all, Supertypes.builtinTypes]
  | _ => simp [Supertypes.builtin, Supertypes.all, Supertypes.builtinTypes]

/-- Every direct supertype of a type is known. -/
theorem mem_known_of_node (hs : s ∈ (h.node t).all) : s ∈ h.known := by
  unfold node at hs
  cases hl : h.declared.lookup t with
  | none =>
    rw [hl, Option.getD_none] at hs
    exact List.mem_append_right _ (builtin_all_subset t hs)
  | some n =>
    rw [hl, Option.getD_some] at hs
    refine List.mem_append_left _ (List.mem_flatMap.2 ⟨(t, n), mem_declared_of_lookup hl, ?_⟩)
    exact List.mem_cons_of_mem _ hs

theorem mem_known_of_declared {n : Supertypes} (ht : (t, n) ∈ h.declared) : t ∈ h.known :=
  List.mem_append_left _ (List.mem_flatMap.2 ⟨(t, n), ht, List.mem_cons_self⟩)

theorem Superclass.mem_known (hs : h.Superclass t s) : s ∈ h.known :=
  mem_known_of_node (List.mem_append_left _ (Option.mem_toList.2 hs))

theorem builtin_superclass_eq_none (hs : (Supertypes.builtin t).superclass = some s) :
    (Supertypes.builtin s).superclass = none := by
  cases t with
  | integral w | float | double | decimal | enum E => cases hs; rfl
  | collection k =>
    cases k with
    | interface c => cases c <;> cases hs
    | concrete c => cases c <;> cases hs; rfl
    | wrapped w c => cases hs
  | _ => cases hs

theorem isDeclared_of_mem {n : Supertypes} (ht : (t, n) ∈ h.declared) : h.isDeclared t := by
  by_contra hd
  rw [isDeclared, Option.not_isSome_iff_eq_none, List.lookup_eq_none_iff] at hd
  simpa using hd (t, n) ht

/-! ## Cycles -/

theorem Superclass.eq {u : Ty} (hs : h.Superclass t s) (hu : h.Superclass t u) : s = u :=
  Option.some_inj.1 (hs.symm.trans hu)

theorem exists_declared_of_cycle (ht : TransGen h.Superclass t t) :
    ∃ u n, (u, n) ∈ h.declared ∧ TransGen h.Superclass u u := by
  by_cases hd : ∃ n, (t, n) ∈ h.declared
  · obtain ⟨n, hn⟩ := hd
    exact ⟨t, n, hn, ht⟩
  obtain ⟨s, hts, hst⟩ := TransGen.head'_iff.1 ht
  have hs : TransGen h.Superclass s s := TransGen.tail' hst hts
  by_cases hd' : ∃ n, (s, n) ∈ h.declared
  · obtain ⟨n, hn⟩ := hd'
    exact ⟨s, n, hn, hs⟩
  -- Two built-in links in a row do not exist.
  simp only [not_exists] at hd hd'
  obtain ⟨u, hsu, -⟩ := TransGen.head'_iff.1 hs
  rw [Superclass, node_of_not_declared hd] at hts
  rw [Superclass, node_of_not_declared hd', builtin_superclass_eq_none hts] at hsu
  cases hsu

theorem acc_of_returns_eq_false
    (hr : h.returns fuel seen (some t) = false) : Acc (fun a b => h.Superclass b a) t := by
  induction fuel generalizing seen t with
  | zero => simp [returns] at hr
  | succ fuel ih =>
    simp only [returns, Bool.or_eq_false_iff] at hr
    refine .intro t fun s hs => ?_
    rw [show (h.node t).superclass = some s from hs] at hr
    exact ih hr.2

theorem not_cycle_of_acc (ht : Acc (fun a b => h.Superclass b a) t) :
    ¬ TransGen h.Superclass t t := by
  induction ht with
  | intro t _ ih =>
    intro hc
    obtain ⟨s, hts, hst⟩ := TransGen.head'_iff.1 hc
    exact ih s hts (TransGen.tail' hst hts)

/-- A walk that can come upon no cycle ends: it meets no type twice, and there is fuel for all
known types. -/
theorem returns_eq_false (hf : Fuelled h.known fuel seen)
    (ha : ∀ u, ReflTransGen h.Superclass t u → ¬ TransGen h.Superclass u u)
    (hseen : ∀ u ∈ seen, TransGen h.Superclass u t) (ht : t ∈ h.known) :
    h.returns fuel seen (some t) = false := by
  induction fuel generalizing seen t with
  | zero => exact absurd rfl hf.ne_zero
  | succ fuel ih =>
    have hnot : t ∉ seen := fun hm => ha t .refl (hseen t hm)
    simp only [returns, Bool.or_eq_false_iff]
    refine ⟨by simpa using hnot, ?_⟩
    cases hs : (h.node t).superclass with
    | none => simp [returns]
    | some s =>
      have hts : h.Superclass t s := hs
      refine ih (hf.cons ht hnot) (fun u hu => ha u (.head hts hu)) ?_ hts.mem_known
      intro u hu
      rcases List.mem_cons.1 hu with rfl | hu
      · exact .single hts
      · exact (hseen u hu).tail hts

theorem returns_eq_false_iff {n : Supertypes} (ht : (t, n) ∈ h.declared) :
    h.returns h.fuel [] (some t) = false ↔
      ∀ u, ReflTransGen h.Superclass t u → ¬ TransGen h.Superclass u u := by
  constructor
  · intro hr u hu
    refine not_cycle_of_acc ?_
    induction hu with
    | refl => exact acc_of_returns_eq_false hr
    | tail _ hs ih => exact ih.inv hs
  · intro ha
    refine returns_eq_false ⟨.nil, List.nil_subset _, ?_⟩ ha (by simp) (mem_known_of_declared ht)
    simp only [fuel, List.length_nil]
    omega

theorem validate_eq_error {e : CyclicSuperclasses} (he : h.validate = .error e) :
    ∃ n, (e.type, n) ∈ h.declared ∧ h.returns h.fuel [] (some e.type) = true := by
  unfold validate at he
  split at he
  next t n hfind =>
    cases he
    exact ⟨n, List.mem_of_find?_eq_some hfind, by simpa using List.find?_some hfind⟩
  next => cases he

/-- Validation is exact. It passes when no type, declared or not, stands above itself by
superclass links, and only then. -/
theorem validate_eq_ok_iff (h : Hierarchy) : h.validate = .ok () ↔ h.Acyclic := by
  constructor
  · intro hok t ht
    obtain ⟨u, n, hu, hc⟩ := exists_declared_of_cycle ht
    have hall : ∀ d ∈ h.declared, h.returns h.fuel [] (some d.1) = false := by
      unfold validate at hok
      split at hok
      next => cases hok
      next hfind => simpa using hfind
    exact (returns_eq_false_iff hu).1 (hall (u, n) hu) u .refl hc
  · intro ha
    cases hv : h.validate with
    | ok => rfl
    | error e =>
      obtain ⟨n, hn, hr⟩ := validate_eq_error hv
      rw [(returns_eq_false_iff hn).2 fun u _ => ha u] at hr
      cases hr

/-! ## Paths -/

/-- The superclasses of a type one above the other, up to one that has no superclass, or has `any`
for it. -/
inductive SuperclassPath (h : Hierarchy) : Ty → List Ty → Prop
  | stop {t : Ty} (hend : ∀ s, h.Superclass t s → s = .any) : SuperclassPath h t []
  | step {t s : Ty} {path : List Ty} (hs : h.Superclass t s) (hany : s ≠ .any)
    (hp : SuperclassPath h s path) : SuperclassPath h t (s :: path)

/-- A type has one path at most. -/
theorem SuperclassPath.unique {path path' : List Ty} (hp : h.SuperclassPath t path)
    (hp' : h.SuperclassPath t path') : path = path' := by
  induction hp generalizing path' with
  | stop hend =>
    cases hp' with
    | stop => rfl
    | step hs hany => exact absurd (hend _ hs) hany
  | step hs hany hp ih =>
    cases hp' with
    | stop hend => exact absurd (hend _ hs) hany
    | step hs' _ hp' =>
      cases hs.eq hs'
      rw [ih hp']

/-- Without cycles a walk is stopped by `any` or by the end of the path, and never by what it has
seen or by want of fuel. -/
theorem Acyclic.superclassPath_chainFrom (ha : h.Acyclic) (hf : Fuelled us fuel seen)
    (hus : h.known ⊆ us) (hseen : ∀ u ∈ seen, ReflTransGen h.Superclass u t) :
    h.SuperclassPath t (h.chainFrom fuel seen (h.node t).superclass) := by
  induction fuel generalizing seen t with
  | zero => exact absurd rfl hf.ne_zero
  | succ fuel ih =>
    cases hs : (h.node t).superclass with
    | none =>
      refine .stop fun s hts => ?_
      rw [Superclass, hs] at hts
      cases hts
    | some s =>
      have hts : h.Superclass t s := hs
      have hnot : s ∉ seen := fun hm => ha s (TransGen.tail' (hseen s hm) hts)
      by_cases hany : s = .any
      · simp only [chainFrom, hany, decide_true, Bool.true_or, if_true]
        exact .stop fun u htu => (htu.eq hts).trans hany
      · simp only [chainFrom, hany, decide_false, Bool.false_or, List.contains_iff_mem, hnot,
          if_false]
        refine .step hts hany (ih (hf.cons (hus hts.mem_known) hnot) ?_)
        intro u hu
        rcases List.mem_cons.1 hu with rfl | hu
        · exact .refl
        · exact (hseen u hu).tail hts

/-- Without cycles the chain of a type is its whole path. -/
theorem Acyclic.superclassPath_chain (ha : h.Acyclic) (t : Ty) :
    h.SuperclassPath t (h.superclassChain t) := by
  refine ha.superclassPath_chainFrom (fuelled_self h t) (List.subset_cons_self _ _) fun u hu => ?_
  cases List.mem_singleton.1 hu
  exact .refl

theorem nodup_iff_no_cycle :
    (∀ path, (t :: path).IsChain h.Superclass → (t :: path).Nodup) ↔
      ∀ u, ReflTransGen h.Superclass t u → ¬ TransGen h.Superclass u u := by
  constructor
  · intro hnodup u hu
    induction hu using ReflTransGen.head_induction_on with
    | refl =>
      intro hc
      obtain ⟨s, hus, hsu⟩ := TransGen.head'_iff.1 hc
      obtain ⟨path, hpath, hlast⟩ := List.exists_isChain_cons_of_relationReflTransGen hsu
      have hback : u ∈ s :: path := hlast ▸ List.getLast_mem _
      exact (List.nodup_cons.1 (hnodup _ (.cons_cons hus hpath))).1 hback
    | head hts _ ih =>
      refine ih fun path hpath => ?_
      exact (List.nodup_cons.1 (hnodup _ (.cons_cons hts hpath))).2
  · intro ha path hpath
    induction path generalizing t with
    | nil => exact List.nodup_singleton t
    | cons s path ih =>
      obtain ⟨hts, hpath⟩ := List.isChain_cons_cons.1 hpath
      refine List.nodup_cons.2 ⟨fun hback => ?_, ih (fun u hu => ha u (.head hts hu)) hpath⟩
      -- every type on the rest of the links lies above `s`, so `t` would too
      have habove : ∀ u ∈ s :: path, ReflTransGen h.Superclass s u :=
        hpath.induction _ _ (fun _ _ hxy hx => hx.tail hxy) fun _ => .refl
      exact ha t .refl (TransGen.head' hts (habove t hback))

/-- **Validation is exact.** It passes just when no superclass links, from whatever type, lead
back to a type they have met. When they do it names a declared type whose links do. When it
passes, the chain of every type is its whole path of superclasses, up to the end or to `any`. -/
theorem validate_exact (h : Hierarchy) :
    (h.validate = .ok () ↔
      ∀ t path, (t :: path).IsChain h.Superclass → (t :: path).Nodup) ∧
    (∀ e, h.validate = .error e → h.isDeclared e.type ∧
      ∃ path, (e.type :: path).IsChain h.Superclass ∧ ¬ (e.type :: path).Nodup) ∧
    (h.validate = .ok () → ∀ t path, h.SuperclassPath t path ↔ path = h.superclassChain t) := by
  refine ⟨?_, fun e he => ?_, fun hok t path => ?_⟩
  · simp only [validate_eq_ok_iff, nodup_iff_no_cycle]
    exact ⟨fun ha _ u _ => ha u, fun ha t => ha t t .refl⟩
  · obtain ⟨n, hn, hr⟩ := validate_eq_error he
    have hcycle : ¬ ∀ path, (e.type :: path).IsChain h.Superclass → (e.type :: path).Nodup := by
      rw [nodup_iff_no_cycle, ← returns_eq_false_iff hn, hr]
      simp
    refine ⟨isDeclared_of_mem hn, ?_⟩
    simpa only [not_forall, exists_prop] using hcycle
  · have hpath := ((validate_eq_ok_iff h).1 hok).superclassPath_chain t
    exact ⟨fun hp => hp.unique hpath, fun heq => heq ▸ hpath⟩

end Recast.Hierarchy
