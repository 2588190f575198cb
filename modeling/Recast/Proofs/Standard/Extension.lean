/-
The standard conversions over declarations of a caller.

Declarations of types that are nothing but a name get in the way of no standard
conversion: all of them can be registered over such declarations, and what is
registered is the same (`registerAll_rebase`). The draft is a registry
unless the declared superclasses form a cycle, whatever the interfaces, and
from every source but the named types it resolves as the standard registry does
(`registerAll_extends`).
-/
import Recast.Proofs.Hierarchy.Extension
import Recast.Proofs.Standard.Typing

namespace Recast

open Relation

namespace Draft

variable {d : Draft} {h : Hierarchy} {source target : Ty} {conversion : Conversion}

/-- The same draft on another hierarchy. -/
def rebase (d : Draft) (h : Hierarchy) : Draft := { d with hierarchy := h }

theorem register_rebase
    (hsame : ∀ t, h.isAssignable source t = d.hierarchy.isAssignable source t) :
    (d.rebase h).register source target conversion =
      (d.register source target conversion).map (·.rebase h) := by
  have hfamily : (d.rebase h).family? target = d.family? target := rfl
  have habove (f : Family) :
      f.above? (d.rebase h).hierarchy source = f.above? d.hierarchy source := by
    simp only [Family.above?, Hierarchy.isStrictSupertype]
    simp only [rebase, hsame]
  unfold register
  rw [hfamily]
  cases d.family? target with
  | none => rfl
  | some f =>
    simp only [habove]
    split
    · rfl
    · cases f.above? d.hierarchy source <;> rfl

theorem after_declarations (d : Draft) (declarations : List (Ty × Supertypes)) :
    d.after (declarations.map fun p => .declare p.1 p.2) =
      d.rebase ⟨declarations.reverse ++ d.hierarchy.declared⟩ := by
  induction declarations generalizing d with
  | nil => rfl
  | cons p declarations ih =>
    rw [List.map_cons, after, List.foldl_cons]
    show (d.declare p.1 p.2).after _ = _
    rw [ih]
    simp [rebase, declare, Hierarchy.declare]

end Draft

namespace Standard

variable {h : Hierarchy} {tie : TieBreak} {source target : Ty}

/-! ## Registering -/

theorem isBuiltin_source : ∀ i ∈ items, i.source.isBuiltin := by decide +kernel

/-- Items are registered over another hierarchy as they are over their own, if their sources have
the same supertypes there. -/
theorem registerItems_rebase {is : List Item} {d : Draft}
    (hsame : ∀ i ∈ is, ∀ t, h.isAssignable i.source t = d.hierarchy.isAssignable i.source t) :
    registerItems is (d.rebase h) = ((registerItems is d).1.rebase h, (registerItems is d).2) := by
  induction is generalizing d with
  | nil => rfl
  | cons i is ih =>
    obtain ⟨hi, his⟩ := List.forall_mem_cons.1 hsame
    simp only [registerItems, Draft.register_rebase hi]
    cases hreg : d.register i.source i.target i.conversion with
    | error e => rfl
    | ok d' =>
      have hhierarchy : d'.hierarchy = d.hierarchy := by
        rw [(Draft.register_eq_ok hreg).1]
      exact ih (by rwa [hhierarchy])

/-- All standard conversions can be registered over declarations of named types, and they are the
same. -/
theorem registerAll_rebase (hn : h.DeclaresNamed) :
    registerAll (Draft.empty.rebase h) = (draft.rebase h, none) := by
  have hsame : ∀ i ∈ items, ∀ t,
      h.isAssignable i.source t = Draft.empty.hierarchy.isAssignable i.source t :=
    fun i hi t => hn.isAssignable_eq (isBuiltin_source i hi) t
  rw [registerAll, registerItems_rebase hsame, ← registerAll_empty]
  rfl

/-! ## Building -/

theorem ordered_registerAll {d : Draft} (hd : d.families = []) (hall : (registerAll d).2 = none) :
    (registerAll d).1.Ordered := by
  have hregistrations : ∀ r ∈ items.map Item.request, ¬r.IsDeclaration := by
    intro r hr
    obtain ⟨i, -, rfl⟩ := List.mem_map.1 hr
    exact not_false
  rw [registerAll, registerItems_eq_after hall]
  refine Draft.Ordered.after (Draft.ordered_of_families_eq_nil hd) ?_ (.inl hd)
  exact List.pairwise_of_forall_mem_list fun _ _ r hr _ => hregistrations r hr

/-- The standard conversions over declarations of named types are a registry just when the declared
superclasses form no cycle. -/
theorem exists_build_rebase_iff (hn : h.DeclaresNamed) :
    (∃ r, (draft.rebase h).build = .ok r) ↔ ∀ t, ¬TransGen h.DeclaredSuperclass t t := by
  have hall := registerAll_rebase hn
  have hordered : (draft.rebase h).Ordered := by
    have hd := ordered_registerAll (d := Draft.empty.rebase h) rfl (by rw [hall])
    rwa [hall] at hd
  rw [Draft.exists_build_eq_ok_iff, ← hn.acyclic_iff]
  exact ⟨fun hboth => hboth.1, fun hacyclic => ⟨hacyclic, hordered⟩⟩

/-! ## Resolving -/

theorem resolve_rebase {r : Registry} (hr : r.toDraft = draft.rebase h) (hn : h.DeclaresNamed)
    (tie : TieBreak) (hs : ∀ name, source ≠ .named name) (target : Ty) :
    r.resolve tie source target = registry.resolve tie source target := by
  have hlookup (s t : Ty) : r.lookup? s t = registry.lookup? s t := by
    rw [hr]
    rfl
  have hlevels : r.hierarchy.levels source = registry.hierarchy.levels source := by
    rw [hr, hierarchy_and_factories.1]
    exact hn.levels_eq hs
  have hwalk : r.walk tie source target = registry.walk tie source target := by
    simp only [Registry.walk, Registry.candidates, hlevels, hlookup]
  simp only [Registry.resolve, hlookup, hwalk]

/-! ## All declarations -/

theorem declaresNamed_of_mem {declarations : List (Ty × Supertypes)}
    (hnamed : ∀ p ∈ declarations, ∃ name, p.1 = .named name) :
    Hierarchy.DeclaresNamed ⟨declarations.reverse⟩ := by
  intro t ht
  obtain ⟨n, hn⟩ := Option.isSome_iff_exists.1 ht
  exact hnamed (t, n) (List.mem_reverse.1 (Hierarchy.mem_declared_of_lookup hn))

/-- **The standard conversions are a conservative base.** After any declarations of named types on
an empty draft, all standard conversions are registered; the draft is a registry just when the
superclasses of the last declaration of each type form no cycle, whatever the interfaces; and then
every pair whose source is not a named type resolves as in the standard registry. -/
theorem registerAll_extends (declarations : List (Ty × Supertypes))
    (hnamed : ∀ p ∈ declarations, ∃ name, p.1 = .named name) :
    let d := Draft.empty.after (declarations.map fun p => .declare p.1 p.2)
    (registerAll d).2 = none ∧
      ((∃ r, (registerAll d).1.build = .ok r) ↔
        ∀ t, ¬TransGen (fun t s =>
          (declarations.reverse.lookup t).bind (·.superclass) = some s) t t) ∧
      ∀ r, (registerAll d).1.build = .ok r → ∀ tie source target, (∀ name, source ≠ .named name) →
        r.resolve tie source target = registry.resolve tie source target := by
  intro d
  have hn := declaresNamed_of_mem hnamed
  have hd : d = Draft.empty.rebase ⟨declarations.reverse⟩ := by
    rw [show d = _ from Draft.after_declarations ..]
    simp [Draft.empty, Hierarchy.empty]
  rw [hd, registerAll_rebase hn]
  exact ⟨rfl, exists_build_rebase_iff hn, fun r hr tie source target hs =>
    resolve_rebase (Draft.build_eq_ok_iff.1 hr) hn tie hs target⟩

/-- A square is a shape and a text, and each is an interface of the other. Arrays of squares and
text are converted as before. -/
theorem registerAll_extends_square :
    let square := Ty.named "Square"
    let shape := Ty.named "Shape"
    let declarations : List (Ty × Supertypes) :=
      [(square, { superclass := some shape, interfaces := [shape, .string] }),
       (shape, { interfaces := [square, .array square] })]
    let d := Draft.empty.after (declarations.map fun p => .declare p.1 p.2)
    (∀ p ∈ declarations, ∃ name, p.1 = .named name) ∧ (registerAll d).2 = none ∧
      ∃ r, (registerAll d).1.build = .ok r ∧ ∀ tie target,
        r.resolve tie (.array square) target = registry.resolve tie (.array square) target ∧
        r.resolve tie .string target = registry.resolve tie .string target := by
  intro square shape declarations d
  have hnamed : ∀ p ∈ declarations, ∃ name, p.1 = .named name := by
    simp [declarations, square, shape]
  obtain ⟨hall, hbuild, hresolve⟩ := registerAll_extends declarations hnamed
  have hstep {t s : Ty} (hts : (declarations.reverse.lookup t).bind (·.superclass) = some s) :
      t = square ∧ s = shape := by
    by_cases hshape : t = shape
    · rw [hshape] at hts
      cases hts
    · by_cases hsquare : t = square
      · rw [hsquare] at hts
        exact ⟨hsquare, (Option.some.inj hts).symm⟩
      · simp [declarations, List.lookup_cons, beq_false_of_ne hshape, beq_false_of_ne hsquare]
          at hts
  obtain ⟨r, hr⟩ := hbuild.2 fun t ht => by
    obtain ⟨s, hts, -⟩ := TransGen.head'_iff.1 ht
    obtain ⟨u, -, hut⟩ := TransGen.tail'_iff.1 ht
    exact absurd ((hstep hts).1.symm.trans (hstep hut).2) (by decide)
  exact ⟨hnamed, hall, r, hr, fun tie target =>
    ⟨hresolve r hr tie _ target (by simp), hresolve r hr tie _ target (by simp)⟩⟩

end Standard

end Recast
