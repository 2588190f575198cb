/-
Drafts as they are put together, and the registries they make.

A run of requests declares types, registers conversions and provides
factories, and goes on after a refusal. Whatever the run, the families hold
the conversions that were taken, grouped by target in the order they came in;
a refusal names its cause and changes nothing; and `build` makes a registry
exactly when superclasses form no cycle and no source stands above a later
one of its family. Declarations may come after the check that `register` made
and undo it, and `build` finds that; without late declarations it has nothing
to find.
-/
import Recast.Proofs.Hierarchy.Superclass
import Recast.Proofs.Registry.Families

namespace Recast.Draft

variable {d d' : Draft} {source target : Ty} {conversion : Conversion}

/-! ## Registering one conversion -/

/-- A conversion that is registered is pushed, and nothing else changes; no entry of the target
stands above it. -/
theorem register_eq_ok (h : d.register source target conversion = .ok d') :
    d' = { d with families := push source target conversion d.families } ∧
      ∀ e ∈ d.entries target, d.hierarchy.isStrictSupertype e.source source = false := by
  unfold register at h
  cases hf : d.family? target with
  | none =>
    simp only [hf] at h
    exact ⟨(Except.ok.inj h).symm, by simp [entries_eq_nil_of_family?_eq_none hf]⟩
  | some f =>
    simp only [hf] at h
    rw [entries_of_family? hf]
    split at h
    · cases h
    · split at h
      next => cases h
      next hnone =>
        refine ⟨(Except.ok.inj h).symm, fun e he => ?_⟩
        simpa using List.find?_eq_none.1 hnone e he

/-- A conversion of exactly this pair is registered. -/
def Has (d : Draft) (source target : Ty) : Prop := ∃ e ∈ d.entries target, e.source = source

/-- Why a draft refuses a conversion: the pair is there already, or else an entry of the target
stands above it; the error names the first of these. -/
inductive Refuses (d : Draft) (source target : Ty) : RegistryError → Prop
  | duplicate : d.Has source target → d.Refuses source target (.duplicate source target)
  | misordered {earlier : Entry} {before after : List Entry} :
      ¬ d.Has source target → d.entries target = before ++ earlier :: after →
      d.hierarchy.isStrictSupertype earlier.source source = true →
      (∀ e ∈ before, d.hierarchy.isStrictSupertype e.source source = false) →
      d.Refuses source target (.misordered target earlier.source source)

theorem Formed.register_cases (hd : d.Formed) (source target : Ty) (conversion : Conversion) :
    (∃ e, d.register source target conversion = .error e ∧ d.Refuses source target e) ∨
      (d.register source target conversion =
          .ok { d with families := Draft.push source target conversion d.families } ∧
        ¬ d.Has source target ∧
        ∀ e ∈ d.entries target, d.hierarchy.isStrictSupertype e.source source = false) := by
  unfold Draft.register
  cases hf : d.family? target with
  | none =>
    have hnil := entries_eq_nil_of_family?_eq_none hf
    exact .inr ⟨rfl, by simp [Has, hnil], by simp [hnil]⟩
  | some f =>
    have hent := entries_of_family? hf
    have hfound : (f.lookup? source).isSome ↔ ∃ e ∈ f.entries, e.source = source :=
      (hd.family hf).lookup?_isSome_iff
    by_cases hdup : (f.lookup? source).isSome
    · simp only [hdup, if_true]
      have hhas : d.Has source target := by
        rw [Has, hent]
        exact hfound.1 hdup
      exact .inl ⟨_, rfl, .duplicate hhas⟩
    have hnot : ¬ d.Has source target := by
      rw [Has, hent]
      exact mt hfound.2 hdup
    simp only [hdup, Bool.false_eq_true, if_false]
    cases ha : f.above? d.hierarchy source with
    | none =>
      refine .inr ⟨rfl, hnot, fun e he => ?_⟩
      simpa using List.find?_eq_none.1 ha e (hent ▸ he)
    | some earlier =>
      obtain ⟨hsup, before, after, hsplit, hbefore⟩ := List.find?_eq_some_iff_append.1 ha
      refine .inl ⟨_, rfl, .misordered hnot (hent.trans hsplit) hsup fun e he => ?_⟩
      simpa using hbefore e he

theorem Refuses.has_or_above {e : RegistryError} (h : d.Refuses source target e) :
    d.Has source target ∨
      ∃ earlier ∈ d.entries target, d.hierarchy.isStrictSupertype earlier.source source = true := by
  cases h with
  | duplicate hhas => exact .inl hhas
  | misordered _ hsplit hsup _ => exact .inr ⟨_, by rw [hsplit]; simp, hsup⟩

/-- At most one error is the cause of a refusal. -/
theorem Refuses.unique {e e' : RegistryError} (h : d.Refuses source target e)
    (h' : d.Refuses source target e') : e = e' := by
  cases h with
  | duplicate hhas =>
    cases h' with
    | duplicate => rfl
    | misordered hnot => exact absurd hhas hnot
  | @misordered a before after hnot hsplit hsup hbefore =>
    cases h' with
    | duplicate hhas => exact absurd hhas hnot
    | @misordered b before' after' _ hsplit' hsup' hbefore' =>
      -- Both are the first entry above the source.
      have hfirst : ∀ {x : Entry} {xs ys : List Entry}, d.entries target = xs ++ x :: ys →
          d.hierarchy.isStrictSupertype x.source source = true →
          (∀ y ∈ xs, d.hierarchy.isStrictSupertype y.source source = false) →
          (d.entries target).find? (fun y => d.hierarchy.isStrictSupertype y.source source)
            = some x := by
        intro x xs ys hs hx hxs
        exact List.find?_eq_some_iff_append.2 ⟨hx, xs, ys, hs, fun y hy => by simp [hxs y hy]⟩
      have heq := (hfirst hsplit hsup hbefore).symm.trans (hfirst hsplit' hsup' hbefore')
      rw [Option.some_inj.1 heq]

theorem exists_refuses_iff : (∃ e, d.Refuses source target e) ↔ d.Has source target ∨
    ∃ earlier ∈ d.entries target, d.hierarchy.isStrictSupertype earlier.source source = true := by
  refine ⟨fun ⟨_, h⟩ => h.has_or_above, fun h => ?_⟩
  by_cases hhas : d.Has source target
  · exact ⟨_, .duplicate hhas⟩
  obtain ⟨earlier, he, hsup⟩ := h.resolve_left hhas
  cases hf : (d.entries target).find? fun e => d.hierarchy.isStrictSupertype e.source source with
  | none => exact absurd hsup (List.find?_eq_none.1 hf earlier he)
  | some first =>
    obtain ⟨hfirst, before, after, hsplit, hbefore⟩ := List.find?_eq_some_iff_append.1 hf
    exact ⟨_, .misordered hhas hsplit hfirst fun e he => by simpa using hbefore e he⟩

theorem Formed.register_eq_error_iff (hd : d.Formed) {e : RegistryError} :
    d.register source target conversion = .error e ↔ d.Refuses source target e := by
  rcases hd.register_cases source target conversion with ⟨e', he', hr⟩ | ⟨hok, hnot, hbelow⟩
  · rw [he', Except.error.injEq]
    exact ⟨fun h => h ▸ hr, fun h => hr.unique h⟩
  · rw [hok]
    refine ⟨fun h => (nomatch h), fun h => ?_⟩
    rcases h.has_or_above with hhas | ⟨earlier, he, hsup⟩
    · exact absurd hhas hnot
    · rw [hbelow earlier he] at hsup
      cases hsup

theorem Formed.not_has_of_register (hd : d.Formed)
    (h : d.register source target conversion = .ok d') : ¬ d.Has source target := by
  rcases hd.register_cases source target conversion with ⟨e, he, -⟩ | ⟨-, hnot, -⟩
  · cases he.symm.trans h
  · exact hnot

/-! ## Order within families -/

/-- No source stands strictly above a later one of its family. -/
def Ordered (d : Draft) : Prop :=
  ∀ f ∈ d.families, f.entries.Pairwise fun earlier later =>
    d.hierarchy.isStrictSupertype earlier.source later.source = false

theorem Ordered.entries (hd : d.Ordered) (target : Ty) :
    (d.entries target).Pairwise fun earlier later =>
      d.hierarchy.isStrictSupertype earlier.source later.source = false := by
  cases hf : d.family? target with
  | none =>
    rw [entries_eq_nil_of_family?_eq_none hf]
    exact .nil
  | some f =>
    rw [entries_of_family? hf]
    exact hd f (List.mem_of_find?_eq_some hf)

theorem ordered_of_families_eq_nil (h : d.families = []) : d.Ordered := by
  simp [Ordered, h]

/-- The check that `register` makes keeps the families in order. -/
theorem Ordered.register (hd : d.Ordered)
    (h : d.register source target conversion = .ok d') : d'.Ordered := by
  obtain ⟨rfl, hbelow⟩ := register_eq_ok h
  intro f hf
  rcases mem_push hf with hf | ⟨g, hg, rfl⟩ | rfl
  · exact hd f hf
  · rw [entries_of_family? hg] at hbelow
    show (g.entries ++ [(⟨_, source, conversion⟩ : Entry)]).Pairwise _
    refine List.pairwise_append.2 ⟨hd g (List.mem_of_find?_eq_some hg), List.pairwise_singleton _ _,
      fun e he e' he' => ?_⟩
    rw [List.mem_singleton.1 he']
    exact hbelow e he
  · exact List.pairwise_singleton _ _

theorem misordered?_eq_none_iff {h : Hierarchy} {es : List Entry} :
    Family.misordered? h es = none ↔ es.Pairwise fun earlier later =>
      h.isStrictSupertype earlier.source later.source = false := by
  induction es with
  | nil => simp [Family.misordered?]
  | cons e es ih =>
    simp only [Family.misordered?]
    split
    next later hl =>
      have hmem := List.mem_of_find?_eq_some hl
      have hsup := List.find?_some hl
      simp only [reduceCtorEq, List.pairwise_cons, false_iff, not_and]
      intro hall
      rw [hall later hmem] at hsup
      cases hsup
    next hnone =>
      rw [ih, List.pairwise_cons, iff_and_self]
      exact fun _ later hl => by simpa using List.find?_eq_none.1 hnone later hl

/-! ## Building -/

theorem fault?_eq_none_iff : d.fault? = none ↔ d.hierarchy.Acyclic ∧ d.Ordered := by
  rw [← Hierarchy.validate_eq_ok_iff, fault?]
  cases hv : d.hierarchy.validate with
  | error e => simp
  | ok u =>
    simp only [true_and, List.findSome?_eq_none_iff, Option.map_eq_none_iff,
      misordered?_eq_none_iff, Ordered]

theorem not_ordered_of_fault? {family earlier later : Ty}
    (h : d.fault? = some (.misordered family earlier later)) : ¬ d.Ordered := by
  intro ho
  unfold fault? at h
  split at h
  · cases h
  obtain ⟨f, hf, hm⟩ := List.exists_of_findSome?_eq_some h
  rw [misordered?_eq_none_iff.2 (ho f hf)] at hm
  cases hm

theorem build_eq_error_iff {e : RegistryError} : d.build = .error e ↔ d.fault? = some e := by
  unfold build
  split
  next hn => simp [hn]
  next e' he => simp [he]

/-- A registry is the draft that it was built from. -/
theorem build_eq_ok_iff {r : Registry} : d.build = .ok r ↔ r.toDraft = d := by
  unfold build
  split
  next hn =>
    rw [Except.ok.injEq]
    exact ⟨fun h => h ▸ rfl, fun h => by cases r; cases h; rfl⟩
  next e he =>
    refine ⟨fun h => (nomatch h), fun h => ?_⟩
    rw [← h, r.sound] at he
    cases he

theorem exists_build_eq_ok_iff : (∃ r, d.build = .ok r) ↔ d.hierarchy.Acyclic ∧ d.Ordered := by
  rw [← fault?_eq_none_iff]
  constructor
  · rintro ⟨r, hr⟩
    exact build_eq_ok_iff.1 hr ▸ r.sound
  · intro h
    exact ⟨⟨d, h⟩, build_eq_ok_iff.2 rfl⟩

/-! ## Runs of requests -/

/-- What a draft is asked while it is put together. -/
inductive Request
  | declare (type : Ty) (supertypes : Supertypes)
  | register (source target : Ty) (conversion : Conversion)
  | provide (type : CollectionTy) (factory : Factory)

namespace Request

def IsDeclaration : Request → Prop
  | .declare _ _ => True
  | _ => False

def IsRegistration : Request → Prop
  | .register _ _ _ => True
  | _ => False

end Request

/-- Carries one request out; a refused one gives its error. -/
def perform (d : Draft) : Request → Draft × Option RegistryError
  | .declare type supertypes => (d.declare type supertypes, none)
  | .register source target conversion =>
    match d.register source target conversion with
    | .ok d' => (d', none)
    | .error e => (d, some e)
  | .provide type factory => (d.withFactory type factory, none)

/-- The draft after some requests, refused ones included. -/
def after (d : Draft) (requests : List Request) : Draft :=
  requests.foldl (fun d r => (d.perform r).1) d

/-- The conversion that a request adds, with its target and source; nothing when it is refused. -/
def taken (d : Draft) : Request → List (Ty × Ty × Conversion)
  | .register source target conversion =>
    match d.register source target conversion with
    | .ok _ => [(target, source, conversion)]
    | .error _ => []
  | _ => []

/-- The conversions that a run adds, in order. -/
def accepted (d : Draft) : List Request → List (Ty × Ty × Conversion)
  | [] => []
  | r :: rs => d.taken r ++ accepted (d.perform r).1 rs

theorem Formed.perform_register_eq_some_iff (hd : d.Formed) {e : RegistryError} :
    (d.perform (.register source target conversion)).2 = some e ↔ d.Refuses source target e := by
  rw [← hd.register_eq_error_iff, Draft.perform]
  cases d.register source target conversion <;> simp

theorem perform_register_of_some {e : RegistryError}
    (h : (d.perform (.register source target conversion)).2 = some e) :
    (d.perform (.register source target conversion)).1 = d := by
  simp only [perform] at h ⊢
  cases hr : d.register source target conversion with
  | error e => rfl
  | ok d' =>
    rw [hr] at h
    cases h

theorem withFactory_families (type : CollectionTy) (factory : Factory) :
    (d.withFactory type factory).families = d.families := by
  unfold withFactory
  split <;> rfl

theorem withFactory_hierarchy (type : CollectionTy) (factory : Factory) :
    (d.withFactory type factory).hierarchy = d.hierarchy := by
  unfold withFactory
  split <;> rfl

/-! ## What runs keep -/

/-- Registering keeps a draft formed: the pair was new. -/
theorem Formed.register (hd : d.Formed)
    (h : d.register source target conversion = .ok d') : d'.Formed := by
  have hnot := hd.not_has_of_register h
  obtain ⟨rfl, -⟩ := register_eq_ok h
  exact hd.push fun e he hsource => hnot ⟨e, he, hsource⟩

theorem Formed.perform (hd : d.Formed) (r : Request) : (d.perform r).1.Formed := by
  cases r with
  | declare type supertypes => exact ⟨hd.targets, hd.families⟩
  | provide type factory =>
    have hf := withFactory_families (d := d) type factory
    exact ⟨hf ▸ hd.targets, hf ▸ hd.families⟩
  | register source target conversion =>
    simp only [Draft.perform]
    cases hr : d.register source target conversion with
    | error e => exact hd
    | ok d' => exact hd.register hr

theorem Formed.after (hd : d.Formed) (requests : List Request) : (d.after requests).Formed := by
  induction requests generalizing d with
  | nil => exact hd
  | cons r rs ih => exact ih (hd.perform r)

theorem families_perform {added : List (Ty × Ty × Conversion)} (hd : d.families = grouped added)
    (r : Request) : (d.perform r).1.families = grouped (added ++ d.taken r) := by
  cases r with
  | declare type supertypes => simpa [perform, taken, declare] using hd
  | provide type factory => simpa [perform, taken, withFactory_families] using hd
  | register source target conversion =>
    simp only [perform, taken]
    cases hr : d.register source target conversion with
    | error e => simpa using hd
    | ok d' => rw [(register_eq_ok hr).1, ← push_grouped, hd]

theorem families_after {added : List (Ty × Ty × Conversion)} (hd : d.families = grouped added)
    (requests : List Request) :
    (d.after requests).families = grouped (added ++ d.accepted requests) := by
  induction requests generalizing d added with
  | nil => simpa [after, accepted] using hd
  | cons r rs ih =>
    rw [accepted, ← List.append_assoc]
    exact ih (families_perform hd r)

theorem mem_entries_perform {r : Request} {e : Entry}
    (he : e ∈ (d.perform r).1.entries target) :
    e ∈ d.entries target ∨ r = .register e.source target e.conversion := by
  cases r with
  | declare type supertypes => exact .inl he
  | provide type factory =>
    simp only [perform, entries, family?, withFactory_families] at he
    exact .inl he
  | register source u conversion =>
    simp only [perform] at he
    cases hreg : d.register source u conversion with
    | error err =>
      simp only [hreg] at he
      exact .inl he
    | ok d' =>
      simp only [hreg] at he
      obtain ⟨rfl, -⟩ := register_eq_ok hreg
      rw [entries_push] at he
      split at he
      next ht =>
        subst ht
        rcases List.mem_append.1 he with he | he
        · exact .inl he
        · rw [List.mem_singleton.1 he]
          exact .inr rfl
      next => exact .inl he

theorem mem_entries_after {requests : List Request} {e : Entry}
    (he : e ∈ (d.after requests).entries target) :
    e ∈ d.entries target ∨ .register e.source target e.conversion ∈ requests := by
  induction requests generalizing d with
  | nil => exact .inl he
  | cons r rs ih =>
    rcases ih he with hmem | hmem
    · rcases mem_entries_perform hmem with hmem | rfl
      · exact .inl hmem
      · exact .inr List.mem_cons_self
    · exact .inr (List.mem_cons_of_mem _ hmem)

/-- Registering conversions touches neither the hierarchy nor the factories. -/
theorem after_registrations {requests : List Request} (h : ∀ r ∈ requests, r.IsRegistration) :
    (d.after requests).hierarchy = d.hierarchy ∧ (d.after requests).factories = d.factories := by
  induction requests generalizing d with
  | nil => exact ⟨rfl, rfl⟩
  | cons r rs ih =>
    obtain ⟨hr, hrs⟩ := List.forall_mem_cons.1 h
    have hstep : (d.perform r).1.hierarchy = d.hierarchy ∧
        (d.perform r).1.factories = d.factories := by
      cases r with
      | declare type supertypes => cases hr
      | provide type factory => cases hr
      | register source target conversion =>
        simp only [perform]
        cases hreg : d.register source target conversion with
        | error e => exact ⟨rfl, rfl⟩
        | ok d' =>
          obtain ⟨rfl, -⟩ := register_eq_ok hreg
          exact ⟨rfl, rfl⟩
    obtain ⟨hhierarchy, hfactories⟩ := ih (d := (d.perform r).1) hrs
    exact ⟨hhierarchy.trans hstep.1, hfactories.trans hstep.2⟩

/-- A run keeps the order of the families when it starts without any, or declares nothing. -/
theorem Ordered.after (hd : d.Ordered) {requests : List Request}
    (hp : requests.Pairwise fun r later => r.IsRegistration → ¬ later.IsDeclaration)
    (hs : d.families = [] ∨ ∀ r ∈ requests, ¬ r.IsDeclaration) : (d.after requests).Ordered := by
  induction requests generalizing d with
  | nil => exact hd
  | cons r rs ih =>
    obtain ⟨hr, hrs⟩ := List.pairwise_cons.1 hp
    have hrest (h : ∀ r' ∈ r :: rs, ¬ r'.IsDeclaration) : ∀ r' ∈ rs, ¬ r'.IsDeclaration :=
      fun r' hr' => h r' (List.mem_cons_of_mem _ hr')
    cases r with
    | declare type supertypes =>
      -- Nothing is registered yet.
      have hnil : d.families = [] := hs.resolve_right fun h => h _ List.mem_cons_self trivial
      exact ih (d := d.declare type supertypes) (ordered_of_families_eq_nil hnil) hrs (.inl hnil)
    | provide type factory =>
      have hf := withFactory_families (d := d) type factory
      refine ih (d := d.withFactory type factory) ?_ hrs (hs.imp (hf ▸ ·) hrest)
      rw [Ordered, hf, withFactory_hierarchy]
      exact hd
    | register source target conversion =>
      have hlate : ∀ r' ∈ rs, ¬ r'.IsDeclaration := fun r' hr' => hr r' hr' trivial
      have hstep : (d.perform (.register source target conversion)).1.Ordered := by
        simp only [perform]
        cases hreg : d.register source target conversion with
        | error e => exact hd
        | ok d' => exact hd.register hreg
      exact ih hstep hrs (.inr hlate)

/-! ## Every run -/

theorem formed_empty : empty.Formed := ⟨.nil, fun _ hf => (nomatch hf)⟩

/-- **Putting a registry together.** After any requests on an empty draft:
a conversion is refused exactly when its pair is there, or else an entry of the target stands
strictly above it, and then nothing changes; the families are the conversions taken, grouped by
target, each target once; in a family each source stands once, each entry at its index, and the
places noted for the sources are those of their entries; looking up a pair finds the entry of that
pair; a registry is built, from this draft, exactly when superclasses form no cycle and no source
stands strictly above a later one of its family; and that order cannot fail when nothing was
declared after the first registration. -/
theorem after_requests (requests : List Request) :
    let d := empty.after requests
    (∀ source target conversion, let outcome := d.perform (.register source target conversion)
      (∀ e, outcome.2 = some e ↔ d.Refuses source target e) ∧
      (outcome.2 ≠ none ↔ d.Has source target ∨ ∃ earlier ∈ d.entries target,
        d.hierarchy.isStrictSupertype earlier.source source = true) ∧
      (outcome.2 ≠ none → outcome.1 = d)) ∧
    (d.families = grouped (empty.accepted requests) ∧ d.Formed ∧
      ∀ source target e, d.lookup? source target = some e ↔
        (d.entries target)[e.index]? = some e ∧ e.source = source) ∧
    (((∃ r, d.build = .ok r) ↔ d.hierarchy.Acyclic ∧ d.Ordered) ∧
      ∀ r, d.build = .ok r → r.toDraft = d) ∧
    ((requests.Pairwise fun r later => r.IsRegistration → ¬ later.IsDeclaration) →
      ∀ family earlier later, d.build ≠ .error (.misordered family earlier later)) := by
  intro d
  have hformed : d.Formed := formed_empty.after requests
  refine ⟨fun source target conversion => ⟨fun e => hformed.perform_register_eq_some_iff, ?_, ?_⟩,
    ⟨?_, hformed, fun _ _ e => ?_⟩,
    ⟨exists_build_eq_ok_iff, fun r hr => build_eq_ok_iff.1 hr⟩, ?_⟩
  · rw [← exists_refuses_iff, Option.ne_none_iff_exists']
    exact exists_congr fun e => hformed.perform_register_eq_some_iff
  · intro hne
    obtain ⟨e, he⟩ := Option.ne_none_iff_exists'.1 hne
    exact perform_register_of_some he
  · have hstart : empty.families = grouped [] := rfl
    simpa using families_after hstart requests
  · rw [hformed.lookup?_eq_some_iff]
    exact and_congr_left fun _ => ⟨hformed.getElem?_index, List.mem_of_getElem?⟩
  · intro hp family earlier later hb
    have ho : d.Ordered := Ordered.after (ordered_of_families_eq_nil rfl) hp (.inl rfl)
    exact not_ordered_of_fault? (build_eq_error_iff.1 hb) ho

/-- A source declared below another one, and registered before it. -/
theorem after_requests_circle_shape :
    let requests : List Request :=
      [.declare (.named "Circle") { superclass := some (.named "Shape") },
       .register (.named "Circle") .string (.ofPure fun _ _ => .ok .null),
       .register (.named "Shape") .string (.ofPure fun _ _ => .ok .null)]
    (requests.Pairwise fun r later => r.IsRegistration → ¬ later.IsDeclaration) ∧
      ∀ family earlier later,
        (empty.after requests).build ≠ .error (.misordered family earlier later) := by
  intro requests
  have hp : requests.Pairwise fun r later => r.IsRegistration → ¬ later.IsDeclaration := by
    simp [requests, Request.IsRegistration, Request.IsDeclaration]
  exact ⟨hp, (after_requests requests).2.2.2 hp⟩

end Recast.Draft

namespace Recast.Registry

/-- The registry was built after some requests on an empty draft. -/
def Built (r : Registry) : Prop := ∃ requests, (Draft.empty.after requests).build = .ok r

variable {r : Registry}

theorem Built.formed (hr : r.Built) : r.Formed := by
  obtain ⟨requests, hb⟩ := hr
  rw [Draft.build_eq_ok_iff.1 hb]
  exact Draft.formed_empty.after requests

/-- The families of a registry are in order. -/
theorem ordered (r : Registry) : r.Ordered := (Draft.fault?_eq_none_iff.1 r.sound).2

end Recast.Registry
