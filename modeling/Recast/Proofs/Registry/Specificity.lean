/-
What resolution makes of the subtype relation.

A draft compares sources by assignability, and puts a subtype before its
supertypes in each family. The search compares them by levels first. So the
entry found has a more specific one beside it only where the levels of the
source put a type before its own subtype (`resolve_most_specific`); a source
below an interface both directly and through another interface is of that kind
(`diamond`).

Every entry whose source stands above the source asked for is found. Entries
for arrays of a more general component are not among these, though arrays are
assignable by their components (`resolve_of_assignable`).
-/
import Recast.Proofs.Hierarchy.Specificity
import Recast.Proofs.Registry.Resolution

namespace Recast.Registry

variable {r : Registry} {tie : TieBreak} {source target : Ty}

/-! ## The most specific entry -/

theorem IsCandidate.level_eq {c : Candidate} (hc : r.IsCandidate source target c) :
    r.hierarchy.level source c.entry.source = c.level := by
  obtain ⟨l, hl, hp⟩ := hc.member
  exact Hierarchy.level_eq hl (List.mem_of_getElem? hp)

/-- By registry order, a candidate for the same target as the least one stands on a later level
than it, or not below it. -/
theorem level_lt_of_above {c c' : Candidate} (hc : r.IsCandidate source target c)
    (hc' : r.IsCandidate source target c') (hserved : c'.served = c.served)
    (hleast : c' ≠ c → c.rank .registryOrder target < c'.rank .registryOrder target)
    (hsup : r.hierarchy.isStrictSupertype c.entry.source c'.entry.source = true) :
    c.level < c'.level := by
  have hne : c' ≠ c := by
    rintro rfl
    simp [Hierarchy.isStrictSupertype] at hsup
  have hrank := hleast hne
  have hle : c.level ≤ c'.level := by
    simp only [Candidate.rank, Prod.Lex.toLex_lt_toLex] at hrank
    omega
  refine Nat.lt_of_le_of_ne hle fun heq => ?_
  rw [not_above_of_rank_lt hc hc' heq.symm hserved hrank] at hsup
  cases hsup

/-- **The most specific conversion, by levels.** By registry order, a pair whose target has no
family resolves to an entry of the target; any other entry of the target whose source is an
ancestor too, and stands below that entry's source, stands on a later level of the source. On
stratified levels there is none; the levels of a source that keeps its built-in supertypes are
stratified. -/
theorem resolve_most_specific (hr : r.Built) (ht : target.family? = none) {f : Conversion}
    (h : r.resolve .registryOrder source target = .direct f) :
    ∃ e ∈ r.entries target, r.walk .registryOrder source target = some e ∧ e.conversion = f ∧
      e.source ∈ r.hierarchy.ancestors source ∧
      (∀ d ∈ r.entries target, d.source ∈ r.hierarchy.ancestors source →
        r.hierarchy.isStrictSupertype e.source d.source = true →
        r.hierarchy.level source e.source < r.hierarchy.level source d.source) ∧
      (r.hierarchy.Stratified source ∨
          (∀ s ∈ source :: Supertypes.builtinTypes, r.hierarchy.isDeclared s = false) →
        ∀ d ∈ r.entries target, d.source ∈ r.hierarchy.ancestors source →
          r.hierarchy.isStrictSupertype e.source d.source = false) := by
  obtain ⟨e, hw, rfl⟩ := resolve_eq_direct_iff.1 h
  obtain ⟨c, hc, rfl, hleast⟩ := walk_eq_some hr.formed hw
  have hserved : ∀ {c'}, r.IsCandidate source target c' → c'.served = target := fun hc' =>
    hc'.served.resolve_right (by simp [ht])
  have hanc : c.entry.source ∈ r.hierarchy.ancestors source :=
    ((exists_isCandidate_iff c.entry).1 ⟨c, hc, rfl⟩).1
  have hlater : ∀ d ∈ r.entries target, d.source ∈ r.hierarchy.ancestors source →
      r.hierarchy.isStrictSupertype c.entry.source d.source = true →
      r.hierarchy.level source c.entry.source < r.hierarchy.level source d.source := by
    intro d hd hdanc hsup
    obtain ⟨c', hc', rfl⟩ := (exists_isCandidate_iff d).2 ⟨hdanc, target, .inl rfl, hd⟩
    rw [hc.level_eq, hc'.level_eq]
    exact level_lt_of_above hc hc' ((hserved hc').trans (hserved hc).symm) (hleast c' hc') hsup
  refine ⟨c.entry, hserved hc ▸ List.mem_of_getElem? hc.registered, hw, rfl, hanc, hlater, ?_⟩
  intro hstrat d hd hdanc
  have hs : r.hierarchy.Stratified source := hstrat.elim id Hierarchy.stratified_builtin
  rw [Bool.eq_false_iff]
  intro hsup
  exact Nat.lt_asymm (hlater d hd hdanc hsup) (hs.level_lt hdanc hanc hsup)

/-- A square is a shape, and a quadrilateral; these are polygons, which are shapes. Polygons and
shapes have conversions to text, the more specific one first. -/
def diamond : List Draft.Request :=
  let toText (s : String) : Conversion := .ofPure fun _ _ => .ok (.string s)
  [.declare (.named "Square") { interfaces := [.named "Shape", .named "Quadrilateral"] },
   .declare (.named "Quadrilateral") { interfaces := [.named "Polygon"] },
   .declare (.named "Polygon") { interfaces := [.named "Shape"] },
   .register (.named "Polygon") .string (toText "polygon"),
   .register (.named "Shape") .string (toText "shape")]

theorem fault?_diamond : (Draft.empty.after diamond).fault? = none := by decide +kernel

theorem walk_diamond :
    ∃ e, Registry.walk ⟨_, fault?_diamond⟩ .registryOrder (.named "Square") .string = some e ∧
      e.source = .named "Shape" := by
  have hsource : (Registry.walk ⟨_, fault?_diamond⟩ .registryOrder (.named "Square") .string).map
      (·.source) = some (.named "Shape") := by decide +kernel
  obtain ⟨e, he, hs⟩ := Option.map_eq_some_iff.1 hsource
  exact ⟨e, he, hs⟩

/-- The entry that serves a square stands on an earlier level than the one below it. -/
theorem resolve_most_specific_diamond :
    ∃ r : Registry, (Draft.empty.after diamond).build = .ok r ∧ Ty.string.family? = none ∧
      ∃ f, r.resolve .registryOrder (.named "Square") .string = .direct f ∧
        ∃ e ∈ r.entries .string, e.conversion = f ∧
          ∀ d ∈ r.entries .string, d.source ∈ r.hierarchy.ancestors (.named "Square") →
            r.hierarchy.isStrictSupertype e.source d.source = true →
            r.hierarchy.level (.named "Square") e.source <
              r.hierarchy.level (.named "Square") d.source := by
  obtain ⟨e, hw, -⟩ := walk_diamond
  have hb : (Draft.empty.after diamond).build = .ok ⟨_, fault?_diamond⟩ :=
    Draft.build_eq_ok_iff.2 rfl
  have hres := resolve_eq_direct_iff.2 ⟨e, hw, rfl⟩
  obtain ⟨d, hd, -, hf, -, hlater, -⟩ := resolve_most_specific ⟨diamond, hb⟩ rfl hres
  exact ⟨_, hb, rfl, _, hres, d, hd, hf, hlater⟩

/-- The most specific of all entries that may serve a source is not always taken: the square gets
the conversion of shapes, though that of polygons is there, and polygons stand below shapes. -/
theorem polygon_passed_over :
    ∃ r : Registry, (Draft.empty.after diamond).build = .ok r ∧ Ty.string.family? = none ∧
      ∃ e d, r.walk .registryOrder (.named "Square") .string = some e ∧
        r.resolve .registryOrder (.named "Square") .string = .direct e.conversion ∧
        d ∈ r.entries .string ∧ d.source ∈ r.hierarchy.ancestors (.named "Square") ∧
        r.hierarchy.isStrictSupertype e.source d.source = true := by
  obtain ⟨e, hw, hs⟩ := walk_diamond
  have hb : (Draft.empty.after diamond).build = .ok ⟨_, fault?_diamond⟩ :=
    Draft.build_eq_ok_iff.2 rfl
  refine ⟨_, hb, rfl, e, _, hw, resolve_eq_direct_iff.2 ⟨e, hw, rfl⟩, List.mem_cons_self, ?_, ?_⟩
  · decide +kernel
  · rw [hs]
    decide +kernel

/-! ## Every entry above the source -/

/-- **Assignability and resolution.** An entry into the target makes a pair resolve to a
conversion when the source is assignable to the entry's source, unless these are two array types
of which the one is no ancestor of the other. The covariance of arrays has no part in it: an
array type without a declaration is served by the entries for itself and for `any`, and by no
others. -/
theorem resolve_of_assignable (hr : r.Built) (tie : TieBreak) (source target : Ty) :
    (∀ e ∈ r.entries target, r.hierarchy.isAssignable source e.source = true →
      source.component? = none ∨ e.source.component? = none ∨
        e.source ∈ r.hierarchy.ancestors source →
      ∃ f, r.resolve tie source target = .direct f) ∧
    (∀ c, source = .array c → r.hierarchy.isDeclared source = false →
      ((∃ f, r.resolve tie source target = .direct f) ↔
        ∃ e t, (e.source = source ∨ e.source = .any) ∧ (t = target ∨ target.family? = some t) ∧
          e ∈ r.entries t)) := by
  constructor
  · intro e he ha hc
    rw [exists_direct_iff hr.formed]
    refine ⟨e, target, ?_, .inl rfl, he⟩
    rcases eq_or_ne source .null with rfl | hn
    · -- Null is assignable to itself alone.
      by_cases hne : e.source = .null
      · exact hne ▸ Hierarchy.self_mem_ancestors _ _
      · rw [Hierarchy.isAssignable_null hne] at ha
        cases ha
    rcases hc with hc | hc | hc
    · exact (Hierarchy.isAssignable_iff_mem_ancestors hn (.inl hc)).1 ha
    · exact (Hierarchy.isAssignable_iff_mem_ancestors hn (.inr hc)).1 ha
    · exact hc
  · rintro c rfl hd
    rw [exists_direct_iff hr.formed, Hierarchy.ancestors_array hd]
    simp only [List.mem_cons, List.not_mem_nil, or_false]

/-- Numbers have a conversion to text, and arrays of numbers have one. -/
def numberArrays : List Draft.Request :=
  [.register (.array .number) .string (.ofPure fun _ _ => .ok (.string "numbers")),
   .register .number .string (.ofPure fun _ _ => .ok (.string "number"))]

theorem fault?_numberArrays : (Draft.empty.after numberArrays).fault? = none := by decide +kernel

/-- Integers are served as numbers, and arrays of integers only by what is there for these or for
everything. -/
theorem resolve_of_assignable_integer :
    ∃ r : Registry, (Draft.empty.after numberArrays).build = .ok r ∧
      r.hierarchy.isAssignable (.integral .integer) .number = true ∧
      (∃ f, r.resolve .registryOrder (.integral .integer) .string = .direct f) ∧
      ((∃ f, r.resolve .registryOrder (.array (.integral .integer)) .string = .direct f) ↔
        ∃ e t, (e.source = .array (.integral .integer) ∨ e.source = .any) ∧
          (t = .string ∨ Ty.string.family? = some t) ∧ e ∈ r.entries t) := by
  have hb : (Draft.empty.after numberArrays).build = .ok ⟨_, fault?_numberArrays⟩ :=
    Draft.build_eq_ok_iff.2 rfl
  have ha : Hierarchy.empty.isAssignable (.integral .integer) .number = true := by decide +kernel
  have hscalar := (resolve_of_assignable ⟨numberArrays, hb⟩ .registryOrder (.integral .integer)
    .string).1 _ (List.mem_cons_of_mem _ List.mem_cons_self) ha (.inl rfl)
  have harray := (resolve_of_assignable ⟨numberArrays, hb⟩ .registryOrder
    (.array (.integral .integer)) .string).2 _ rfl rfl
  exact ⟨_, hb, ha, hscalar, harray⟩

/-- The covariance of arrays does not reach the entries: arrays of integers are arrays of numbers,
and the conversion of those does not serve them. -/
theorem integer_array_not_served :
    ∃ r : Registry, (Draft.empty.after numberArrays).build = .ok r ∧
      ∃ e ∈ r.entries .string,
        r.hierarchy.isAssignable (.array (.integral .integer)) e.source = true ∧
        ∀ tie f, r.resolve tie (.array (.integral .integer)) .string ≠ .direct f := by
  have hb : (Draft.empty.after numberArrays).build = .ok ⟨_, fault?_numberArrays⟩ :=
    Draft.build_eq_ok_iff.2 rfl
  refine ⟨_, hb, _, List.mem_cons_self, by decide +kernel, fun tie f hres => ?_⟩
  have hsupported : (Registry.resolve ⟨_, fault?_numberArrays⟩ tie
      (.array (.integral .integer)) .string).isSupported = false := by
    cases tie <;> decide +kernel
  rw [hres] at hsupported
  cases hsupported

end Recast.Registry
