/-
What a pair of types resolves to in the standard registry.

An item serves a pair when its source stands above the source of the pair, and
its target is that of the pair or its family. The registry holds just the
items, and no two of them for one pair. So a pair that a single item serves
resolves to the conversion of that item (`resolve_of_serves`), and containers
are reshaped into containers (`resolve_of_isContainer`); without overrides that
is what a conversion does.
-/
import Recast.Proofs.Converter.Dispatch
import Recast.Proofs.Hierarchy.Specificity
import Recast.Proofs.Standard.Typing

namespace Recast.Standard

variable {i : Item} {tie : TieBreak} {source target : Ty} {ctx : Context} {depth : Nat}
variable {v : Value}

/-- The item is registered for a supertype of the source, and for the target or its family. -/
def Item.Serves (i : Item) (source target : Ty) : Prop :=
  i.source ∈ Hierarchy.empty.ancestors source ∧
    (i.target = target ∨ target.family? = some i.target)

instance (i : Item) (source target : Ty) : Decidable (i.Serves source target) :=
  inferInstanceAs (Decidable (_ ∧ _))

/-! ## Items and entries -/

theorem nodup_pairs : (items.map fun i => (i.source, i.target)).Nodup := by decide +kernel

theorem isSome_lookup? : ∀ i ∈ items, (registry.lookup? i.source i.target).isSome := by
  decide +kernel

theorem eq_of_pair {j : Item} (hi : i ∈ items) (hj : j ∈ items) (hsource : i.source = j.source)
    (htarget : i.target = j.target) : i = j :=
  List.inj_on_of_nodup_map nodup_pairs hi hj (Prod.ext hsource htarget)

theorem exists_entry (hi : i ∈ items) :
    ∃ e ∈ registry.entries i.target, e.source = i.source ∧ e.conversion = i.conversion := by
  obtain ⟨e, hlookup⟩ := Option.isSome_iff_exists.1 (isSome_lookup? i hi)
  obtain ⟨he, hsource⟩ := built.formed.lookup?_eq_some_iff.1 hlookup
  obtain ⟨j, hj, hjsource, hjtarget, hconversion⟩ := exists_item he
  have hji : j = i := eq_of_pair hj hi (hjsource.trans hsource) hjtarget
  exact ⟨e, he, hsource, hconversion.symm.trans (congrArg Item.conversion hji)⟩

theorem exists_item_of_isCandidate {c : Registry.Candidate}
    (hc : registry.IsCandidate source target c) :
    ∃ i ∈ items, i.Serves source target ∧ i.conversion = c.entry.conversion := by
  obtain ⟨hsource, t, ht, he⟩ := (Registry.exists_isCandidate_iff c.entry).1 ⟨c, hc, rfl⟩
  rw [hierarchy_and_factories.1] at hsource
  obtain ⟨i, hi, hisource, rfl, hconversion⟩ := exists_item he
  exact ⟨i, hi, ⟨hisource ▸ hsource, ht⟩, hconversion⟩

theorem exists_isCandidate_of_serves (hi : i ∈ items) (hserves : i.Serves source target) :
    ∃ c, registry.IsCandidate source target c := by
  obtain ⟨e, he, hsource, -⟩ := exists_entry hi
  have habove : e.source ∈ registry.hierarchy.ancestors source := by
    rw [hierarchy_and_factories.1, hsource]
    exact hserves.1
  obtain ⟨c, hc, -⟩ :=
    (Registry.exists_isCandidate_iff e).2 ⟨habove, i.target, hserves.2, he⟩
  exact ⟨c, hc⟩

/-! ## Resolving -/

/-- A pair that only one item serves resolves to the conversion of that item. -/
theorem resolve_of_serves (tie : TieBreak) (hi : i ∈ items) (hserves : i.Serves source target)
    (honly : ∀ j ∈ items, j.Serves source target → j.source = i.source ∧ j.target = i.target) :
    registry.resolve tie source target = .direct i.conversion := by
  obtain ⟨c, hc⟩ := exists_isCandidate_of_serves hi hserves
  have hfound : registry.walk tie source target ≠ none := fun hnone =>
    (Registry.walk_eq_none_iff built.formed).1 hnone c hc
  obtain ⟨e, hwalk⟩ := Option.ne_none_iff_exists'.1 hfound
  obtain ⟨d, hd, rfl, -⟩ := Registry.walk_eq_some built.formed hwalk
  obtain ⟨j, hj, hjserves, hconversion⟩ := exists_item_of_isCandidate hd
  obtain ⟨hsource, htarget⟩ := honly j hj hjserves
  rw [Registry.resolve_eq, hwalk, ← eq_of_pair hj hi hsource htarget, hconversion]

theorem source_of_isContainer :
    ∀ i ∈ items, i.target.isContainer → i.source = .charSequence := by decide +kernel

theorem charSequence_not_mem_ancestors (h : source.isContainer) :
    Ty.charSequence ∉ Hierarchy.empty.ancestors source := by
  rw [Hierarchy.ancestors_builtin fun _ _ => rfl]
  cases source
  case array => simp [Hierarchy.builtinUpper]
  case enumSet => simp [Hierarchy.builtinUpper, Hierarchy.upperOfShape]
  case collection k =>
    cases k
    case interface s => cases s <;> simp [Hierarchy.builtinUpper, Hierarchy.upperOfShape]
    case concrete c =>
      cases c <;> simp [Hierarchy.builtinUpper, Hierarchy.upperOfShape, Concrete.shape]
    case wrapped w s => cases s <;> simp [Hierarchy.builtinUpper, Hierarchy.upperOfShape]
  all_goals cases h

/-- Containers are reshaped into containers. -/
theorem resolve_of_isContainer (tie : TieBreak) {plan : Reshape} (hsource : source.isContainer)
    (htarget : target.isContainer) (hplan : Reshape.between? source target = some plan) :
    registry.resolve tie source target = .reshape plan := by
  have hwalk : registry.walk tie source target = none := by
    refine (Registry.walk_eq_none_iff built.formed).2 fun c hc => ?_
    obtain ⟨i, hi, ⟨habove, hserved⟩, -⟩ := exists_item_of_isCandidate hc
    rcases hserved with rfl | hfamily
    · rw [source_of_isContainer i hi htarget] at habove
      exact charSequence_not_mem_ancestors hsource habove
    · cases target <;> cases htarget <;> cases hfamily
  rw [Registry.resolve_eq, hwalk]
  simp only [hplan]

/-! ## Converting -/

/-- How conversions that are asked for are answered at a depth. -/
abbrev answerAt (tie : TieBreak) (ctx : Context) (depth : Nat) (v : Value) (t : Ty) :
    Outcome Value :=
  (registry.convert tie ctx depth v t).value

theorem answer_convert (v : Value) (t : Ty) :
    registry.answer tie depth ctx target (.convert v t) = answerAt tie ctx depth v t :=
  Registry.answer_convert t

/-- A value of a subtype is its own conversion. -/
theorem convert_self (ho : ctx.overrides = []) (hnull : v ≠ .null)
    (hself : Hierarchy.empty.isAssignable v.ty target) :
    registry.convert tie ctx (depth + 1) v target = some (.ok ⟨v, !v.isMutable⟩) := by
  have hnotnull : v.isNull = false := by
    simpa [← Value.isNull_iff] using hnull
  simp [Registry.convert_succ, Context.override?, ho, hierarchy_and_factories.1, hself, hnotnull]

/-- A pair that only one item serves is converted as that item says. -/
theorem convert_of_serves (tie : TieBreak) (depth : Nat) (ho : ctx.overrides = [])
    (hself : Hierarchy.empty.isAssignable v.ty target = false) (hi : i ∈ items)
    (hserves : i.Serves v.ty target)
    (honly : ∀ j ∈ items, j.Serves v.ty target → j.source = i.source ∧ j.target = i.target)
    {f : Value → Call → Except ConversionError Value} (hf : i.conversion = .ofPure f) :
    registry.convert tie ctx (depth + 1) v target =
      some ((f v (ctx.call target)).map (⟨·, false⟩)) := by
  have hresolve := resolve_of_serves tie hi hserves honly
  rw [hf] at hresolve
  simp only [Registry.convert_succ, Context.override?, ho, List.lookup_nil,
    hierarchy_and_factories.1, hself, hresolve, Bool.false_eq_true, and_false, if_false]
  rw [Registry.execute, Conversion.ofPure, Procedure.run_ofExcept]
  rfl

/-- No value of the source is one of the target, and of the items that serve the pair all are for
`general` and the target itself. -/
def ServedBy (general source target : Ty) : Prop :=
  Hierarchy.empty.isAssignable source target = false ∧
    general ∈ Hierarchy.empty.ancestors source ∧
    ∀ i ∈ items, i.Serves source target → i.source = general ∧ i.target = target

instance (general source target : Ty) : Decidable (ServedBy general source target) :=
  inferInstanceAs (Decidable (_ ∧ _ ∧ _))

/-- Text has one of two types. -/
theorem ty_of_text? {s : String} (h : v.text? = some s) : v.ty ∈ [Ty.string, .stringBuilder] := by
  cases v with
  | string | stringBuilder => simp [Value.ty]
  | _ => cases h

/-- A pair that is served for one source only is converted as the item of that source says. -/
theorem convert_of_servedBy (ho : ctx.overrides = []) (tie : TieBreak) (depth : Nat) {general : Ty}
    {f : Value → Call → Except ConversionError Value} (h : ServedBy general v.ty target)
    (hi : ⟨general, target, .ofPure f⟩ ∈ items) :
    registry.convert tie ctx (depth + 1) v target =
      some ((f v (ctx.call target)).map (⟨·, false⟩)) :=
  convert_of_serves tie depth ho h.1 hi ⟨h.2.1, .inl rfl⟩ h.2.2 rfl

/-- Containers are converted into containers of another type by reshaping. -/
theorem convert_of_isContainer (tie : TieBreak) (depth : Nat) (ho : ctx.overrides = [])
    (hself : Hierarchy.empty.isAssignable v.ty target = false) {plan : Reshape}
    (hsource : v.ty.isContainer) (htarget : target.isContainer)
    (hplan : Reshape.between? v.ty target = some plan) :
    registry.convert tie ctx (depth + 1) v target =
      (registry.execute tie ctx depth target
        (plan.procedure registry.factory? v (ctx.call target))).made := by
  have hresolve := resolve_of_isContainer tie hsource htarget hplan
  simp only [Registry.convert_succ, Context.override?, ho, List.lookup_nil,
    hierarchy_and_factories.1, hself, hresolve, Bool.false_eq_true, and_false, if_false]

end Recast.Standard
