/-
The standard conversions are sound.

The standard registry is what a run of registrations makes of an empty draft,
so each of its entries is one of the items, and it has the built-in hierarchy
and no factories. Each item makes values of the types it serves, or leaves
null null (`sound_items`), and the items from null serve null alone; so
whatever a pair resolves to gives sound results (`ensures_of_resolve`).
-/
import Recast.Proofs.Registry.Resolution
import Recast.Proofs.Scalar.Typing
import Recast.Standard

namespace Recast.Standard

open Scalar

/-! ## The registry -/

/-- The request to register an item. -/
def Item.request (i : Item) : Draft.Request := .register i.source i.target i.conversion

/-- Registering items without a refusal is a run of requests. -/
theorem registerItems_eq_after {is : List Item} {d : Draft} (h : (registerItems is d).2 = none) :
    (registerItems is d).1 = d.after (is.map Item.request) := by
  induction is generalizing d with
  | nil => rfl
  | cons i is ih =>
    simp only [registerItems] at h ⊢
    simp only [List.map_cons, Draft.after, List.foldl_cons, Draft.perform, Item.request]
    cases hreg : d.register i.source i.target i.conversion with
    | error e => simp [hreg] at h
    | ok d' =>
      simp only [hreg] at h ⊢
      exact ih h

theorem draft_eq_after : draft = Draft.empty.after (items.map Item.request) :=
  registerItems_eq_after registerAll_empty

theorem built : registry.Built :=
  ⟨items.map Item.request, Draft.build_eq_ok_iff.2 draft_eq_after⟩

theorem hierarchy_and_factories :
    registry.hierarchy = .empty ∧ registry.factories = [] := by
  have h : ∀ r ∈ items.map Item.request, r.IsRegistration := by
    intro r hr
    obtain ⟨i, -, rfl⟩ := List.mem_map.1 hr
    trivial
  show draft.hierarchy = .empty ∧ draft.factories = []
  rw [draft_eq_after]
  exact Draft.after_registrations h

theorem factory?_eq_none (type : CollectionTy) : registry.factory? type = none := by
  rw [Draft.factory?, hierarchy_and_factories.2]
  rfl

/-- Every entry of the standard registry is an item. -/
theorem exists_item {e : Entry} {t : Ty} (he : e ∈ registry.entries t) :
    ∃ i ∈ items, i.source = e.source ∧ i.target = t ∧ i.conversion = e.conversion := by
  have hmem : e ∈ (Draft.empty.after (items.map Item.request)).entries t := draft_eq_after ▸ he
  rcases Draft.mem_entries_after hmem with hmem | hmem
  · cases hmem
  · obtain ⟨i, hi, heq⟩ := List.mem_map.1 hmem
    exact ⟨i, hi, Draft.Request.register.inj heq⟩

/-! ## The items -/

/-- Asked for its target, or for a type of that family, an item makes a value of what was asked
for; or it leaves null null. -/
def Item.Sound (i : Item) : Prop :=
  ∀ t, t = i.target ∨ t.family? = some i.target →
    Makes i.conversion t ∨ i.source = .null ∧ i.conversion = nullToNull

theorem family?_eq_some {t u : Ty} (h : t.family? = some u) : u = .anyEnum := by
  cases t with
  | enum E =>
    cases h
    rfl
  | _ => cases h

theorem Item.Sound.of_all {i : Item} (h : ∀ t, Makes i.conversion t) : i.Sound :=
  fun t _ => .inl (h t)

theorem Item.Sound.of_target {i : Item} (ht : i.target ≠ .anyEnum)
    (h : Makes i.conversion i.target) : i.Sound := by
  rintro t (rfl | hfamily)
  · exact .inl h
  · exact absurd (family?_eq_some hfamily) ht

theorem Item.Sound.of_null {i : Item} (hs : i.source = .null) (h : i.conversion = nullToNull) :
    i.Sound :=
  fun _ _ => .inr ⟨hs, h⟩

theorem sound_enumItems : ∀ i ∈ enumItems, i.Sound := by
  refine List.forall_mem_append.2 ⟨?_, List.forall_mem_map.2 fun t ht => ?_⟩
  · simp only [List.forall_mem_cons]
    exact ⟨.of_all makes_enumToEnum, .of_all makes_nameToEnum,
      .of_all makes_ordinalToEnum, .of_target nofun makes_enumToName,
      .of_target nofun makes_enumToType, nofun⟩
  · obtain ⟨width, -, rfl⟩ := List.mem_map.1 ht
    exact .of_target nofun (makes_enumToOrdinal width)

theorem sound_numberItems : ∀ i ∈ numberItems, i.Sound := by
  refine List.forall_mem_flatMap.2 fun t _ => ?_
  simp only [List.forall_mem_cons]
  exact ⟨.of_all makes_booleanToNumber, .of_all makes_charToNumber,
    .of_all makes_textToNumber, .of_all makes_numberToNumber, nofun⟩

theorem sound_textItems : ∀ i ∈ textItems, i.Sound := by
  simp only [textItems, List.forall_mem_cons]
  exact ⟨.of_target nofun makes_scalarToString, .of_target nofun makes_scalarToString,
    .of_target nofun makes_scalarToString, .of_target nofun makes_scalarToString,
    .of_target nofun makes_scalarToString, .of_target nofun makes_scalarToString,
    .of_target nofun makes_bytesToString, .of_target nofun makes_charsToString,
    .of_target nofun makes_textToBuilder, .of_target nofun makes_textToBytes,
    .of_target nofun makes_textToChars, .of_target nofun makes_charToBoolean,
    .of_target nofun makes_textToBoolean, .of_target nofun makes_numberToBoolean,
    .of_target nofun makes_booleanToChar, .of_target nofun makes_textToChar,
    .of_target nofun makes_numberToChar, .of_target nofun makes_textToLocale,
    .of_target nofun makes_textToType, nofun⟩

theorem sound_temporalItems : ∀ i ∈ temporalItems, i.Sound := by
  refine List.forall_mem_append.2 ⟨List.forall_mem_flatMap.2 fun t _ => ?_, ?_⟩
  · refine List.forall_mem_append.2 ⟨?_, ?_⟩
    · simp only [List.forall_mem_cons]
      exact ⟨.of_all makes_temporalToTemporal, .of_all makes_textToTemporal, nofun⟩
    · split
      · exact nofun
      · simp only [List.forall_mem_cons]
        exact ⟨.of_all makes_millisToTemporal, nofun⟩
  · simp only [List.forall_mem_cons]
    exact ⟨.of_all makes_textToTemporal, .of_all makes_millisToTemporal,
      .of_target nofun makes_offsetOf, .of_all makes_textToTemporal,
      .of_target nofun makes_temporalToMillis, .of_target nofun makes_temporalToMillis,
      .of_target nofun makes_temporalToString, .of_target nofun makes_temporalToString,
      .of_target nofun makes_temporalToString, nofun⟩

theorem zeroOf_ne_null {t : Ty} (ht : t ∈ numericTypes) : zeroOf t ≠ .null ∧ t ≠ .anyEnum := by
  simp only [numericTypes, List.mem_cons, List.not_mem_nil, or_false] at ht
  rcases ht with rfl | rfl | rfl | rfl | rfl | rfl | rfl | rfl <;> exact ⟨nofun, nofun⟩

theorem sound_nullItems : ∀ i ∈ nullItems, i.Sound := by
  refine List.forall_mem_append.2 ⟨List.forall_mem_append.2 ⟨?_, ?_⟩, ?_⟩
  · refine List.forall_mem_map.2 fun t ht => ?_
    obtain ⟨hzero, hfamily⟩ := zeroOf_ne_null ht
    exact .of_target hfamily (makes_nullToZero hzero)
  · simp only [List.forall_mem_cons]
    exact ⟨.of_target nofun (makes_nullToZero nofun), .of_target nofun (makes_nullToZero nofun),
      .of_target nofun makes_nullToZone, .of_target nofun makes_nullToLocale, nofun⟩
  · exact List.forall_mem_map.2 fun t _ => .of_null rfl rfl

/-- Every standard item is sound. -/
theorem sound_items : ∀ i ∈ items, i.Sound :=
  List.forall_mem_append.2 ⟨List.forall_mem_append.2 ⟨List.forall_mem_append.2
    ⟨List.forall_mem_append.2 ⟨sound_enumItems, sound_numberItems⟩, sound_textItems⟩,
    sound_temporalItems⟩, sound_nullItems⟩

theorem target_ne_null : ∀ i ∈ items, i.target ≠ .null := by decide +kernel

theorem eq_null_of_mem_ancestors {t : Ty} (h : .null ∈ Hierarchy.empty.ancestors t) :
    t = .null := by
  rcases Hierarchy.mem_ancestors h with h | h | h
  · exact h.symm
  · cases h
  · exact absurd h (by decide)

/-- An entry that a value and a type resolve to asks for nothing, and gives sound results. -/
theorem ensures_of_resolve {tie : TieBreak} {v : Value} {t : Ty} {conversion : Conversion}
    {call : Call} (h : registry.resolve tie v.ty t = .direct conversion) (ht : call.target = t) :
    (conversion v call).Ensures (fun _ => False) (fun _ _ => True) (v.SoundResult t) := by
  obtain ⟨e, served, rfl, hsource, hserved, he⟩ :=
    Registry.exists_entry_of_resolve built.formed h
  obtain ⟨i, hi, hisource, rfl, hconversion⟩ := exists_item he
  rw [← hconversion]
  rcases sound_items i hi t (hserved.imp_left Eq.symm) with hmakes | ⟨hnull, hstays⟩
  · have hne : t ≠ .null := by
      rintro rfl
      rcases hserved with hserved | hserved
      · exact target_ne_null i hi hserved
      · cases hserved
    exact (hmakes v call ht).imp fun w hw => hw.soundResult hne
  · -- An item from null meets null alone.
    rw [← hisource, hnull, hierarchy_and_factories.1] at hsource
    obtain rfl := Value.ty_eq_null_iff.1 (eq_null_of_mem_ancestors hsource)
    rw [hstays]
    exact Procedure.ensures_pure Value.soundResult_null

end Recast.Standard
