/-
Families of entries: finding an entry by its source, and adding one.

A family keeps its entries in a row, and beside them the place of each source.
The two agree in a family that entries were pushed to (`Family.Formed`): every
entry knows its place, no source occurs twice, and the place noted for a source
is that of its entry. So looking a source up finds its entry
(`Family.Formed.lookup?_eq_some_iff`). Adding conversions one by one groups
them by target (`push_grouped`): targets stand in the order of their first
conversion, and the conversions of a target in the order they came in.
-/
import Recast.Registry
import Mathlib.Data.List.Nodup

namespace Recast

/-! ## One family -/

namespace Family

variable {f : Family} {source : Ty} {conversion : Conversion} {e : Entry} {i : Nat}

/-- The entries of a family and the places noted beside them agree. -/
structure Formed (f : Family) : Prop where
  index : ∀ (i : Nat) (e : Entry), f.entries[i]? = some e → e.index = i
  sources : (f.entries.map (·.source)).Nodup
  places : ∀ source i, f.places.lookup source = some i ↔
    ∃ e, f.entries[i]? = some e ∧ e.source = source

theorem formed_empty (target : Ty) : (empty target).Formed where
  index _ _ h := nomatch h
  sources := .nil
  places _ _ := ⟨fun h => (nomatch h), fun ⟨_, h, _⟩ => (nomatch h)⟩

theorem getElem?_push :
    (f.push source conversion).entries[i]? = some e ↔
      f.entries[i]? = some e ∨ i = f.entries.length ∧ e = ⟨i, source, conversion⟩ := by
  show (f.entries ++ [_])[i]? = some e ↔ _
  rcases Nat.lt_trichotomy i f.entries.length with hlt | rfl | hgt
  · rw [List.getElem?_append_left hlt]
    simp [Nat.ne_of_lt hlt]
  · simp [eq_comm]
  · rw [List.getElem?_append_right (Nat.le_of_lt hgt)]
    have hnone : f.entries[i]? = none := List.getElem?_eq_none (Nat.le_of_lt hgt)
    have hpast : [(⟨f.entries.length, source, conversion⟩ : Entry)][i - f.entries.length]? = none :=
      List.getElem?_eq_none (by simp; omega)
    simp [hnone, hpast, Nat.ne_of_gt hgt]

/-- Pushing a new source keeps a family formed. -/
theorem Formed.push (h : f.Formed) (hnew : ∀ e ∈ f.entries, e.source ≠ source) :
    (f.push source conversion).Formed where
  index i e he := by
    rcases getElem?_push.1 he with he | ⟨-, rfl⟩
    · exact h.index i e he
    · rfl
  sources := by
    show ((f.entries ++ [(⟨_, source, conversion⟩ : Entry)]).map (·.source)).Nodup
    rw [List.map_append, List.map_singleton, List.nodup_append']
    exact ⟨h.sources, List.nodup_singleton _, by simpa using hnew⟩
  places s i := by
    show ((source, f.entries.length) :: f.places).lookup s = some i ↔ _
    rw [List.lookup_cons]
    by_cases hs : s = source
    · -- The new source stands at the end and nowhere before.
      subst hs
      simp only [beq_self_eq_true, Option.some_inj]
      constructor
      · rintro rfl
        exact ⟨_, getElem?_push.2 (.inr ⟨rfl, rfl⟩), rfl⟩
      · rintro ⟨e, he, rfl⟩
        rcases getElem?_push.1 he with he | ⟨hi, -⟩
        · exact absurd rfl (hnew e (List.mem_of_getElem? he))
        · exact hi.symm
    · rw [beq_false_of_ne hs, h.places s i]
      refine exists_congr fun e => and_congr_left fun hes => ?_
      rw [getElem?_push]
      refine ⟨.inl, fun he => he.resolve_right ?_⟩
      rintro ⟨-, rfl⟩
      exact hs hes.symm

/-- An entry is found exactly by its source. -/
theorem Formed.lookup?_eq_some_iff (h : f.Formed) :
    f.lookup? source = some e ↔ e ∈ f.entries ∧ e.source = source := by
  rw [lookup?, Option.bind_eq_some_iff]
  constructor
  · rintro ⟨i, hplace, he⟩
    obtain ⟨d, hd, hsource⟩ := (h.places source i).1 hplace
    obtain rfl : d = e := Option.some_inj.1 (hd.symm.trans he)
    exact ⟨List.mem_of_getElem? he, hsource⟩
  · rintro ⟨hmem, hsource⟩
    obtain ⟨i, hi⟩ := List.mem_iff_getElem?.1 hmem
    exact ⟨i, (h.places source i).2 ⟨e, hi, hsource⟩, hi⟩

theorem Formed.lookup?_eq_none_iff (h : f.Formed) :
    f.lookup? source = none ↔ ∀ e ∈ f.entries, e.source ≠ source := by
  rw [Option.eq_none_iff_forall_ne_some]
  exact forall_congr' fun e => by simp [h.lookup?_eq_some_iff]

theorem Formed.lookup?_isSome_iff (h : f.Formed) :
    (f.lookup? source).isSome ↔ ∃ e ∈ f.entries, e.source = source := by
  rw [← not_iff_not, Option.not_isSome_iff_eq_none, h.lookup?_eq_none_iff]
  simp

/-- Every entry stands at its index. -/
theorem Formed.getElem?_index (h : f.Formed) (he : e ∈ f.entries) :
    f.entries[e.index]? = some e := by
  obtain ⟨i, hi⟩ := List.mem_iff_getElem?.1 he
  rwa [h.index i e hi]

/-- The family of a target after some conversions were pushed, each with its source. -/
def of (target : Ty) (added : List (Ty × Conversion)) : Family where
  target := target
  entries := added.zipIdx.map fun ((source, conversion), index) => ⟨index, source, conversion⟩
  places := (added.zipIdx.map fun ((source, _), index) => (source, index)).reverse

theorem of_push (target : Ty) (added : List (Ty × Conversion)) (source : Ty)
    (conversion : Conversion) :
    (of target added).push source conversion = of target (added ++ [(source, conversion)]) := by
  simp [of, push, List.zipIdx_append]

end Family

/-! ## Families by target -/

namespace Draft

variable {d : Draft} {source target : Ty} {conversion : Conversion} {e : Entry}

/-- No target has two families, and in each family the entries and the places noted agree. -/
structure Formed (d : Draft) : Prop where
  targets : (d.families.map (·.target)).Nodup
  families : ∀ f ∈ d.families, f.Formed

theorem entries_eq_nil_of_family?_eq_none (hf : d.family? target = none) :
    d.entries target = [] := by
  rw [entries, hf]

theorem entries_of_family? {f : Family} (hf : d.family? target = some f) :
    d.entries target = f.entries := by
  rw [entries, hf]

theorem Formed.family (hd : d.Formed) {f : Family} (hf : d.family? target = some f) : f.Formed :=
  hd.families f (List.mem_of_find?_eq_some hf)

/-- Looking up a pair finds the entry of that pair, and nothing else. -/
theorem Formed.lookup?_eq_some_iff (hd : d.Formed) :
    d.lookup? source target = some e ↔ e ∈ d.entries target ∧ e.source = source := by
  cases hf : d.family? target with
  | none => simp [lookup?, hf, entries_eq_nil_of_family?_eq_none hf]
  | some f =>
    rw [lookup?, hf, entries_of_family? hf]
    exact (hd.family hf).lookup?_eq_some_iff

/-- Every entry stands at its index among those of its target. -/
theorem Formed.getElem?_index (hd : d.Formed) (he : e ∈ d.entries target) :
    (d.entries target)[e.index]? = some e := by
  cases hf : d.family? target with
  | none => simp [entries_eq_nil_of_family?_eq_none hf] at he
  | some f =>
    rw [entries_of_family? hf] at he ⊢
    exact (hd.family hf).getElem?_index he

theorem Formed.index_eq (hd : d.Formed) {i : Nat} (he : (d.entries target)[i]? = some e) :
    e.index = i := by
  cases hf : d.family? target with
  | none => simp [entries_eq_nil_of_family?_eq_none hf] at he
  | some f =>
    rw [entries_of_family? hf] at he
    exact (hd.family hf).index i e he

/-! ## Adding a conversion -/

/-- Conversions grouped by target: the targets in the order of their first one, the conversions of
each in their order. -/
def grouped (added : List (Ty × Ty × Conversion)) : List Family :=
  (added.map (·.1)).eraseDups.map fun target =>
    .of target ((added.filter (·.1 = target)).map (·.2))

theorem push_map_of_mem {targets : List Ty} (hn : targets.Nodup) (ht : target ∈ targets)
    (g : Ty → List (Ty × Conversion)) :
    push source target conversion (targets.map fun t => .of t (g t)) =
      targets.map fun t => .of t (if t = target then g t ++ [(source, conversion)] else g t) := by
  induction targets with
  | nil => simp at ht
  | cons u ts ih =>
    obtain ⟨hu, hn⟩ := List.nodup_cons.1 hn
    rw [List.map_cons, List.map_cons, push]
    by_cases hut : u = target
    · subst hut
      have hsame : (Family.of u (g u)).target = u := rfl
      rw [if_pos hsame, if_pos rfl, Family.of_push]
      refine congrArg _ (List.map_congr_left fun t ht => ?_)
      rw [if_neg fun h : t = u => hu (h ▸ ht)]
    · have hother : ¬ (Family.of u (g u)).target = target := hut
      rw [if_neg hother, if_neg hut, ih hn (by simpa [Ne.symm hut] using ht)]

theorem push_map_of_not_mem {targets : List Ty} (ht : target ∉ targets)
    (g : Ty → List (Ty × Conversion)) :
    push source target conversion (targets.map fun t => .of t (g t)) =
      (targets.map fun t => .of t (g t)) ++ [.of target [(source, conversion)]] := by
  induction targets with
  | nil => exact congrArg (fun f => [f]) (Family.of_push target [] source conversion)
  | cons u ts ih =>
    rw [List.mem_cons, not_or] at ht
    have hother : ¬ (Family.of u (g u)).target = target := Ne.symm ht.1
    rw [List.map_cons, push, if_neg hother, ih ht.2, List.cons_append]

theorem nodup_eraseDups : ∀ ts : List Ty, ts.eraseDups.Nodup
  | [] => by simp
  | t :: ts => by
    rw [List.eraseDups_cons, List.nodup_cons]
    exact ⟨by simp [List.mem_eraseDups], nodup_eraseDups _⟩
termination_by ts => ts.length
decreasing_by exact Nat.lt_succ_of_le (List.length_filter_le _ _)

/-- Pushing a conversion to grouped ones groups it with them. -/
theorem push_grouped (added : List (Ty × Ty × Conversion)) (source target : Ty)
    (conversion : Conversion) :
    push source target conversion (grouped added) =
      grouped (added ++ [(target, source, conversion)]) := by
  unfold grouped
  rw [List.map_append, List.map_singleton, List.eraseDups_append]
  by_cases ht : target ∈ added.map (·.1)
  · have hr : [target].removeAll (added.map (·.1)) = [] := by
      simp [List.removeAll, List.mem_map.1 ht]
    rw [hr, List.eraseDups_nil, List.append_nil,
      push_map_of_mem (nodup_eraseDups _) (List.mem_eraseDups.2 ht)]
    refine List.map_congr_left fun t _ => ?_
    by_cases htt : t = target
    · subst htt
      simp
    · simp [htt, Ne.symm htt]
  · have hr : [target].removeAll (added.map (·.1)) = [target] := by
      simpa [List.removeAll] using ht
    have hnone : added.filter (·.1 = target) = [] := by
      refine List.filter_eq_nil_iff.2 fun p hp => ?_
      simpa using fun h => ht (List.mem_map.2 ⟨p, hp, h⟩)
    rw [hr, push_map_of_not_mem (mt List.mem_eraseDups.1 ht), List.map_append]
    congr 1
    · refine List.map_congr_left fun t hmem => ?_
      have htt : target ≠ t := fun h => ht (h ▸ List.mem_eraseDups.1 hmem)
      simp [htt]
    · simp [List.eraseDups_cons, hnone]

/-- A family after a conversion is added: an old one, or the one of its target, or else a new one,
with the conversion pushed to it. -/
theorem mem_push {f : Family} {fs : List Family} (h : f ∈ push source target conversion fs) :
    f ∈ fs ∨ (∃ g, fs.find? (·.target = target) = some g ∧ f = g.push source conversion) ∨
      f = (Family.empty target).push source conversion := by
  induction fs with
  | nil =>
    simp only [push, List.mem_singleton] at h
    exact .inr (.inr h)
  | cons g fs ih =>
    simp only [push] at h
    split at h
    next hg =>
      rcases List.mem_cons.1 h with rfl | h
      · exact .inr (.inl ⟨g, by simp [hg], rfl⟩)
      · exact .inl (List.mem_cons_of_mem _ h)
    next hg =>
      rcases List.mem_cons.1 h with rfl | h
      · exact .inl List.mem_cons_self
      rcases ih h with h | ⟨g', hfind, rfl⟩ | h
      · exact .inl (List.mem_cons_of_mem _ h)
      · exact .inr (.inl ⟨g', by simpa [hg] using hfind, rfl⟩)
      · exact .inr (.inr h)

theorem nodup_targets_push {fs : List Family} (hn : (fs.map (·.target)).Nodup) :
    ((push source target conversion fs).map (·.target)).Nodup := by
  have htargets : (push source target conversion fs).map (·.target) =
      if target ∈ fs.map (·.target) then fs.map (·.target) else fs.map (·.target) ++ [target] := by
    clear hn
    induction fs with
    | nil => rfl
    | cons g fs ih =>
      by_cases hg : g.target = target
      · simp [push, hg, Family.push]
      · simp only [push, if_neg hg, List.map_cons, ih, List.mem_cons, Ne.symm hg, false_or]
        split <;> simp
  rw [htargets]
  split
  · exact hn
  · next ht => exact List.nodup_append'.2 ⟨hn, List.nodup_singleton _, by simpa using ht⟩

theorem find?_push {t : Ty} (fs : List Family) :
    (push source target conversion fs).find? (·.target = t) =
      if t = target then
        some (((fs.find? (·.target = target)).getD (.empty target)).push source conversion)
      else fs.find? (·.target = t) := by
  induction fs with
  | nil => by_cases ht : t = target <;> simp [push, ht, Ne.symm, Family.push, Family.empty]
  | cons g fs ih =>
    simp only [push]
    by_cases hg : g.target = target
    · rw [if_pos hg]
      by_cases ht : t = target
      · subst ht
        simp [hg, Family.push]
      · simp [hg, ht, Ne.symm ht, Family.push]
    · rw [if_neg hg]
      by_cases ht : t = target
      · subst ht
        simpa [hg] using ih
      · rw [if_neg ht] at ih ⊢
        simp only [List.find?_cons, ih]

/-- Adding a conversion puts its entry behind those of its target, and changes no other family. -/
theorem entries_push {t : Ty} :
    ({ d with families := push source target conversion d.families } : Draft).entries t =
      if t = target then
        d.entries target ++ [⟨(d.entries target).length, source, conversion⟩]
      else d.entries t := by
  simp only [entries, family?, find?_push]
  by_cases ht : t = target
  · simp only [ht, if_true]
    cases d.families.find? (·.target = target) <;> rfl
  · simp only [if_neg ht]

/-- Pushing a new pair keeps a draft formed. -/
theorem Formed.push (hd : d.Formed) (hnew : ∀ e ∈ d.entries target, e.source ≠ source) :
    Formed { d with families := push source target conversion d.families } where
  targets := nodup_targets_push hd.targets
  families f hf := by
    rcases mem_push hf with hf | ⟨g, hg, rfl⟩ | rfl
    · exact hd.families f hf
    · rw [entries_of_family? hg] at hnew
      exact (hd.family hg).push hnew
    · exact (Family.formed_empty target).push nofun

end Draft

end Recast
