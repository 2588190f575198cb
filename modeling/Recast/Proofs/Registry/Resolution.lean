/-
Which entry a pair of types resolves to.

The candidates of a pair are the entries into the target, or into its family,
whose sources are ancestors of the source. They are ranked by the level that
their source stands on, then by target before family, and last by the policy:
by their place in the family, or by the place of their source on the level.
The search returns the conversion of the candidate of least rank
(`walk_eq_some`), and finds none only when there is no candidate
(`walk_eq_none_iff`); no two candidates have one rank.
-/
import Recast.Proofs.Hierarchy.Levels
import Recast.Proofs.Registry.Building
import Recast.Resolution
import Mathlib.Data.Prod.Lex

namespace Recast.Registry

variable {r : Registry} {tie : TieBreak} {source target : Ty}

/-! ## Candidates -/

/-- An entry that may serve a pair, and where the search meets it. -/
structure Candidate where
  /-- The index of the level that the entry's source stands on. -/
  level : Nat
  /-- The place of the source on its level. -/
  place : Nat
  /-- The target of the entry. -/
  served : Ty
  /-- The place of the entry in its family. -/
  index : Nat
  entry : Entry

/-- The entry's source stands where the candidate says, among the supertypes of `source`, and the
entry is registered for `target` or its family. -/
structure IsCandidate (r : Registry) (source target : Ty) (c : Candidate) : Prop where
  member : ∃ level, (r.hierarchy.levels source)[c.level]? = some level ∧
    level[c.place]? = some c.entry.source
  served : c.served = target ∨ target.family? = some c.served
  registered : (r.entries c.served)[c.index]? = some c.entry

/-- What candidates are compared by, the most important first. -/
def Candidate.rank (tie : TieBreak) (target : Ty) (c : Candidate) : Nat ×ₗ Nat ×ₗ Nat :=
  toLex (c.level, toLex (if c.served = target then 0 else 1,
    match tie with
    | .registryOrder => c.index
    | .declarationOrder => c.place))

theorem mem_ancestors_iff {h : Hierarchy} {m t : Ty} :
    m ∈ h.ancestors t ↔ ∃ (i p : Nat) (level : List Ty),
      (h.levels t)[i]? = some level ∧ level[p]? = some m := by
  rw [Hierarchy.ancestors, List.mem_flatten]
  constructor
  · rintro ⟨level, hl, hm⟩
    obtain ⟨i, hi⟩ := List.mem_iff_getElem?.1 hl
    obtain ⟨p, hp⟩ := List.mem_iff_getElem?.1 hm
    exact ⟨i, p, level, hi, hp⟩
  · rintro ⟨i, p, level, hi, hp⟩
    exact ⟨level, List.mem_of_getElem? hi, List.mem_of_getElem? hp⟩

/-- The candidates are the entries of the pairs made of an ancestor of the source, and the target
or its family. -/
theorem exists_isCandidate_iff (e : Entry) :
    (∃ c, r.IsCandidate source target c ∧ c.entry = e) ↔
      e.source ∈ r.hierarchy.ancestors source ∧
        ∃ t, (t = target ∨ target.family? = some t) ∧ e ∈ r.entries t := by
  rw [mem_ancestors_iff]
  constructor
  · rintro ⟨c, ⟨⟨level, hl, hp⟩, hs, hreg⟩, rfl⟩
    exact ⟨⟨_, _, level, hl, hp⟩, c.served, hs, List.mem_of_getElem? hreg⟩
  · rintro ⟨⟨i, p, level, hl, hp⟩, t, ht, he⟩
    obtain ⟨j, hj⟩ := List.mem_iff_getElem?.1 he
    exact ⟨⟨i, p, t, j, e⟩, ⟨⟨level, hl, hp⟩, ht, hj⟩, rfl⟩

/-! ## The choice on one level -/

theorem leastIndex_eq_none_iff {found : List Entry} : leastIndex found = none ↔ found = [] := by
  cases found <;> simp [leastIndex]

theorem leastIndex_go_spec (e : Entry) (rest : List Entry) :
    leastIndex.go e rest ∈ e :: rest ∧
      ∀ d ∈ e :: rest, (leastIndex.go e rest).index ≤ d.index := by
  induction rest generalizing e with
  | nil => simp [leastIndex.go]
  | cons f rest ih =>
    simp only [leastIndex.go]
    split
    next hlt =>
      obtain ⟨hmem, hleast⟩ := ih f
      refine ⟨List.mem_cons_of_mem _ hmem, List.forall_mem_cons.2 ⟨?_, hleast⟩⟩
      exact Nat.le_of_lt (Nat.lt_of_le_of_lt (hleast f List.mem_cons_self) hlt)
    next hge =>
      obtain ⟨hmem, hleast⟩ := ih e
      have hself := hleast e List.mem_cons_self
      refine ⟨?_, List.forall_mem_cons.2 ⟨hself, List.forall_mem_cons.2 ⟨?_, ?_⟩⟩⟩
      · exact (List.mem_cons.1 hmem).elim (fun h => by simp [h]) fun h => by simp [h]
      · exact Nat.le_trans hself (Nat.le_of_not_lt hge)
      · exact fun d hd => hleast d (List.mem_cons_of_mem _ hd)

theorem leastIndex_eq_some {found : List Entry} {e : Entry} (h : leastIndex found = some e) :
    e ∈ found ∧ ∀ d ∈ found, e.index ≤ d.index := by
  cases found with
  | nil => cases h
  | cons f rest =>
    cases h
    exact leastIndex_go_spec f rest

theorem choose_eq_none_iff {level : List Ty} {t : Ty} :
    choose tie (r.candidates level t) = none ↔ ∀ m ∈ level, r.lookup? m t = none := by
  have hnil : r.candidates level t = [] ↔ ∀ m ∈ level, r.lookup? m t = none := by
    rw [candidates, List.filterMap_eq_nil_iff]
  rw [← hnil]
  cases tie with
  | registryOrder => exact leastIndex_eq_none_iff
  | declarationOrder => simp [choose]

theorem choose_eq_some (hr : r.Formed) {level : List Ty} {t : Ty} {e : Entry}
    (h : choose tie (r.candidates level t) = some e) :
    ∃ p : Nat, level[p]? = some e.source ∧ r.lookup? e.source t = some e ∧
      ∀ (q : Nat) (m : Ty) (d : Entry), level[q]? = some m → r.lookup? m t = some d →
        match tie with
        | .registryOrder => e.index ≤ d.index
        | .declarationOrder => p ≤ q := by
  cases tie with
  | registryOrder =>
    obtain ⟨hmem, hleast⟩ := leastIndex_eq_some h
    obtain ⟨m, hm, hl⟩ := List.mem_filterMap.1 hmem
    obtain ⟨p, hp⟩ := List.mem_iff_getElem?.1 hm
    obtain ⟨-, rfl⟩ := hr.lookup?_eq_some_iff.1 hl
    refine ⟨p, hp, hl, fun q m' d hq hd => ?_⟩
    exact hleast d (List.mem_filterMap.2 ⟨m', List.mem_of_getElem? hq, hd⟩)
  | declarationOrder =>
    simp only [choose, candidates, List.head?_filterMap] at h
    obtain ⟨before, m, after, rfl, hl, hbefore⟩ := List.findSome?_eq_some_iff.1 h
    obtain ⟨-, rfl⟩ := hr.lookup?_eq_some_iff.1 hl
    refine ⟨before.length, by simp, hl, fun q m' d hq hd => ?_⟩
    -- Nothing before this place has an entry.
    by_contra hlt
    rw [List.getElem?_append_left (by omega)] at hq
    rw [hbefore m' (List.mem_of_getElem? hq)] at hd
    cases hd

/-! ## The walk over the levels -/

theorem mem_served {t : Ty} :
    t ∈ target :: target.family?.toList ↔ t = target ∨ target.family? = some t := by
  rw [List.mem_cons, Option.mem_toList]

theorem family?_ne_self (t : Ty) : t.family? ≠ some t := by
  cases t <;> simp [Ty.family?]

theorem IsCandidate.lookup? (hr : r.Formed) {c : Candidate}
    (hc : r.IsCandidate source target c) : r.lookup? c.entry.source c.served = some c.entry :=
  hr.lookup?_eq_some_iff.2 ⟨List.mem_of_getElem? hc.registered, rfl⟩

/-- The walk finds nothing exactly when there is no candidate. -/
theorem walk_eq_none_iff (hr : r.Formed) :
    r.walk tie source target = none ↔ ∀ c, ¬ r.IsCandidate source target c := by
  simp only [walk, List.findSome?_eq_none_iff, choose_eq_none_iff]
  constructor
  · intro h c hc
    obtain ⟨level, hl, hp⟩ := hc.member
    have hnone := h level (List.mem_of_getElem? hl) c.served (mem_served.2 hc.served) c.entry.source
      (List.mem_of_getElem? hp)
    rw [hc.lookup? hr] at hnone
    cases hnone
  · intro h level hl t ht m hm
    rw [Option.eq_none_iff_forall_ne_some]
    intro e hlook
    obtain ⟨he, rfl⟩ := hr.lookup?_eq_some_iff.1 hlook
    obtain ⟨k, hk⟩ := List.mem_iff_getElem?.1 hl
    obtain ⟨p, hp⟩ := List.mem_iff_getElem?.1 hm
    exact h ⟨k, p, t, e.index, e⟩ ⟨⟨level, hk, hp⟩, mem_served.1 ht, hr.getElem?_index he⟩

/-- Two candidates of one level and one target are one candidate when they stand at one place, or
have one index. -/
theorem IsCandidate.eq (hr : r.Formed) {c c' : Candidate} (hc : r.IsCandidate source target c)
    (hc' : r.IsCandidate source target c') (hlevel : c.level = c'.level)
    (hserved : c.served = c'.served) (h : c.index = c'.index ∨ c.place = c'.place) : c = c' := by
  obtain ⟨k, p, t, i, e⟩ := c
  obtain ⟨k', p', t', i', e'⟩ := c'
  simp only at hlevel hserved h
  subst hlevel hserved
  obtain ⟨level, hl, hp⟩ := hc.member
  obtain ⟨level', hl', hp'⟩ := hc'.member
  simp only at hl hp hl' hp'
  obtain rfl : level = level' := Option.some_inj.1 (hl.symm.trans hl')
  have hlook := hc.lookup? hr
  have hlook' := hc'.lookup? hr
  simp only at hlook hlook'
  rcases h with rfl | rfl
  · obtain rfl : e = e' := Option.some_inj.1 (hc.registered.symm.trans hc'.registered)
    obtain ⟨hpos, -⟩ := List.getElem?_eq_some_iff.1 hp
    obtain rfl : p = p' :=
      (List.getElem?_inj hpos (Hierarchy.nodup_level (List.mem_of_getElem? hl))).1
        (hp.trans hp'.symm)
    rfl
  · rw [Option.some_inj.1 (hp.symm.trans hp'), hlook'] at hlook
    cases hlook
    have hi : i = i' :=
      (hr.index_eq hc.registered).symm.trans (hr.index_eq hc'.registered)
    rw [hi]

/-- The entry that the walk finds is that of the one candidate of least rank. -/
theorem walk_eq_some (hr : r.Formed) {e : Entry} (h : r.walk tie source target = some e) :
    ∃ c, r.IsCandidate source target c ∧ c.entry = e ∧
      ∀ c', r.IsCandidate source target c' → c' ≠ c → c.rank tie target < c'.rank tie target := by
  obtain ⟨lower, level, upper, hlevels, hfound, hlower⟩ := List.findSome?_eq_some_iff.1 h
  obtain ⟨asked, t, rest, hserved, hchosen, hasked⟩ := List.findSome?_eq_some_iff.1 hfound
  obtain ⟨p, hp, hlook, hleast⟩ := choose_eq_some hr hchosen
  have ht : t = target ∨ target.family? = some t := mem_served.1 (by simp [hserved])
  have hc : r.IsCandidate source target ⟨lower.length, p, t, e.index, e⟩ :=
    ⟨⟨level, by simp [hlevels], hp⟩, ht, hr.getElem?_index (hr.lookup?_eq_some_iff.1 hlook).1⟩
  refine ⟨_, hc, rfl, fun c' hc' hne => ?_⟩
  obtain ⟨level', hl', hp'⟩ := hc'.member
  have hlook' := hc'.lookup? hr
  simp only [Candidate.rank, Prod.Lex.toLex_lt_toLex]
  rcases Nat.lt_trichotomy c'.level lower.length with hlt | heq | hgt
  · -- Lower levels have no entry.
    rw [hlevels, List.getElem?_append_left hlt] at hl'
    have hnone := List.findSome?_eq_none_iff.1 (hlower level' (List.mem_of_getElem? hl')) c'.served
      (mem_served.2 hc'.served)
    rw [choose_eq_none_iff.1 hnone _ (List.mem_of_getElem? hp')] at hlook'
    cases hlook'
  · obtain rfl : level = level' := by
      rw [hlevels, heq] at hl'
      simpa using hl'
    refine .inr ⟨heq.symm, ?_⟩
    by_cases hsame : c'.served = t
    · -- The choice for this target was the best one.
      refine .inr ⟨by simp [hsame], ?_⟩
      have hle := hleast c'.place c'.entry.source c'.entry hp' (hsame ▸ hlook')
      rw [hr.index_eq hc'.registered] at hle
      have hdiff : ¬ (e.index = c'.index ∨ p = c'.place) := fun h =>
        hne (hc.eq hr hc' heq.symm hsame.symm h).symm
      rw [not_or] at hdiff
      cases tie with
      | registryOrder => exact Nat.lt_of_le_of_ne hle hdiff.1
      | declarationOrder => exact Nat.lt_of_le_of_ne hle hdiff.2
    · -- The target itself is asked before its family.
      rcases ht with rfl | hfamily
      · exact .inl (by simp [hsame])
      have htarget : c'.served = target := by
        refine hc'.served.resolve_right fun h => hsame ?_
        exact Option.some_inj.1 (h.symm.trans hfamily)
      have hmem : target ∈ asked := by
        cases asked with
        | nil =>
          rw [List.nil_append, List.cons.injEq] at hserved
          exact absurd hfamily (hserved.1 ▸ family?_ne_self target)
        | cons u asked =>
          rw [List.cons_append, List.cons.injEq] at hserved
          exact hserved.1 ▸ List.mem_cons_self
      rw [htarget, choose_eq_none_iff.1 (hasked target hmem) _ (List.mem_of_getElem? hp')]
        at hlook'
      cases hlook'
  · exact .inl hgt

/-! ## Resolving -/

theorem walk_of_lookup? {e : Entry} (h : r.lookup? source target = some e) :
    r.walk tie source target = some e := by
  obtain ⟨upper, hlevels⟩ : ∃ upper, r.hierarchy.levels source = [source] :: upper :=
    List.head?_eq_some_iff.1 (Hierarchy.levels_head r.hierarchy source)
  have hchosen : choose tie (r.candidates [source] target) = some e := by
    cases tie <;> simp [candidates, choose, leastIndex, leastIndex.go, h]
  rw [walk, hlevels, List.findSome?_cons, List.findSome?_cons, hchosen]

/-- Resolving is walking, and else reshaping. -/
theorem resolve_eq (r : Registry) (tie : TieBreak) (source target : Ty) :
    r.resolve tie source target =
      match r.walk tie source target with
      | some e => .direct e.conversion
      | none =>
        match Reshape.between? source target with
        | some plan => .reshape plan
        | none => if target.isContainer && source ≠ .null then .ambiguous else .unsupported := by
  unfold resolve
  cases hl : r.lookup? source target with
  | none => rfl
  | some e => rw [walk_of_lookup? hl]

/-- A pair resolves to a conversion exactly when the walk finds an entry, and to the conversion of
that entry. -/
theorem resolve_eq_direct_iff {f : Conversion} :
    r.resolve tie source target = .direct f ↔
      ∃ e, r.walk tie source target = some e ∧ e.conversion = f := by
  rw [resolve_eq]
  cases hw : r.walk tie source target with
  | some e => simp
  | none =>
    cases Reshape.between? source target with
    | some plan => simp
    | none =>
      by_cases hc : (target.isContainer && decide (source ≠ .null)) = true <;> simp only [hc] <;>
        simp

/-- A pair resolves to a conversion exactly when an ancestor of the source has an entry into the
target or its family. -/
theorem exists_direct_iff (hr : r.Formed) :
    (∃ f, r.resolve tie source target = .direct f) ↔
      ∃ e t, e.source ∈ r.hierarchy.ancestors source ∧ (t = target ∨ target.family? = some t) ∧
        e ∈ r.entries t := by
  calc (∃ f, r.resolve tie source target = .direct f)
      ↔ ∃ e, r.walk tie source target = some e := by simp [resolve_eq_direct_iff]
    _ ↔ r.walk tie source target ≠ none := Option.ne_none_iff_exists'.symm
    _ ↔ ∃ c, r.IsCandidate source target c := by simp [walk_eq_none_iff hr]
    _ ↔ ∃ e c, r.IsCandidate source target c ∧ c.entry = e := by simp
    _ ↔ _ := by simp only [exists_isCandidate_iff, exists_and_left]

/-- A pair that resolves to a conversion has it from an entry whose source is an ancestor. -/
theorem exists_entry_of_resolve {conversion : Conversion} (hr : r.Formed)
    (h : r.resolve tie source target = .direct conversion) :
    ∃ e t, e.conversion = conversion ∧ e.source ∈ r.hierarchy.ancestors source ∧
      (t = target ∨ target.family? = some t) ∧ e ∈ r.entries t := by
  obtain ⟨e, hw, rfl⟩ := resolve_eq_direct_iff.1 h
  obtain ⟨c, hc, rfl, -⟩ := walk_eq_some hr hw
  obtain ⟨hsource, t, ht, he⟩ := (exists_isCandidate_iff c.entry).1 ⟨c, hc, rfl⟩
  exact ⟨c.entry, t, rfl, hsource, ht, he⟩

theorem between?_of_resolve {plan : Reshape} (h : r.resolve tie source target = .reshape plan) :
    Reshape.between? source target = some plan := by
  rw [resolve_eq] at h
  cases hw : r.walk tie source target with
  | some e =>
    rw [hw] at h
    cases h
  | none =>
    simp only [hw] at h
    split at h
    next plan' hb =>
      cases h
      exact hb
    next => split at h <;> cases h

theorem between?_isSome_iff :
    (Reshape.between? source target).isSome ↔ source.isContainer ∧ target.isContainer := by
  unfold Reshape.between?
  cases source.isContainer
  · simp
  · cases target <;> simp [Ty.isContainer]

theorem resolve_of_walk_eq_none (h : r.walk tie source target = none) :
    ((∃ plan, r.resolve tie source target = .reshape plan) ↔
      source.isContainer ∧ target.isContainer) ∧
    (r.resolve tie source target = .ambiguous ↔
      target.isContainer ∧ ¬ source.isContainer ∧ source ≠ .null) := by
  have hiff : (Reshape.between? source target).isSome ↔ source.isContainer ∧ target.isContainer :=
    between?_isSome_iff
  rw [resolve_eq, h]
  cases hb : Reshape.between? source target with
  | some plan =>
    rw [hb] at hiff
    obtain ⟨hs, ht⟩ := hiff.1 rfl
    simp [hs, ht]
  | none =>
    rw [hb] at hiff
    have hnot : ¬ (source.isContainer ∧ target.isContainer) := fun hc => (nomatch hiff.2 hc)
    by_cases ht : target.isContainer ∧ source ≠ .null
    · have hs : ¬ source.isContainer := fun hs => hnot ⟨hs, ht.1⟩
      simp [ht.1, ht.2, hs]
    · simp only [Bool.and_eq_true, decide_eq_true_eq, ht, if_false, reduceCtorEq, exists_false,
        false_iff, hnot, true_and]
      exact fun hc => ht ⟨hc.1, hc.2.2⟩

/-- By registry order, no other candidate of the level and target of the least one stands below
it. -/
theorem not_above_of_rank_lt {c c' : Candidate} (hc : r.IsCandidate source target c)
    (hc' : r.IsCandidate source target c') (hlevel : c'.level = c.level)
    (hserved : c'.served = c.served)
    (h : c.rank .registryOrder target < c'.rank .registryOrder target) :
    r.hierarchy.isStrictSupertype c.entry.source c'.entry.source = false := by
  have hindex : c.index < c'.index := by
    simpa [Candidate.rank, Prod.Lex.toLex_lt_toLex, hlevel, hserved] using h
  have hreg' := hc'.registered
  rw [hserved] at hreg'
  obtain ⟨hi, heq⟩ := List.getElem?_eq_some_iff.1 hc.registered
  obtain ⟨hi', heq'⟩ := List.getElem?_eq_some_iff.1 hreg'
  have := List.pairwise_iff_getElem.1 (r.ordered.entries c.served) c.index c'.index hi hi' hindex
  rwa [heq, heq'] at this

/-- **Resolution is an argmin.** A pair resolves to a conversion exactly when it has a candidate,
and then to that of the one candidate of least rank; by registry order no other candidate of its
level and target stands below it. Without a candidate a container is reshaped into a container, any
other source of a container but null is ambiguous, and the rest is unsupported. -/
theorem resolve_least_candidate (hr : r.Built) (tie : TieBreak) (source target : Ty) :
    ((∃ f, r.resolve tie source target = .direct f) ↔
      ∃ e t, e.source ∈ r.hierarchy.ancestors source ∧ (t = target ∨ target.family? = some t) ∧
        e ∈ r.entries t) ∧
    (∀ f, r.resolve tie source target = .direct f →
      ∃ c, r.IsCandidate source target c ∧ f = c.entry.conversion ∧
        (∀ c', r.IsCandidate source target c' → c' ≠ c →
          c.rank tie target < c'.rank tie target) ∧
        (tie = .registryOrder → ∀ c', r.IsCandidate source target c' → c'.level = c.level →
          c'.served = c.served →
          r.hierarchy.isStrictSupertype c.entry.source c'.entry.source = false)) ∧
    ((∀ c, ¬ r.IsCandidate source target c) →
      ((∃ plan, r.resolve tie source target = .reshape plan) ↔
        source.isContainer ∧ target.isContainer) ∧
      (r.resolve tie source target = .ambiguous ↔
        target.isContainer ∧ ¬ source.isContainer ∧ source ≠ .null) ∧
      (r.resolve tie source target = .unsupported ↔
        ¬ (source.isContainer ∧ target.isContainer) ∧
          ¬ (target.isContainer ∧ ¬ source.isContainer ∧ source ≠ .null))) := by
  refine ⟨exists_direct_iff hr.formed, fun f hf => ?_, fun hnone => ?_⟩
  · obtain ⟨e, he, rfl⟩ := resolve_eq_direct_iff.1 hf
    obtain ⟨c, hc, rfl, hleast⟩ := walk_eq_some hr.formed he
    refine ⟨c, hc, rfl, hleast, fun htie c' hc' hlevel hserved => ?_⟩
    subst htie
    by_cases heq : c' = c
    · simp [heq, Hierarchy.isStrictSupertype]
    · exact not_above_of_rank_lt hc hc' hlevel hserved (hleast c' hc' heq)
  · have hw : r.walk tie source target = none := (walk_eq_none_iff hr.formed).2 hnone
    obtain ⟨hreshape, hambiguous⟩ := resolve_of_walk_eq_none hw
    refine ⟨hreshape, hambiguous, ?_⟩
    rw [← hreshape, ← hambiguous]
    cases hres : r.resolve tie source target with
    | direct f =>
      obtain ⟨e, he, -⟩ := resolve_eq_direct_iff.1 hres
      rw [hw] at he
      cases he
    | reshape | ambiguous | unsupported => simp

/-- Two interfaces of one level, each with a conversion of its own. -/
theorem resolve_least_candidate_square :
    let toText (s : String) : Conversion := .ofPure fun _ _ => .ok (.string s)
    let requests : List Draft.Request :=
      [.declare (.named "Square") { interfaces := [.named "Shape", .named "Label"] },
       .register (.named "Label") .string (toText "label"),
       .register (.named "Shape") .string (toText "shape")]
    ∃ r : Registry, (Draft.empty.after requests).build = .ok r ∧
      ∃ f, r.resolve .declarationOrder (.named "Square") .string = .direct f ∧
        ∃ c, r.IsCandidate (.named "Square") .string c ∧ f = c.entry.conversion ∧
          ∀ c', r.IsCandidate (.named "Square") .string c' → c' ≠ c →
            c.rank .declarationOrder .string < c'.rank .declarationOrder .string := by
  intro toText requests
  have hsound : (Draft.empty.after requests).fault? = none := by decide +kernel
  let r : Registry := ⟨Draft.empty.after requests, hsound⟩
  have hb : (Draft.empty.after requests).build = .ok r := Draft.build_eq_ok_iff.2 rfl
  obtain ⟨hdirect, hleast, -⟩ :=
    resolve_least_candidate (r := r) ⟨requests, hb⟩ .declarationOrder (.named "Square") .string
  have hlabel : Ty.named "Label" ∈
      (Draft.empty.after requests).hierarchy.ancestors (.named "Square") := by decide +kernel
  obtain ⟨f, hf⟩ := hdirect.2
    ⟨⟨0, .named "Label", toText "label"⟩, .string, hlabel, .inl rfl, List.mem_cons_self⟩
  obtain ⟨c, hc, hfc, hrank, -⟩ := hleast f hf
  exact ⟨r, hb, f, hf, c, hc, hfc, hrank⟩

end Recast.Registry
