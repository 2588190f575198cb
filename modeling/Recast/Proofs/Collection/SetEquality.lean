/-
Equality of sets means the same elements.

Two sets are compared by their sizes, and by looking each element of the first
up in the second. No set holds two elements that it takes for the same, so
where that is an equivalence among the elements at hand, the elements of the
first fall into as many classes as there are, and these are among the classes
of the second; of as many, they are all of them. So equality of sets is
symmetric, and no more than having the same elements (`beq_iff_sameElements`),
whatever the histories and orders of the two.

Equality of values is such an equivalence unless the values hold sorted sets
that the order cannot tell apart; up to the case of text it is one wherever
equality is (`Value.equivalenceOn_equalFolded`).
-/
import Recast.Proofs.Collection.Reachable
import Recast.Proofs.Value.Equality

namespace Recast

/-- A test is an equivalence among some values. -/
structure EquivalenceOn {α : Type} (same : α → α → Bool) (es : List α) : Prop where
  refl : ∀ a ∈ es, same a a
  symm : ∀ a ∈ es, ∀ b ∈ es, same a b → same b a
  trans : ∀ a ∈ es, ∀ b ∈ es, ∀ c ∈ es, same a b → same b c → same a c

/-- Each element of one list is the same as one of the other, both ways. -/
def SameElements {α : Type} (same : α → α → Bool) (as bs : List α) : Prop :=
  (∀ a ∈ as, ∃ b ∈ bs, same a b) ∧ ∀ b ∈ bs, ∃ a ∈ as, same b a

section Classes

variable {α : Type} {same : α → α → Bool} {es as bs : List α} {a b : α}

instance : Decidable (EquivalenceOn same es) :=
  decidable_of_iff ((∀ a ∈ es, same a a) ∧ (∀ a ∈ es, ∀ b ∈ es, same a b → same b a) ∧
      ∀ a ∈ es, ∀ b ∈ es, ∀ c ∈ es, same a b → same b c → same a c)
    ⟨fun ⟨hrefl, hsymm, htrans⟩ => ⟨hrefl, hsymm, htrans⟩,
      fun h => ⟨h.refl, h.symm, h.trans⟩⟩

instance : Decidable (SameElements same as bs) := inferInstanceAs (Decidable (_ ∧ _))

theorem EquivalenceOn.mono {fs : List α} (h : EquivalenceOn same es) (hsub : fs ⊆ es) :
    EquivalenceOn same fs where
  refl a ha := h.refl a (hsub ha)
  symm a ha b hb := h.symm a (hsub ha) b (hsub hb)
  trans a ha b hb c hc := h.trans a (hsub ha) b (hsub hb) c (hsub hc)

theorem sameElements_comm : SameElements same as bs ↔ SameElements same bs as := and_comm

theorem EquivalenceOn.filter_eq_iff (h : EquivalenceOn same es) (ha : a ∈ es) (hb : b ∈ es) :
    es.filter (same a) = es.filter (same b) ↔ same a b := by
  constructor
  · intro heq
    have hmem : b ∈ es.filter (same a) := heq ▸ List.mem_filter.2 ⟨hb, h.refl b hb⟩
    exact (List.mem_filter.1 hmem).2
  · intro hab
    refine List.filter_congr fun c hc => Bool.eq_iff_iff.2 ⟨fun hac => ?_, fun hbc => ?_⟩
    · exact h.trans b hb a ha c hc (h.symm a ha b hb hab) hac
    · exact h.trans a ha b hb c hc hab hbc

theorem EquivalenceOn.nodup_classes (h : EquivalenceOn same es) (hsub : as ⊆ es)
    (has : as.Pairwise fun earlier later => same later earlier = false) :
    (as.map fun a => es.filter (same a)).Nodup := by
  refine List.pairwise_map.2 (has.imp_of_mem fun {a b} ha hb hne heq => ?_)
  rw [(h.filter_eq_iff (hsub hb) (hsub ha)).1 heq.symm] at hne
  cases hne

theorem EquivalenceOn.classes_subset (h : EquivalenceOn same es) (has : as ⊆ es) (hbs : bs ⊆ es)
    (hsame : ∀ a ∈ as, ∃ b ∈ bs, same a b) :
    (as.map fun a => es.filter (same a)) ⊆ bs.map fun b => es.filter (same b) := by
  refine List.forall_mem_map.2 fun a ha => ?_
  obtain ⟨b, hb, hab⟩ := hsame a ha
  exact List.mem_map.2 ⟨b, hb, ((h.filter_eq_iff (has ha) (hbs hb)).2 hab).symm⟩

/-- Of two lists of different elements, one has as many as the other and each of them there, exactly
when the two have the same elements. -/
theorem EquivalenceOn.length_eq_and_iff (h : EquivalenceOn same es) (has : as ⊆ es) (hbs : bs ⊆ es)
    (hapart : as.Pairwise fun earlier later => same later earlier = false)
    (hbpart : bs.Pairwise fun earlier later => same later earlier = false) :
    (as.length = bs.length ∧ ∀ a ∈ as, ∃ b ∈ bs, same a b) ↔ SameElements same as bs := by
  have hsubperm {as bs : List α} (has : as ⊆ es) (hbs : bs ⊆ es)
      (hapart : as.Pairwise fun earlier later => same later earlier = false)
      (hsame : ∀ a ∈ as, ∃ b ∈ bs, same a b) :
      (as.map fun a => es.filter (same a)).Subperm (bs.map fun b => es.filter (same b)) :=
    List.subperm_of_subset (h.nodup_classes has hapart) (h.classes_subset has hbs hsame)
  constructor
  · rintro ⟨hlength, hsame⟩
    refine ⟨hsame, fun b hb => ?_⟩
    -- As many classes, each once and each among the others: they are the others.
    have hperm := (hsubperm has hbs hapart hsame).perm_of_length_le (by simp [hlength])
    obtain ⟨a, ha, hclass⟩ :=
      List.mem_map.1 (hperm.mem_iff.2 (List.mem_map_of_mem (f := fun b => es.filter (same b)) hb))
    exact ⟨a, ha, (h.filter_eq_iff (hbs hb) (has ha)).1 hclass.symm⟩
  · rintro ⟨hsame, hback⟩
    have hle := (hsubperm has hbs hapart hsame).length_le
    have hge := (hsubperm hbs has hbpart hback).length_le
    rw [List.length_map, List.length_map] at hle hge
    exact ⟨Nat.le_antisymm hle hge, hsame⟩

/-- The elements of a list, behind some others, that are the same as none before them. -/
def firstsAfter (same : α → α → Bool) : (before : List α) → List α → List α
  | _, [] => []
  | before, a :: as =>
    if before.any (same a) then firstsAfter same (a :: before) as
    else a :: firstsAfter same (a :: before) as

/-- Leaving out what is the same as something kept leaves the elements that are the same as none
before them. -/
theorem EquivalenceOn.eraseDupsBy_eq (h : EquivalenceOn same es) :
    es.eraseDupsBy same = firstsAfter same [] es := by
  -- Each element before has one like it among those kept, and these are among them.
  have go (as kept before : List α) (has : as ⊆ es) (hbefore : before ⊆ es) (hkept : kept ⊆ before)
      (hrepresented : ∀ b ∈ before, ∃ k ∈ kept, same b k) :
      List.eraseDupsBy.loop same as kept = kept.reverse ++ firstsAfter same before as := by
    induction as generalizing kept before with
    | nil => simp [List.eraseDupsBy.loop, firstsAfter]
    | cons a as ih =>
      obtain ⟨ha, has⟩ := List.cons_subset.1 has
      have hany : kept.any (same a) = before.any (same a) := by
        rw [Bool.eq_iff_iff, List.any_eq_true, List.any_eq_true]
        constructor
        · rintro ⟨k, hk, hak⟩
          exact ⟨k, hkept hk, hak⟩
        · rintro ⟨b, hb, hab⟩
          obtain ⟨k, hk, hbk⟩ := hrepresented b hb
          exact ⟨k, hk, h.trans a ha b (hbefore hb) k (hbefore (hkept hk)) hab hbk⟩
      rw [List.eraseDupsBy.loop, firstsAfter, hany]
      have hbefore' : a :: before ⊆ es := List.cons_subset.2 ⟨ha, hbefore⟩
      cases hseen : before.any (same a) with
      | true =>
        obtain ⟨k, hk, hak⟩ := List.any_eq_true.1 (hany.trans hseen)
        exact ih kept (a :: before) has hbefore' 
          (List.Subset.trans hkept (List.subset_cons_self _ _))
          (List.forall_mem_cons.2 ⟨⟨k, hk, hak⟩, hrepresented⟩)
      | false =>
        have hlater := ih (a :: kept) (a :: before) has hbefore' (List.cons_subset_cons a hkept)
          (List.forall_mem_cons.2 ⟨⟨a, List.mem_cons_self, h.refl a ha⟩, fun b hb =>
            (hrepresented b hb).imp fun _ hk => ⟨List.mem_cons_of_mem a hk.1, hk.2⟩⟩)
        simpa using hlater
  exact go es [] [] (List.Subset.refl es) nofun nofun nofun

end Classes

/-! ## Equality up to the case of text -/

namespace Value

variable {es : List Value} {a b : Value}

/-- Values are equal up to the case of text when they have the same text up to case, or have none
and are equal. -/
theorem equalFolded_iff :
    a.equalFolded b ↔ a.folded? = b.folded? ∧ (a.folded? = none → (a == b) = true) := by
  unfold equalFolded
  cases a.folded? <;> cases b.folded? <;> simp

/-- Among values where equality is an equivalence, equality up to the case of text is one. -/
theorem equivalenceOn_equalFolded (h : EquivalenceOn (· == ·) es) :
    EquivalenceOn equalFolded es where
  refl a ha := equalFolded_iff.2 ⟨rfl, fun _ => h.refl a ha⟩
  symm a ha b hb hab := by
    obtain ⟨hfolded, hbeq⟩ := equalFolded_iff.1 hab
    exact equalFolded_iff.2 ⟨hfolded.symm, fun hnone => h.symm a ha b hb (hbeq (hfolded ▸ hnone))⟩
  trans a ha b hb c hc hab hbc := by
    obtain ⟨hfolded, hbeq⟩ := equalFolded_iff.1 hab
    obtain ⟨hfolded', hbeq'⟩ := equalFolded_iff.1 hbc
    refine equalFolded_iff.2 ⟨hfolded.trans hfolded', fun hnone => ?_⟩
    exact h.trans a ha b hb c hc (hbeq hnone) (hbeq' (hfolded ▸ hnone))

end Value

/-! ## Sets -/

namespace Collection

variable {c d : Collection} {same : Value → Value → Bool} {es : List Value}

/-- Sets that are compared by such an equivalence, and hold no two elements that are the same by it,
are equal just when they have the same elements. -/
theorem beq_iff_of_matches (htype : c.type = d.type)
    (hmatches : ∀ as bs, Value.Matches as bs c.discipline ↔ ∀ a ∈ as, ∃ b ∈ bs, same a b)
    (h : EquivalenceOn same es) (hces : c.elements ⊆ es) (hdes : d.elements ⊆ es)
    (hcpart : c.elements.Pairwise fun earlier later => same later earlier = false)
    (hdpart : d.elements.Pairwise fun earlier later => same later earlier = false) :
    (c.toValue == d.toValue) ↔ SameElements same c.elements d.elements := by
  rw [← h.length_eq_and_iff hces hdes hcpart hdpart, ← hmatches]
  exact Value.collection_beq_iff.trans (and_iff_right htype)

theorem beq_comm_and_iff_of_matches (htype : c.type = d.type)
    (hmatches : ∀ as bs, Value.Matches as bs c.discipline ↔ ∀ a ∈ as, ∃ b ∈ bs, same a b)
    (h : EquivalenceOn same (c.elements ++ d.elements))
    (hcpart : c.elements.Pairwise fun earlier later => same later earlier = false)
    (hdpart : d.elements.Pairwise fun earlier later => same later earlier = false) :
    ((c.toValue == d.toValue) ↔ (d.toValue == c.toValue)) ∧
      ((c.toValue == d.toValue) ↔ SameElements same c.elements d.elements) := by
  have hces := List.subset_append_left c.elements d.elements
  have hdes := List.subset_append_right c.elements d.elements
  have hcd := beq_iff_of_matches htype hmatches h hces hdes hcpart hdpart
  have hmatches' : ∀ as bs, Value.Matches as bs d.discipline ↔ ∀ a ∈ as, ∃ b ∈ bs, same a b := by
    rwa [discipline, ← htype]
  have hdc := beq_iff_of_matches htype.symm hmatches' h hdes hces hdpart hcpart
  exact ⟨(hcd.trans sameElements_comm).trans hdc.symm, hcd⟩

/-- **Equality of sets.** Two sets of one hash-backed type, however they came about, are equal one
way exactly when they are the other way, and that is when each element of either equals one of the
other, wherever equality is an equivalence among their elements. Two case-insensitive sets are equal
when each element of either has the key of one of the other. -/
theorem beq_iff_sameElements (hc : c.Reachable) (hd : d.Reachable) (htype : c.type = d.type)
    (h : EquivalenceOn (· == ·) (c.elements ++ d.elements)) :
    (c.discipline = .hashed →
      ((c.toValue == d.toValue) ↔ (d.toValue == c.toValue)) ∧
        ((c.toValue == d.toValue) ↔ SameElements (· == ·) c.elements d.elements)) ∧
    (c.discipline = .caseless →
      ((c.toValue == d.toValue) ↔ (d.toValue == c.toValue)) ∧
        ((c.toValue == d.toValue) ↔
          SameElements (fun a b => a.foldCase == b.foldCase) c.elements d.elements)) := by
  have hdiscipline : d.discipline = c.discipline := congrArg CollectionTy.discipline htype.symm
  refine ⟨fun hhashed => ?_, fun hcaseless => ?_⟩
  · have hckept := hc.kept (by simp [hhashed])
    have hdkept := hd.kept (by simp [hdiscipline, hhashed])
    rw [Kept, hhashed] at hckept
    rw [Kept, hdiscipline, hhashed] at hdkept
    refine beq_comm_and_iff_of_matches htype (fun as bs => ?_) h hckept hdkept
    rw [hhashed]
    rfl
  · have hckept := hc.kept (by simp [hcaseless])
    have hdkept := hd.kept (by simp [hdiscipline, hcaseless])
    rw [Kept, hcaseless] at hckept
    rw [Kept, hdiscipline, hcaseless] at hdkept
    have hkeys : Value.equalFolded = fun a b => a.foldCase == b.foldCase :=
      funext₂ Value.equalFolded_eq
    rw [← hkeys]
    refine beq_comm_and_iff_of_matches htype (fun as bs => ?_) (Value.equivalenceOn_equalFolded h)
      hckept hdkept
    rw [hcaseless]
    rfl

/-- A linked set whose first element was taken out and put back equals the set as it was made, and
two case-insensitive sets are equal that were made of other spellings in another order. -/
theorem beq_iff_sameElements_spellings :
    let one : Value := .integral ⟨.integer, 1, by decide⟩
    let two : Value := .integral ⟨.integer, 2, by decide⟩
    let made : Collection := ⟨.concrete .linkedHashSet, [one, two], [0, 0]⟩
    let changed : Collection := made.after [.remove one, .insert one]
    let upper : Collection :=
      ⟨.concrete .caseInsensitiveSet, [.string "ALPHA", .char 'b', one], [0, 0, 0]⟩
    let lower : Collection :=
      ⟨.concrete .caseInsensitiveSet, [one, .char 'B', .string "alpha"], [0, 0, 0]⟩
    (made.Reachable ∧ changed.Reachable ∧ upper.Reachable ∧ lower.Reachable) ∧
      (EquivalenceOn (· == ·) (made.elements ++ changed.elements) ∧
        EquivalenceOn (· == ·) (upper.elements ++ lower.elements)) ∧
      changed.elements = [two, one] ∧
      SameElements (· == ·) made.elements changed.elements ∧
      (upper.toValue == lower.toValue) ∧ (lower.toValue == upper.toValue) := by
  intro one two made changed upper lower
  have hfrom (c : Collection) (h : ofElements c.type c.elements = .ok c) : c.Reachable :=
    .ofElements h
  have hmade : made.Reachable := hfrom made rfl
  have hchanged : changed.Reachable := hmade.after _
  have hupper : upper.Reachable := hfrom upper rfl
  have hlower : lower.Reachable := hfrom lower rfl
  have hnumbers : EquivalenceOn (· == ·) (made.elements ++ changed.elements) := by decide
  have hspellings : EquivalenceOn (· == ·) (upper.elements ++ lower.elements) := by decide
  have hlinked := (beq_iff_sameElements hmade hchanged rfl hnumbers).1 rfl
  have hcaseless := (beq_iff_sameElements hupper hlower rfl hspellings).2 rfl
  have hequal : upper.toValue == lower.toValue := hcaseless.2.2 (by decide)
  exact ⟨⟨hmade, hchanged, hupper, hlower⟩, ⟨hnumbers, hspellings⟩, rfl, hlinked.2.1 (by decide),
    hequal, hcaseless.1.1 hequal⟩

end Collection

end Recast
