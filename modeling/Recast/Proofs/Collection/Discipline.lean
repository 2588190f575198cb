/-
What a discipline does to the elements it keeps.

An insertion finds the place of the element taken, or puts the element into
its place, which is the end unless the elements are sorted (`Inserted`). A
removal finds an element that answers, or none (`Found`): the first, or where
elements are hashed the one in the lowest slot.

A case-insensitive set is known by its elements alone. `Filing` keeps the key
of each beside it, and looks at nothing but keys; the elements that it files
are those of the set.
-/
import Mathlib.Data.List.Basic
import Recast.Proofs.Value.WellFormed

namespace Recast

namespace Discipline

variable {d : Discipline} {v : Value} {es : List Value} {r : Bool × List Value}

/-- What an insertion makes of the elements, and what it says. -/
inductive Inserted (d : Discipline) (v : Value) (es : List Value) : Bool × List Value → Prop
  | present {e : Value} (mem : e ∈ es) (answers : d.answers v e) : Inserted d v es (false, es)
  | added (before : List Value) {after : List Value} (elements : es = before ++ after)
      (last : d ≠ .sorted → after = [])
      (new : d ≠ .sorted → d ≠ .sequence → ∀ e ∈ es, d.answers v e = false) :
      Inserted d v es (true, before ++ v :: after)

/-- Elements are found by their hash. -/
def IsHashed (d : Discipline) : Prop := d = .hashed ∨ d = .caseless

instance (d : Discipline) : Decidable d.IsHashed := inferInstanceAs (Decidable (_ ∨ _))

/-- Which element a removal takes out: one that answers. Where elements are hashed, none that
answers has a lower slot; elsewhere none before it answers. -/
inductive Found (d : Discipline) (v : Value) (slots : List Nat) (es : List Value) :
    Option Nat → Prop
  | absent (unanswered : d ≠ .sorted → ∀ e ∈ es, d.answers v e = false) : Found d v slots es none
  | present (before : List Value) {e : Value} {after : List Value}
      (elements : es = before ++ e :: after) (answers : d.answers v e)
      (first : ¬ d.IsHashed → ∀ b ∈ before, d.answers v b = false)
      (lowest : d.IsHashed → ∀ (i : Nat) f, es[i]? = some f → d.answers v f →
        slots.getD before.length 0 ≤ slots.getD i 0) :
      Found d v slots es (some before.length)

theorem inserted_insertSorted (v : Value) (es : List Value) :
    Inserted .sorted v es (insertSorted v es) := by
  induction es with
  | nil => exact .added [] rfl nofun nofun
  | cons e es ih =>
    unfold insertSorted
    split
    · generalize insertSorted v es = r at ih
      cases ih with
      | present hmem hanswers => exact .present (List.mem_cons_of_mem e hmem) hanswers
      | added before helements =>
        exact .added (e :: before) (congrArg (e :: ·) helements) (absurd rfl)
          (absurd rfl)
    · next heq => exact .present List.mem_cons_self (by simp [answers, heq])
    · exact .added [] rfl (absurd rfl) (absurd rfl)

theorem inserted_unless_any (d : Discipline) (v : Value) (es : List Value) :
    Inserted d v es (if es.any (d.answers v) then (false, es) else (true, es ++ [v])) := by
  cases hany : es.any (d.answers v) with
  | true =>
    obtain ⟨e, hmem, hanswers⟩ := List.any_eq_true.1 hany
    exact .present hmem hanswers
  | false =>
    exact .added es (by simp) (fun _ => rfl) fun _ _ e he => by
      simpa using List.any_eq_false.1 hany e he

theorem inserted_insert (d : Discipline) (v : Value) (es : List Value) :
    Inserted d v es (d.insert v es) := by
  cases d with
  | sequence => exact .added es (by simp) (fun _ => rfl) fun _ h => absurd rfl h
  | sorted => exact inserted_insertSorted v es
  | hashed | caseless => exact inserted_unless_any _ v es

theorem found_findSorted? (v : Value) (slots : List Nat) (es : List Value) :
    Found .sorted v slots es (findSorted? v es) := by
  have hhashed : ¬ Discipline.sorted.IsHashed := by decide
  induction es with
  | nil => exact .absent (absurd rfl)
  | cons e es ih =>
    unfold findSorted?
    split
    · next hgt =>
      have hanswers : Discipline.sorted.answers v e = false := by simp [answers, hgt]
      generalize findSorted? v es = r at ih
      cases ih with
      | absent => exact .absent (absurd rfl)
      | present before helements hfound hfirst =>
        exact .present (e :: before) (congrArg (e :: ·) helements) hfound
          (fun h => List.forall_mem_cons.2 ⟨hanswers, hfirst h⟩) (absurd · hhashed)
    · next heq => exact .present [] rfl (by simp [answers, heq]) (fun _ => nofun) (absurd · hhashed)
    · exact .absent (absurd rfl)

theorem found_findIdx? (v : Value) (slots : List Nat) (es : List Value) :
    Found .sequence v slots es (es.findIdx? (Discipline.sequence.answers v)) := by
  cases hfind : es.findIdx? (Discipline.sequence.answers v) with
  | none => exact .absent fun _ => List.findIdx?_eq_none_iff.1 hfind
  | some i =>
    obtain ⟨hi, hanswers, hfirst⟩ := List.findIdx?_eq_some_iff_getElem.1 hfind
    have hsplit : es = es.take i ++ es[i] :: es.drop (i + 1) := by simp
    have hlength : (es.take i).length = i := by simp [Nat.le_of_lt hi]
    have hbefore : ∀ b ∈ es.take i, Discipline.sequence.answers v b = false := by
      intro b hb
      obtain ⟨j, hj, rfl⟩ := List.mem_take_iff_getElem.1 hb
      simpa using hfirst j (by omega)
    have hfound : Found .sequence v slots es (some (es.take i).length) :=
      .present (es.take i) hsplit hanswers (fun _ => hbefore) (absurd · (by decide))
    rwa [hlength] at hfound

section

variable {α β : Type} {p q : α → Bool} {slots : List Nat} {as : List α} {i : Nat}

theorem firstMet?_eq_none_iff : firstMet? p slots as = none ↔ ∀ a ∈ as, p a = false := by
  induction as generalizing slots with
  | nil => simp [firstMet?]
  | cons a as ih =>
    have hlater : firstMet? p slots.tail as = none ↔ ∀ a ∈ as, p a = false := ih
    rw [firstMet?, List.forall_mem_cons]
    cases hrest : firstMet? p slots.tail as with
    | none => cases ha : p a <;> simp [← hlater, hrest]
    | some i =>
      have hsome : ¬ ∀ a ∈ as, p a = false := by simp [← hlater, hrest]
      simp only [hsome, and_false, iff_false]
      split <;> simp

/-- What is met first of the elements with a property has it, and none that has it has a lower
slot. -/
theorem firstMet?_eq_some (h : firstMet? p slots as = some i) :
    (∃ a, as[i]? = some a ∧ p a) ∧
      ∀ (j : Nat) b, as[j]? = some b → p b → slots.getD i 0 ≤ slots.getD j 0 := by
  induction as generalizing slots i with
  | nil => cases h
  | cons a as ih =>
    have htail (i : Nat) : slots.tail.getD i 0 = slots.getD (i + 1) 0 := by
      cases slots <;> simp
    have hhead : slots.headD 0 = slots.getD 0 0 := by
      cases slots <;> rfl
    rw [firstMet?] at h
    cases hrest : firstMet? p slots.tail as with
    | none =>
      have hnone := firstMet?_eq_none_iff.1 hrest
      simp only [hrest] at h
      by_cases ha : p a
      · obtain rfl : 0 = i := by simpa [ha] using h
        refine ⟨⟨a, rfl, ha⟩, fun j b hb hpb => ?_⟩
        cases j with
        | zero => exact Nat.le_refl _
        | succ j => simp [hnone b (List.mem_of_getElem? hb)] at hpb
      · simp [ha] at h
    | some k =>
      obtain ⟨hfound, hlowest⟩ := ih hrest
      simp only [hrest, htail, hhead] at h hlowest
      by_cases ha : p a = true ∧ slots.getD 0 0 ≤ slots.getD (k + 1) 0
      · obtain rfl : 0 = i := by simpa only [if_pos ha, Option.some.injEq] using h
        refine ⟨⟨a, rfl, ha.1⟩, fun j b hb hpb => ?_⟩
        cases j with
        | zero => exact Nat.le_refl _
        | succ j => exact ha.2.trans (hlowest j b hb hpb)
      · obtain rfl : k + 1 = i := by simpa only [if_neg ha, Option.some.injEq] using h
        refine ⟨hfound, fun j b hb hpb => ?_⟩
        cases j with
        | zero =>
          cases hb
          exact Nat.le_of_not_le fun hle => ha ⟨hpb, hle⟩
        | succ j => exact hlowest j b hb hpb

theorem firstMet?_congr (h : ∀ a ∈ as, p a = q a) :
    firstMet? p slots as = firstMet? q slots as := by
  induction as generalizing slots with
  | nil => rfl
  | cons a as ih =>
    obtain ⟨ha, has⟩ := List.forall_mem_cons.1 h
    rw [firstMet?, firstMet?, ih has, ha]

theorem firstMet?_map (p : β → Bool) (f : α → β) (slots : List Nat) (as : List α) :
    firstMet? p slots (as.map f) = firstMet? (fun a => p (f a)) slots as := by
  induction as generalizing slots with
  | nil => rfl
  | cons a as ih => rw [List.map_cons, firstMet?, firstMet?, ih]

end

theorem found_firstMet? (hd : d.IsHashed) (v : Value) (slots : List Nat) (es : List Value) :
    Found d v slots es (firstMet? (d.answers v) slots es) := by
  cases hmet : firstMet? (d.answers v) slots es with
  | none => exact .absent fun _ => firstMet?_eq_none_iff.1 hmet
  | some i =>
    obtain ⟨⟨e, he, hanswers⟩, hlowest⟩ := firstMet?_eq_some hmet
    obtain ⟨hi, rfl⟩ := List.getElem?_eq_some_iff.1 he
    have hsplit : es = es.take i ++ es[i] :: es.drop (i + 1) := by simp
    have hlength : (es.take i).length = i := by simp [Nat.le_of_lt hi]
    have hfound : Found d v slots es (some (es.take i).length) :=
      .present (es.take i) hsplit hanswers (absurd hd) fun _ => hlength.symm ▸ hlowest
    rwa [hlength] at hfound

theorem found_find? (d : Discipline) (v : Value) (slots : List Nat) (es : List Value) :
    Found d v slots es (d.find? v slots es) := by
  cases d with
  | sorted => exact found_findSorted? v slots es
  | sequence => exact found_findIdx? v slots es
  | hashed => exact found_firstMet? (.inl rfl) v slots es
  | caseless => exact found_firstMet? (.inr rfl) v slots es

/-- An insertion says that it changed something exactly when there is one element more. -/
theorem Inserted.length (h : Inserted d v es r) :
    r.1 = true ↔ r.2.length = es.length + 1 := by
  cases h with
  | present => simp
  | added before helements => simp [helements]; omega

end Discipline

/-! ## Keys of a case-insensitive set -/

namespace Value

variable {v w : Value}

/-- The key of a value that has a text, or is a character. -/
def ofFolded : FoldedText → Value
  | .char c => .char c
  | .text s => .string s
theorem foldCase_of_folded? {f : FoldedText} (h : v.folded? = some f) :
    v.foldCase = ofFolded f := by
  cases v <;> cases h <;> rfl

theorem foldCase_of_folded?_eq_none (h : v.folded? = none) : v.foldCase = v := by
  cases v <;> first | rfl | cases h

theorem beq_eq_false_of_folded? (h : v.folded? = none) (hw : w.folded?.isSome) :
    (v == w) = false ∧ (w == v) = false := by
  cases w <;> cases hw <;> cases v <;> first | exact ⟨rfl, rfl⟩ | cases h

theorem folded?_foldCase_isSome {f : FoldedText} (h : v.folded? = some f) :
    v.foldCase.folded?.isSome := by
  cases v <;> first | rfl | cases h

/-- Values are equal up to the case of text when their keys are equal. -/
theorem equalFolded_eq (v w : Value) : v.equalFolded w = (v.foldCase == w.foldCase) := by
  unfold equalFolded
  cases hv : v.folded? with
  | none =>
    rw [foldCase_of_folded?_eq_none hv]
    cases hw : w.folded? with
    | none => simp [foldCase_of_folded?_eq_none hw]
    | some g => simp [(beq_eq_false_of_folded? hv (folded?_foldCase_isSome hw)).1]
  | some f =>
    cases hw : w.folded? with
    | none =>
      rw [foldCase_of_folded?_eq_none hw]
      simp [(beq_eq_false_of_folded? hw (folded?_foldCase_isSome hv)).2]
    | some g =>
      rw [foldCase_of_folded? hv, foldCase_of_folded? hw]
      have hkeys : (ofFolded f == ofFolded g) = decide (f = g) := by
        cases f <;> cases g <;> simp [ofFolded] <;> rfl
      simp [hkeys]

end Value

/-- The elements of a case-insensitive set in the order of their insertion, each beside the key that
it was put under, and with the slots of the keys. -/
structure Filing where
  entries : List (Value × Value)
  slots : List Nat

namespace Filing

variable {v : Value} {f : Filing}

def empty : Filing := ⟨[], []⟩

/-- The elements that are filed. -/
def elements (f : Filing) : List Value := f.entries.map (·.2)

/-- There is an element under the key of a value. -/
def contains (v : Value) (f : Filing) : Bool := f.entries.any (v.foldCase == ·.1)

/-- The slot of a new key. -/
def slot (v : Value) (f : Filing) : Nat :=
  Discipline.freeSlot ((f.slots.zip f.entries).filterMap fun (slot, entry) =>
    if v.foldCase.hashesAlike entry.1 then some slot else none)

/-- Puts an element under its key, unless there is one under that key. -/
def insert (v : Value) (f : Filing) : Bool × Filing :=
  if f.contains v then (false, f)
  else (true, ⟨f.entries ++ [(v.foldCase, v)], f.slots ++ [f.slot v]⟩)

/-- Takes out what stands under the key of a value. -/
def remove (v : Value) (f : Filing) : Bool × Filing :=
  match Discipline.firstMet? (v.foldCase == ·.1) f.slots f.entries with
  | some i => (true, ⟨f.entries.eraseIdx i, f.slots.eraseIdx i⟩)
  | none => (false, f)

/-- Each key is the fold of the element beside it, and no key equals an earlier one. -/
structure Sound (f : Filing) : Prop where
  key : ∀ entry ∈ f.entries, entry.1 = entry.2.foldCase
  distinct : f.entries.Pairwise fun earlier later => (later.1 == earlier.1) = false

theorem sound_empty : empty.Sound := ⟨nofun, .nil⟩

theorem Sound.insert (h : f.Sound) (v : Value) : (insert v f).2.Sound := by
  unfold Filing.insert
  cases hany : f.contains v with
  | true => exact h
  | false =>
    have hnew : ∀ entry ∈ f.entries, (v.foldCase == entry.1) = false := by
      simpa using List.any_eq_false.1 hany
    constructor
    · exact List.forall_mem_append.2 ⟨h.key, by simp⟩
    · simpa [List.pairwise_append] using ⟨h.distinct, fun key e he => hnew (key, e) he⟩

theorem Sound.sublist {g : Filing} (h : f.Sound) (hsub : g.entries.Sublist f.entries) :
    g.Sound where
  key entry hentry := h.key entry (hsub.subset hentry)
  distinct := h.distinct.sublist hsub

theorem remove_sublist (v : Value) (f : Filing) : (remove v f).2.entries.Sublist f.entries := by
  unfold remove
  split
  · exact List.eraseIdx_sublist _ _
  · exact .refl _

theorem Sound.remove (h : f.Sound) (v : Value) : (remove v f).2.Sound :=
  h.sublist (remove_sublist v f)

/-- An entry stands under the key of a value exactly when its element answers for the value. -/
theorem Sound.answers (h : f.Sound) {entry : Value × Value} (hentry : entry ∈ f.entries) :
    Discipline.caseless.answers v entry.2 = (v.foldCase == entry.1) := by
  rw [h.key entry hentry]
  exact Value.equalFolded_eq v entry.2

/-- Some element filed answers for a value exactly when there is one under its key. -/
theorem contains_elements (h : f.Sound) (v : Value) :
    Discipline.caseless.contains v f.elements = f.contains v := by
  show f.elements.any _ = f.entries.any _
  rw [elements, List.any_map, Bool.eq_iff_iff, List.any_eq_true, List.any_eq_true]
  refine exists_congr fun entry => and_congr_right fun hentry => ?_
  rw [Function.comp_apply, h.answers hentry]

theorem slot_elements (h : f.Sound) (v : Value) :
    Discipline.caseless.slot v f.slots f.elements = f.slot v := by
  rw [Discipline.slot, slot, elements, List.zip_map_right, List.filterMap_map]
  refine congrArg Discipline.freeSlot (List.filterMap_congr fun entry hentry => ?_)
  have hkey := h.key entry.2 (List.of_mem_zip hentry).2
  simp only [Discipline.hashesAlike, Function.comp_apply, hkey]
  rfl

/-- The element under the key of a value is found where the elements are filed. -/
theorem find?_elements (h : f.Sound) (v : Value) :
    Discipline.caseless.find? v f.slots f.elements =
      Discipline.firstMet? (v.foldCase == ·.1) f.slots f.entries := by
  show Discipline.firstMet? (Discipline.caseless.answers v) f.slots f.elements = _
  rw [elements, Discipline.firstMet?_map]
  exact Discipline.firstMet?_congr fun entry hentry => h.answers hentry

end Filing

end Recast
