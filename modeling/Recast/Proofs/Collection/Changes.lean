/-
Collections under change.

A change is carried out, or refused with an error and the collection stays as
it was. `Steps` says all that one change can do. What a collection keeps to
(`Sound`) it keeps to under each change, and so under any number of them; the
keys of a case-insensitive set go along with its elements as a filing
(`Files`). `after_changes` says what holds after some changes, and what one
more change does.
-/
import Mathlib.Data.List.InsertIdx
import Recast.Proofs.Collection.Discipline

namespace Recast

namespace Collection

/-- A change that is asked of a collection. -/
inductive Change
  | insert (v : Value)
  | remove (v : Value)
  | clear
  /-- Lays the slots out anew. No caller asks for that; a table does it in between. -/
  | rearrange (slots : List Nat)

/-- Carries a change out. Insertions and removals say whether they changed something. -/
def carryOut (c : Collection) : Change → Except CollectionError (Option Bool × Collection)
  | .insert v => (c.insert v).map (Prod.map some id)
  | .remove v => (c.remove v).map (Prod.map some id)
  | .clear => c.clear.map (none, ·)
  | .rearrange slots => (c.rearrange slots).map (none, ·)

/-- What a change answers, and the collection afterwards. -/
def step (c : Collection) (change : Change) : Except CollectionError (Option Bool) × Collection :=
  match c.carryOut change with
  | .ok (changed, c') => (.ok changed, c')
  | .error e => (.error e, c)

/-- The collection after some changes. -/
def after (c : Collection) (changes : List Change) : Collection :=
  changes.foldl (fun c change => (c.step change).2) c

variable {c start : Collection} {type : CollectionTy} {es : List Value} {v : Value}
variable {change : Change} {r : Except CollectionError (Option Bool) × Collection}

/-! ## One change -/

@[simp] theorem store_fst (c : Collection) (v : Value) :
    (c.store v).1 = (c.discipline.insert v c.elements).1 := rfl

@[simp] theorem store_type (c : Collection) (v : Value) : (c.store v).2.type = c.type := rfl

@[simp] theorem store_elements (c : Collection) (v : Value) :
    (c.store v).2.elements = (c.discipline.insert v c.elements).2 := rfl

theorem store_of_not_added {c : Collection} {v : Value} (h : (c.store v).1 = false) :
    (c.store v).2 = c := by
  have helements : (c.discipline.insert v c.elements).2 = c.elements := by
    have hinserted := Discipline.inserted_insert c.discipline v c.elements
    rw [store_fst] at h
    generalize c.discipline.insert v c.elements = r at hinserted h
    cases hinserted with
    | present => rfl
    | added => cases h
  rw [store_fst] at h
  obtain ⟨type, es, slots⟩ := c
  simp only [store, discipline] at h helements ⊢
  rw [h, helements]
  cases type.discipline <;> rfl

/-- All that a change can do. -/
inductive Steps (c : Collection) :
    Change → Except CollectionError (Option Bool) × Collection → Prop
  | readOnly {change : Change} (closed : c.isReadOnly) :
      Steps c change (.error (.readOnly c.type), c)
  | refused {v : Value} {element : Ty} (writable : ¬ c.isReadOnly)
      (checks : c.type.checked? = some element) (misfit : ¬ v.fits element) :
      Steps c (.insert v) (.error (.elementType element v.ty), c)
  | insert {v : Value} (writable : ¬ c.isReadOnly) (fits : checkElement c.type v = .ok ()) :
      Steps c (.insert v) (.ok (some (c.store v).1), (c.store v).2)
  | remove {v : Value} (writable : ¬ c.isReadOnly) :
      Steps c (.remove v) (.ok (some (c.take v).1), (c.take v).2)
  | clear (writable : ¬ c.isReadOnly) :
      Steps c .clear (.ok none, { c with elements := [], slots := [] })
  | rearrange {slots : List Nat} (writable : ¬ c.isReadOnly) :
      Steps c (.rearrange slots) (.ok none, { c with slots })

theorem checkElement_cases (type : CollectionTy) (v : Value) :
    checkElement type v = .ok () ∨
      ∃ element, type.checked? = some element ∧ ¬ v.fits element ∧
        checkElement type v = .error (.elementType element v.ty) := by
  unfold checkElement
  cases type.checked? with
  | none => exact .inl rfl
  | some element =>
    by_cases h : v.fits element
    · exact .inl (if_pos h)
    · exact .inr ⟨element, rfl, h, if_neg h⟩

theorem step_of_isReadOnly (h : c.isReadOnly) (change : Change) :
    c.step change = (.error (.readOnly c.type), c) := by
  have hcheck : c.checkWritable = .error (.readOnly c.type) := if_pos h
  cases change <;>
    simp only [step, carryOut, Collection.insert, Collection.remove, Collection.clear,
      Collection.rearrange, hcheck] <;>
    rfl

theorem step_of_writable (h : ¬ c.isReadOnly) (change : Change) :
    c.step change = match change with
      | .insert v => match checkElement c.type v with
        | .ok () => (.ok (some (c.store v).1), (c.store v).2)
        | .error e => (.error e, c)
      | .remove v => (.ok (some (c.take v).1), (c.take v).2)
      | .clear => (.ok none, { c with elements := [], slots := [] })
      | .rearrange slots => (.ok none, { c with slots }) := by
  have hcheck : c.checkWritable = .ok () := if_neg h
  cases change with
  | insert v =>
    simp only [step, carryOut, Collection.insert, hcheck]
    cases checkElement c.type v <;> rfl
  | remove | clear | rearrange =>
    simp only [step, carryOut, Collection.remove, Collection.clear, Collection.rearrange, hcheck]
    rfl

theorem steps_step (c : Collection) (change : Change) : Steps c change (c.step change) := by
  by_cases hro : c.isReadOnly
  · exact step_of_isReadOnly hro change ▸ .readOnly hro
  rw [step_of_writable hro]
  cases change with
  | insert v =>
    rcases checkElement_cases c.type v with hfits | ⟨element, hchecks, hmisfit, herror⟩
    · simp only [hfits]
      exact .insert hro hfits
    · simp only [herror]
      exact .refused hro hchecks hmisfit
  | remove v => exact .remove hro
  | clear => exact .clear hro
  | rearrange slots => exact .rearrange hro

/-- What a collection has to do with the one after a change, by what the change answers. -/
structure Answered (c : Collection) (change : Change)
    (answer : Except CollectionError (Option Bool)) (c' : Collection) : Prop where
  type : c'.type = c.type
  readOnly : c.isReadOnly → answer = .error (.readOnly c.type)
  /-- Only an element that does not fit is refused by a collection that can be changed. -/
  refused : ¬ c.isReadOnly → (∃ e, answer = .error e) →
    ∃ v element, change = .insert v ∧ c.type.checked? = some element ∧ ¬ v.fits element ∧
      answer = .error (.elementType element v.ty)
  /-- A failed change leaves the collection as it was. -/
  failed : ∀ e, answer = .error e → c' = c
  inserted : ∀ v, change = .insert v →
    (answer = .ok (some true) ↔ c'.elements.length = c.elements.length + 1)
  appended : ∀ v, change = .insert v → answer = .ok (some true) → c.discipline ≠ .sorted →
    c'.elements = c.elements ++ [v] ∧
      (c.discipline ≠ .sequence → ∀ e ∈ c.elements, c.discipline.answers v e = false)
  /-- An element stays out where one answers for it. -/
  taken : ∀ v, change = .insert v → answer = .ok (some false) →
    c' = c ∧ ∃ e ∈ c.elements, c.discipline.answers v e
  removed : ∀ v, change = .remove v →
    (answer = .ok (some true) ↔ c'.elements.length + 1 = c.elements.length)
  /-- An element that answers is taken out, and what remains keeps its order. It is the first of
  them, or where elements are hashed the one in the lowest slot. -/
  remaining : ∀ v, change = .remove v → answer = .ok (some true) →
    ∃ before e after, c.elements = before ++ e :: after ∧ c'.elements = before ++ after ∧
      c.discipline.answers v e ∧
      (¬ c.discipline.IsHashed → ∀ b ∈ before, c.discipline.answers v b = false) ∧
      (c.discipline.IsHashed → ∀ (i : Nat) f, c.elements[i]? = some f → c.discipline.answers v f →
        c.slots.getD before.length 0 ≤ c.slots.getD i 0)
  /-- Nothing is taken out where no element answers. -/
  missing : ∀ v, change = .remove v → answer = .ok (some false) →
    c' = c ∧ (c.discipline ≠ .sorted → ∀ e ∈ c.elements, c.discipline.answers v e = false)
  cleared : change = .clear → answer = .ok none → c'.elements = []

theorem Steps.type_eq (h : Steps c change r) : r.2.type = c.type := by
  cases h with
  | remove => exact take_type c _
  | readOnly | refused | insert | clear | rearrange => rfl

theorem Steps.failed {e : CollectionError} (h : Steps c change r) (he : r.1 = .error e) :
    r.2 = c := by
  cases h with
  | readOnly | refused => rfl
  | insert | remove | clear | rearrange => cases he

theorem Steps.refused_of_writable {e : CollectionError} (h : Steps c change r)
    (hro : ¬ c.isReadOnly) (he : r.1 = .error e) :
    ∃ v element, change = .insert v ∧ c.type.checked? = some element ∧ ¬ v.fits element ∧
      r.1 = .error (.elementType element v.ty) := by
  cases h with
  | readOnly hclosed => exact absurd hclosed hro
  | refused _ hchecks hmisfit => exact ⟨_, _, rfl, hchecks, hmisfit, rfl⟩
  | insert | remove | clear | rearrange => cases he

theorem Steps.inserted (h : Steps c (.insert v) r) :
    (r.1 = .ok (some true) ↔ r.2.elements.length = c.elements.length + 1) ∧
      (r.1 = .ok (some true) → c.discipline ≠ .sorted → r.2.elements = c.elements ++ [v] ∧
        (c.discipline ≠ .sequence → ∀ e ∈ c.elements, c.discipline.answers v e = false)) ∧
      (r.1 = .ok (some false) → r.2 = c ∧ ∃ e ∈ c.elements, c.discipline.answers v e) := by
  cases h with
  | readOnly | refused => simp
  | insert =>
    have hinserted := Discipline.inserted_insert c.discipline v c.elements
    have hlength := hinserted.length
    have hout : (c.store v).1 = false → (c.store v).2 = c := store_of_not_added
    simp only [store_fst, store_elements] at hout ⊢
    generalize c.discipline.insert v c.elements = r at hinserted hlength hout
    refine ⟨by simpa using hlength, fun hadded hd => ?_, fun hpresent => ?_⟩
    · cases hinserted with
      | present => cases hadded
      | added before helements hlast hnew =>
        obtain rfl := hlast hd
        exact ⟨by simp [helements], hnew hd⟩
    · cases hinserted with
      | present hmem hanswers => exact ⟨hout rfl, _, hmem, hanswers⟩
      | added => cases hpresent

theorem Steps.removed (h : Steps c (.remove v) r) :
    (r.1 = .ok (some true) ↔ r.2.elements.length + 1 = c.elements.length) ∧
      (r.1 = .ok (some true) → ∃ before e after, c.elements = before ++ e :: after ∧
        r.2.elements = before ++ after ∧ c.discipline.answers v e ∧
        (¬ c.discipline.IsHashed → ∀ b ∈ before, c.discipline.answers v b = false) ∧
        (c.discipline.IsHashed → ∀ (i : Nat) f, c.elements[i]? = some f →
          c.discipline.answers v f → c.slots.getD before.length 0 ≤ c.slots.getD i 0)) ∧
      (r.1 = .ok (some false) → r.2 = c ∧
        (c.discipline ≠ .sorted → ∀ e ∈ c.elements, c.discipline.answers v e = false)) := by
  cases h with
  | readOnly => simp
  | remove =>
    have hfound := Discipline.found_find? c.discipline v c.slots c.elements
    unfold take
    generalize c.discipline.find? v c.slots c.elements = found at hfound
    cases hfound with
    | absent hnone => exact ⟨by simp, nofun, fun _ => ⟨rfl, hnone⟩⟩
    | @present before e after helements hanswers hfirst hlowest =>
      have herased : c.elements.eraseIdx before.length = before ++ after := by
        simp [helements, List.eraseIdx_append_of_length_le]
      refine ⟨iff_of_true rfl ?_,
        fun _ => ⟨before, e, after, helements, herased, hanswers, hfirst, hlowest⟩, nofun⟩
      show (c.elements.eraseIdx before.length).length + 1 = c.elements.length
      rw [herased, helements, List.length_append, List.length_append, List.length_cons]
      rfl

theorem Steps.cleared (h : Steps c .clear r) (hr : r.1 = .ok none) : r.2.elements = [] := by
  cases h with
  | readOnly => cases hr
  | clear => rfl

theorem answered_step (c : Collection) (change : Change) :
    Answered c change (c.step change).1 (c.step change).2 := by
  have h := steps_step c change
  refine
    { type := h.type_eq
      readOnly := fun hro => congrArg Prod.fst (step_of_isReadOnly hro change)
      refused := fun hro ⟨e, he⟩ => h.refused_of_writable hro he
      failed := fun e he => h.failed he
      inserted := ?_, appended := ?_, taken := ?_, removed := ?_, remaining := ?_, missing := ?_
      cleared := ?_ }
  · rintro v rfl
    exact h.inserted.1
  · rintro v rfl
    exact h.inserted.2.1
  · rintro v rfl
    exact h.inserted.2.2
  · rintro v rfl
    exact h.removed.1
  · rintro v rfl
    exact h.removed.2.1
  · rintro v rfl
    exact h.removed.2.2
  · rintro rfl
    exact h.cleared

/-! ## What a collection keeps to -/

/-- What a collection keeps to, whatever changes it. -/
structure Sound (c : Collection) : Prop where
  /-- The elements of a checked collection are null or instances of its element type. -/
  checked : ∀ element, c.type.checked? = some element →
    ∀ e ∈ c.elements, e = .null ∨ Hierarchy.empty.isInstance e element
  /-- A collection wrapped as empty is empty. -/
  empty : c.type.wrapper? = some .empty → c.elements.length = 0
  /-- In a hash-backed set no element equals an earlier one. -/
  hashed : c.discipline = .hashed →
    c.elements.Pairwise fun earlier later => (later == earlier) = false

theorem eq_null_or_isInstance {e : Value} {element : Ty} (h : e.fits element) :
    e = .null ∨ Hierarchy.empty.isInstance e element :=
  (Bool.or_eq_true_iff.1 h).imp_left Value.isNull_iff.1

theorem isReadOnly_of_wrapper? (h : c.type.wrapper? = some .empty) : c.isReadOnly := by
  simp [isReadOnly, CollectionTy.isReadOnly, h, Wrapper.isReadOnly]

theorem sound_new (type : CollectionTy) : (new type).Sound :=
  ⟨fun _ _ => nofun, fun _ => rfl, fun _ => .nil⟩

theorem keeps_iff_of_hashed (h : c.discipline = .hashed) (es : List Value) :
    c.discipline.Keeps es ↔ es.Pairwise fun earlier later => (later == earlier) = false := by
  rw [h]
  rfl

theorem hashed_insert (h : c.discipline = .hashed →
      c.elements.Pairwise fun earlier later => (later == earlier) = false) (v : Value)
    (hd : c.discipline = .hashed) :
    (c.discipline.insert v c.elements).2.Pairwise fun earlier later => (later == earlier) = false :=
  (keeps_iff_of_hashed hd _).1 <|
    ((keeps_iff_of_hashed hd _).2 (h hd)).insert_of_ne_sorted (by simp [hd])

/-- A collection made of some elements has checked them and kept them apart, and one that is wrapped
as empty has taken none. -/
theorem sound_ofElements (h : ofElements type es = .ok c) : c.Sound := by
  have hmade := ofElements_eq_ok h
  obtain ⟨filled, hfill, h⟩ := bind_eq_ok_iff.1 h
  have hhashed : filled.discipline = .hashed →
      filled.elements.Pairwise fun earlier later => (later == earlier) = false := by
    refine foldlM_ok_induction (P := fun d : Collection => d.discipline = .hashed →
      d.elements.Pairwise fun earlier later => (later == earlier) = false) hfill
      (sound_new type).hashed fun v _ d d' hd hput => ?_
    obtain ⟨⟨⟩, -, hput⟩ := bind_eq_ok_iff.1 hput
    cases hput
    exact hashed_insert hd v
  split at h
  · cases h
  · next hroom =>
    cases h
    refine ⟨fun element hty e he => ?_, fun hwrapped => ?_, hhashed⟩
    · exact eq_null_or_isInstance <|
        checkElement_eq_ok_iff.1 (hmade.elements e he).2 element hty
    · simpa [hwrapped] using hroom

/-- A change keeps a collection sound. -/
theorem Sound.step (h : c.Sound) (change : Change) : (c.step change).2.Sound := by
  have hsteps := steps_step c change
  generalize c.step change = r at hsteps
  cases hsteps with
  | readOnly | refused => exact h
  | @insert v hwritable hfits =>
    refine ⟨fun element hty e he => ?_, fun hwrapped => ?_, hashed_insert h.hashed v⟩
    · rcases Discipline.mem_insert he with rfl | he
      · exact eq_null_or_isInstance (checkElement_eq_ok_iff.1 hfits element hty)
      · exact h.checked element hty e he
    · exact absurd (isReadOnly_of_wrapper? hwrapped) hwritable
  | @remove v hwritable =>
    have hsub := c.take_sublist v
    constructor
    · rw [take_type]
      exact fun element hty e he => h.checked element hty e (hsub.subset he)
    · rw [take_type]
      exact fun hwrapped => absurd (isReadOnly_of_wrapper? hwrapped) hwritable
    · rw [discipline, take_type]
      exact fun hd => (h.hashed hd).sublist hsub
  | clear =>
    exact ⟨fun _ _ e he => absurd he (List.not_mem_nil (a := e)), fun _ => rfl, fun _ => .nil⟩
  | rearrange => exact ⟨h.checked, h.empty, h.hashed⟩

end Collection

/-! ## The filing of a case-insensitive set -/

namespace Filing

variable {f : Filing} {c start : Collection} {type : CollectionTy} {es : List Value}

/-- What a change of a case-insensitive set makes of its filing. -/
def step (f : Filing) : Collection.Change → Filing
  | .insert v => (f.insert v).2
  | .remove v => (f.remove v).2
  | .clear => empty
  | .rearrange slots => { f with slots }

/-- The filing after some changes. -/
def after (f : Filing) (changes : List Collection.Change) : Filing := changes.foldl step f

/-- The filing of some elements that are put in one by one. -/
def ofElements (es : List Value) : Filing := es.foldl (fun f v => (f.insert v).2) empty

/-- The filing of a case-insensitive set: it is sound, and files the elements in the slots they
have. -/
structure Files (f : Filing) (c : Collection) : Prop where
  caseless : c.discipline = .caseless
  sound : f.Sound
  elements : c.elements = f.elements
  slots : c.slots = f.slots

/-- Storing an element in the set is filing it. -/
theorem Files.store (h : f.Files c) (v : Value) :
    (c.store v).1 = (f.insert v).1 ∧ (f.insert v).2.Files (c.store v).2 := by
  have hcontains := contains_elements h.sound v
  have hinsert : c.discipline.insert v c.elements =
      if f.contains v then (false, c.elements) else (true, c.elements ++ [v]) := by
    rw [h.caseless, h.elements, ← hcontains]
    rfl
  have hsound := h.sound.insert v
  cases hv : f.contains v with
  | true =>
    simp only [hv, if_true] at hinsert
    have hout : (c.store v).1 = false := by rw [Collection.store_fst, hinsert]
    simp only [insert, hv, if_true, hout, Collection.store_of_not_added hout]
    exact ⟨trivial, h⟩
  | false =>
    simp only [hv, Bool.false_eq_true, if_false] at hinsert
    refine ⟨by simp [hinsert, insert, hv], ?_⟩
    have hslots : (c.store v).2.slots = f.slots ++ [f.slot v] := by
      simp only [Collection.store]
      rw [hinsert]
      simp only [h.caseless, h.slots, h.elements, slot_elements h.sound]
    refine ⟨h.caseless, hsound, ?_, ?_⟩
    · rw [Collection.store_elements, hinsert]
      simp [insert, hv, h.elements, Filing.elements]
    · rw [hslots]
      simp [insert, hv]

/-- Taking an element out of the set is taking out what stands under its key. -/
theorem Files.take (h : f.Files c) (v : Value) :
    (c.take v).1 = (f.remove v).1 ∧ (f.remove v).2.Files (c.take v).2 := by
  have hsound := h.sound.remove v
  have hfind := find?_elements h.sound v
  unfold Collection.take remove at *
  rw [h.caseless, h.elements, h.slots, hfind]
  generalize Discipline.firstMet? (v.foldCase == ·.1) f.slots f.entries = found at hsound
  cases found with
  | none => exact ⟨rfl, h⟩
  | some i =>
    refine ⟨rfl, h.caseless, hsound, ?_, rfl⟩
    simp [Filing.elements, List.eraseIdx_map]

theorem type_of_caseless (h : c.discipline = .caseless) :
    c.type = .concrete .caseInsensitiveSet := by
  have htype : ∀ type : CollectionTy, type.discipline = .caseless →
      type = .concrete .caseInsensitiveSet := by
    intro type h
    rcases type with s | k | ⟨w, s⟩
    · cases s <;> cases h
    · cases k <;> first | rfl | cases h
    · cases s <;> cases h
  exact htype c.type h

/-- The filing goes along with the set. -/
theorem Files.step (h : f.Files c) (change : Collection.Change) :
    (f.step change).Files (c.step change).2 := by
  have htype := type_of_caseless h.caseless
  have hsteps := Collection.steps_step c change
  generalize c.step change = r at hsteps
  cases hsteps with
  | readOnly hclosed =>
    rw [Collection.isReadOnly, htype] at hclosed
    cases hclosed
  | refused _ hchecks =>
    rw [htype] at hchecks
    cases hchecks
  | insert => exact (h.store _).2
  | remove => exact (h.take _).2
  | clear => exact ⟨h.caseless, sound_empty, rfl, rfl⟩
  | rearrange => exact ⟨h.caseless, h.sound.sublist (.refl _), h.elements, rfl⟩

theorem files_new (h : (Collection.new type).discipline = .caseless) :
    empty.Files (Collection.new type) :=
  ⟨h, sound_empty, rfl, rfl⟩

theorem Files.put {v : Value} {c' : Collection} (h : f.Files c) (hput : c.put v = .ok c') :
    (Filing.insert v f).2.Files c' := by
  obtain ⟨⟨⟩, -, hput⟩ := bind_eq_ok_iff.1 hput
  cases hput
  exact (h.store v).2

/-- Elements that are put in one by one are filed one by one. -/
theorem Files.foldlM {c' : Collection} (h : f.Files c)
    (hfill : es.foldlM Collection.put c = .ok c') :
    Files (es.foldl (fun f v => (f.insert v).2) f) c' := by
  induction es generalizing c f with
  | nil =>
    cases hfill
    exact h
  | cons v es ih =>
    rw [List.foldlM_cons] at hfill
    obtain ⟨d, hput, hfill⟩ := bind_eq_ok_iff.1 hfill
    exact ih (h.put hput) hfill

theorem files_ofElements (h : Collection.ofElements type es = .ok c)
    (hd : c.discipline = .caseless) : (ofElements es).Files c := by
  have htype : c.type = type.instantiable := (Collection.ofElements_eq_ok h).type
  obtain ⟨filled, hfill, h⟩ := bind_eq_ok_iff.1 h
  have hnew : (Collection.new type).discipline = .caseless := by
    rwa [Collection.discipline, htype] at hd
  have hfiles := (files_new hnew).foldlM hfill
  split at h
  · cases h
  · cases h
    exact hfiles

theorem Files.after (h : f.Files start) (changes : List Collection.Change) :
    (f.after changes).Files (start.after changes) := by
  induction changes generalizing f start with
  | nil => exact h
  | cons change changes ih => exact ih (h.step change)

end Filing

/-! ## Many changes -/

namespace Collection

variable {start : Collection} {type : CollectionTy} {es : List Value}

theorem Sound.after (h : start.Sound) (changes : List Change) : (start.after changes).Sound := by
  induction changes generalizing start with
  | nil => exact h
  | cons change changes ih => exact ih (h.step change)

theorem type_after (start : Collection) (changes : List Change) :
    (start.after changes).type = start.type := by
  induction changes generalizing start with
  | nil => rfl
  | cons change changes ih => exact (ih _).trans (steps_step start change).type_eq

theorem after_of_isReadOnly (h : start.isReadOnly) (changes : List Change) :
    start.after changes = start := by
  induction changes with
  | nil => rfl
  | cons change changes ih =>
    show after (start.step change).2 changes = start
    rw [step_of_isReadOnly h]
    exact ih

/-- A collection that started empty or with some elements, after any changes: it has its type, is as
it was if it is read-only, and is sound; a case-insensitive set files its elements under keys; and
one more change answers for what it does. -/
theorem after_changes (hstart : start = new type ∧ es = [] ∨ ofElements type es = .ok start)
    (changes : List Change) :
    (start.after changes).type = type.instantiable ∧
      (start.isReadOnly → start.after changes = start) ∧
      (start.after changes).Sound ∧
      ((start.after changes).discipline = .caseless →
        ((Filing.ofElements es).after changes).Files (start.after changes)) ∧
      ∀ change, Answered (start.after changes) change ((start.after changes).step change).1
        ((start.after changes).step change).2 := by
  have htype : start.type = type.instantiable := by
    rcases hstart with ⟨rfl, -⟩ | hmade
    · rfl
    · exact (ofElements_eq_ok hmade).type
  have hsound : start.Sound := by
    rcases hstart with ⟨rfl, -⟩ | hmade
    · exact sound_new type
    · exact sound_ofElements hmade
  have hfiles (hd : start.discipline = .caseless) : (Filing.ofElements es).Files start := by
    rcases hstart with ⟨rfl, rfl⟩ | hmade
    · exact Filing.files_new hd
    · exact Filing.files_ofElements hmade hd
  refine ⟨(type_after start changes).trans htype, fun hro => after_of_isReadOnly hro changes,
    hsound.after changes, fun hd => ?_, fun change => answered_step _ change⟩
  rw [discipline, type_after] at hd
  exact (hfiles hd).after changes

/-- Of "Alpha" and "ALPHA" a case-insensitive set keeps the first, gives it up for "alpha", and then
takes the other. -/
theorem after_changes_alpha :
    let es : List Value := [.string "Alpha", .string "Beta", .string "ALPHA"]
    let start : Collection :=
      ⟨.concrete .caseInsensitiveSet, [.string "Alpha", .string "Beta"], [0, 0]⟩
    let changes : List Change := [.remove (.string "alpha"), .insert (.string "ALPHA")]
    ofElements start.type es = .ok start ∧
      ((Filing.ofElements es).after changes).Files (start.after changes) ∧
      ((Filing.ofElements es).after changes).entries =
        [(.string "beta", .string "Beta"), (.string "alpha", .string "ALPHA")] ∧
      (start.after changes).step (.insert (.string "BETA")) =
        (.ok (some false), start.after changes) := by
  intro es start changes
  have hmade : ofElements start.type es = .ok start := rfl
  exact ⟨hmade, (after_changes (.inr hmade) changes).2.2.2.1 rfl, rfl, rfl⟩

end Collection

end Recast
