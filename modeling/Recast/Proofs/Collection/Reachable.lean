/-
What a collection comes to hold.

A collection is put together from elements and then changed (`Reachable`).
Whatever its history, it is sound, and unless it is sorted its elements are
apart the way its discipline keeps them.

Elements are put in one by one (`Discipline.gather`). A list takes all of
them; a set leaves out what an earlier element answers for, so it holds the
elements without later duplicates. When each element passes the check of the
type, that is what the collection is made of (`ofElements_eq`), and only a
type that holds nothing refuses it (`ofElements_of_empty`).
-/
import Recast.Proofs.Collection.Changes
import Mathlib.Data.List.Induction

namespace Recast

namespace Discipline

variable {d : Discipline} {es : List Value}

/-- What some elements leave when they are put in one by one, in their order. -/
def gather (d : Discipline) (es : List Value) : List Value :=
  es.foldl (fun kept e => (d.insert e kept).2) []

theorem gather_sequence (es : List Value) : gather .sequence es = es := by
  have go (kept : List Value) :
      es.foldl (fun kept e => (Discipline.sequence.insert e kept).2) kept = kept ++ es := by
    induction es generalizing kept with
    | nil => simp
    | cons e es ih =>
      rw [List.foldl_cons, ih]
      show kept ++ [e] ++ es = kept ++ e :: es
      simp
  exact go []

/-- Where an element is put at the end unless one there answers for it, later duplicates are left
out. -/
theorem gather_eq_eraseDupsBy (hd : ∀ e kept,
      d.insert e kept = if kept.any (d.answers e) then (false, kept) else (true, kept ++ [e]))
    (es : List Value) : d.gather es = es.eraseDupsBy d.answers := by
  have go (kept : List Value) : es.foldl (fun kept e => (d.insert e kept).2) kept =
      List.eraseDupsBy.loop d.answers es kept.reverse := by
    induction es generalizing kept with
    | nil => simp [List.eraseDupsBy.loop]
    | cons e es ih =>
      rw [List.foldl_cons, ih, hd, List.eraseDupsBy.loop, List.any_reverse]
      cases kept.any (d.answers e) <;> simp
  exact go []

theorem gather_hashed (es : List Value) : gather .hashed es = es.eraseDups :=
  gather_eq_eraseDupsBy (fun _ _ => rfl) es

theorem gather_caseless (es : List Value) :
    gather .caseless es = es.eraseDupsBy fun e f => e.foldCase == f.foldCase := by
  rw [gather_eq_eraseDupsBy (fun _ _ => rfl) es]
  exact congrArg (List.eraseDupsBy · es) (funext₂ Value.equalFolded_eq)

theorem insert_ne_nil (d : Discipline) (e : Value) (es : List Value) : (d.insert e es).2 ≠ [] := by
  have hinserted := inserted_insert d e es
  generalize d.insert e es = r at hinserted
  cases hinserted with
  | present hmem => exact List.ne_nil_of_mem hmem
  | added before => simp

theorem gather_eq_nil_iff : d.gather es = [] ↔ es = [] := by
  rcases List.eq_nil_or_concat es with rfl | ⟨before, e, rfl⟩
  · exact iff_of_true rfl rfl
  · rw [gather, List.concat_eq_append, List.foldl_append]
    exact iff_of_false (insert_ne_nil d e _) (by simp)

end Discipline

namespace Collection

variable {type : CollectionTy} {es : List Value} {c c' : Collection} {v : Value}

/-! ## Elements put in one by one -/

theorem ofElements_instantiable (type : CollectionTy) (es : List Value) :
    ofElements type.instantiable es = ofElements type es := by
  simp only [ofElements, new, CollectionTy.instantiable_instantiable]

/-- What elements make that are stored one by one in an empty collection of a type. -/
def filled (type : CollectionTy) (es : List Value) : Collection :=
  es.foldl (fun c e => (c.store e).2) (new type)

theorem foldl_store_type (c : Collection) (es : List Value) :
    (es.foldl (fun c e => (c.store e).2) c).type = c.type := by
  induction es generalizing c with
  | nil => rfl
  | cons e es ih => rw [List.foldl_cons, ih, store_type]

theorem foldl_store_elements (c : Collection) (es : List Value) :
    (es.foldl (fun c e => (c.store e).2) c).elements =
      es.foldl (fun kept e => (c.discipline.insert e kept).2) c.elements := by
  induction es generalizing c with
  | nil => rfl
  | cons e es ih =>
    rw [List.foldl_cons, ih]
    rfl

theorem filled_type (type : CollectionTy) (es : List Value) :
    (filled type es).type = type.instantiable := foldl_store_type (new type) es

theorem filled_elements (type : CollectionTy) (es : List Value) :
    (filled type es).elements = type.instantiable.discipline.gather es :=
  foldl_store_elements (new type) es

theorem foldlM_put (h : ∀ e ∈ es, checkElement c.type e = .ok ()) :
    es.foldlM put c = .ok (es.foldl (fun c e => (c.store e).2) c) := by
  induction es generalizing c with
  | nil => rfl
  | cons e es ih =>
    obtain ⟨he, hes⟩ := List.forall_mem_cons.1 h
    have hput : c.put e = .ok (c.store e).2 := by
      rw [put, he]
      rfl
    rw [List.foldlM_cons, hput]
    exact ih hes

/-- Elements that the type takes make a collection of what its discipline leaves of them. -/
theorem ofElements_eq (hes : ∀ e ∈ es, checkElement type.instantiable e = .ok ())
    (hroom : type.instantiable.wrapper? = some .empty → es = []) :
    ofElements type es = .ok (filled type es) := by
  have hfill : es.foldlM put (new type) = .ok (filled type es) := foldlM_put hes
  have hfits : ¬ ((filled type es).type.wrapper? = some .empty &&
      !(filled type es).elements.isEmpty) = true := by
    simpa [filled_type, filled_elements, Discipline.gather_eq_nil_iff] using hroom
  rw [ofElements, hfill]
  exact if_neg hfits

/-- A type that holds nothing takes no elements. -/
theorem ofElements_of_empty (htype : type.instantiable.wrapper? = some .empty) (hes : es ≠ []) :
    ofElements type es = .error (.capacity type.instantiable
      (type.instantiable.discipline.gather es).length) := by
  have hchecks : ∀ e ∈ es, checkElement (new type).type e = .ok () := by
    intro e _
    refine checkElement_eq_ok_iff.2 fun element helement => ?_
    have hnone : type.instantiable.checked? = none := by
      cases hinst : type.instantiable with
      | wrapped w s =>
        rw [hinst] at htype
        cases htype
        rfl
      | _ => rfl
    rw [new, hnone] at helement
    cases helement
  have hfill : es.foldlM put (new type) = .ok (filled type es) := foldlM_put hchecks
  have hfull : ((filled type es).type.wrapper? = some .empty &&
      !(filled type es).elements.isEmpty) = true := by
    simp [filled_type, filled_elements, htype, Discipline.gather_eq_nil_iff, hes]
  rw [ofElements, hfill, ← filled_elements type es, ← filled_type type es]
  exact if_pos hfull

/-! ## Reachable collections -/

/-- A collection put together from elements and changed any number of times. -/
inductive Reachable : Collection → Prop
  | ofElements {type : CollectionTy} {es : List Value} {c : Collection}
      (made : ofElements type es = .ok c) : Reachable c
  | step {c : Collection} (reached : Reachable c) (change : Change) : Reachable (c.step change).2

theorem reachable_new (type : CollectionTy) : (new type).Reachable := by
  have hmade : ofElements type [] = .ok (new type) := by
    rw [ofElements_eq (by simp) fun _ => rfl]
    rfl
  exact .ofElements hmade

theorem reachable_list (es : List Value) : (list es).Reachable := by
  induction es using List.reverseRecOn with
  | nil => exact reachable_new (.concrete .arrayList)
  | append_singleton es e ih => exact ih.step (.insert e)

theorem Reachable.after (h : c.Reachable) (changes : List Change) :
    (c.after changes).Reachable := by
  induction changes generalizing c with
  | nil => exact h
  | cons change changes ih => exact ih (h.step change)

theorem Reachable.sound (h : c.Reachable) : c.Sound := by
  induction h with
  | ofElements made => exact sound_ofElements made
  | step _ change ih => exact ih.step change

theorem Kept.put_of_ne_sorted (hc : c.Kept) (hd : c.discipline ≠ .sorted) (h : c.put v = .ok c') :
    c'.Kept := by
  obtain ⟨⟨⟩, -, h⟩ := bind_eq_ok_iff.1 h
  cases h
  exact Discipline.Keeps.insert_of_ne_sorted hd hc

theorem kept_ofElements_of_ne_sorted (hd : c.discipline ≠ .sorted)
    (h : Collection.ofElements type es = .ok c) : c.Kept := by
  obtain ⟨filled, hfill, h⟩ := bind_eq_ok_iff.1 h
  have hfilled : filled.discipline ≠ .sorted → filled.Kept := by
    refine foldlM_ok_induction (P := fun d : Collection => d.discipline ≠ .sorted → d.Kept) hfill
      (fun _ => kept_new type) fun v _ d d' hkept hput hd' => ?_
    have hd : d.discipline ≠ .sorted := by
      rwa [discipline, (put_eq_ok hput).2.1] at hd'
    exact (hkept hd).put_of_ne_sorted hd hput
  split at h
  · cases h
  · cases h
    exact hfilled hd

theorem Kept.step_of_ne_sorted (hc : c.Kept) (hd : c.discipline ≠ .sorted) (change : Change) :
    (c.step change).2.Kept := by
  have hsteps := steps_step c change
  generalize c.step change = r at hsteps
  cases hsteps with
  | readOnly | refused => exact hc
  | insert => exact Discipline.Keeps.insert_of_ne_sorted hd hc
  | remove => exact hc.take _
  | clear => exact Discipline.keeps_nil
  | rearrange => exact hc

/-- Whatever its history, a collection that is not sorted keeps its elements apart. -/
theorem Reachable.kept (h : c.Reachable) (hd : c.discipline ≠ .sorted) : c.Kept := by
  induction h with
  | ofElements made => exact kept_ofElements_of_ne_sorted hd made
  | @step c _ change ih =>
    rw [discipline, (steps_step c change).type_eq] at hd
    exact (ih hd).step_of_ne_sorted hd change

end Collection

end Recast
