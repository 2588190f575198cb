/-
Reshaping makes sound containers.

A reshaping reads well typed elements, and asks for conversions of elements
alone (`Procedure.Soundly`). Given sound answers, an array gets elements that fit its
component; a collection gets elements that its type has checked, and its type,
requested, carried over from the source or default, is a subtype of the one
asked for (`isAssignable_selection`); a set of constants is of the enum type
asked for.
-/
import Recast.Container.Reshape
import Recast.Proofs.Conversion.Procedure
import Recast.Proofs.Value.Typing

namespace Recast

open Value

/-! ## Elements -/

theorem Discipline.mem_insertSorted {v e : Value} {es : List Value}
    (h : e ∈ (insertSorted v es).2) : e = v ∨ e ∈ es := by
  induction es with
  | nil => exact .inl (List.mem_singleton.1 h)
  | cons f es ih =>
    simp only [insertSorted] at h
    split at h
    · rcases List.mem_cons.1 h with rfl | h
      · exact .inr List.mem_cons_self
      · exact (ih h).imp_right (List.mem_cons_of_mem f)
    · exact .inr h
    · exact List.mem_cons.1 h

theorem Discipline.mem_insert {d : Discipline} {v e : Value} {es : List Value}
    (h : e ∈ (d.insert v es).2) : e = v ∨ e ∈ es := by
  have hhashed (added : Bool)
      (h : e ∈ (if added then (false, es) else (true, es ++ [v])).2) : e = v ∨ e ∈ es := by
    cases added with
    | true => exact .inr h
    | false => exact (List.mem_append.1 h).symm.imp_left List.mem_singleton.1
  cases d with
  | sequence => exact (List.mem_append.1 h).symm.imp_left List.mem_singleton.1
  | sorted => exact mem_insertSorted h
  | hashed => exact hhashed _ h
  | caseless => exact hhashed _ h

namespace Collection

variable {type : CollectionTy} {es : List Value} {c c' : Collection}

/-- A collection takes exactly the elements that fit the type it checks. -/
theorem checkElement_eq_ok_iff {v : Value} :
    checkElement type v = .ok () ↔ ∀ element, type.checked? = some element → v.fits element := by
  unfold checkElement
  cases type.checked? with
  | none => simp
  | some element =>
    show (if v.fits element then .ok () else .error _ : Except CollectionError Unit) = .ok () ↔ _
    by_cases h : v.fits element <;> simp [h]

theorem put_eq_ok {v : Value} (h : c.put v = .ok c') :
    checkElement c.type v = .ok () ∧ c'.type = c.type ∧
      ∀ e ∈ c'.elements, e = v ∨ e ∈ c.elements := by
  obtain ⟨⟨⟩, hcheck, h⟩ := bind_eq_ok_iff.1 h
  cases h
  exact ⟨hcheck, rfl, fun e he => Discipline.mem_insert he⟩

/-- A collection of a type, its elements among some values, and each checked. -/
structure MadeOf (type : CollectionTy) (es : List Value) (c : Collection) : Prop where
  type : c.type = type
  elements : ∀ e ∈ c.elements, e ∈ es ∧ checkElement c.type e = .ok ()

/-- A collection of some elements is made of them, with the type asked for or the default of an
interface. -/
theorem ofElements_eq_ok (h : ofElements type es = .ok c) : c.MadeOf type.instantiable es := by
  obtain ⟨filled, hfill, h⟩ := bind_eq_ok_iff.1 h
  have hfilled : filled.MadeOf type.instantiable es := by
    -- Each element put was checked by the type that the collection keeps.
    refine foldlM_ok_induction hfill ⟨rfl, nofun⟩ fun v hv d d' hd hput => ?_
    obtain ⟨hcheck, htype, hmem⟩ := put_eq_ok hput
    refine ⟨htype.trans hd.type, fun e he => ?_⟩
    rw [htype]
    rcases hmem e he with rfl | he
    · exact ⟨hv, hcheck⟩
    · exact hd.elements e he
  split at h
  · cases h
  · cases h
    exact hfilled

theorem MadeOf.inhabits (h : c.MadeOf type es) (hes : ∀ e ∈ es, e.isWellTyped) :
    c.toValue.Inhabits (.collection type) := by
  refine ⟨isWellTyped_collection_iff.2 ⟨fun element helement e he => ?_, fun e he => ?_⟩,
    congrArg Ty.collection h.type⟩
  · exact checkElement_eq_ok_iff.1 (h.elements e he).2 element helement
  · exact hes e (h.elements e he).1

end Collection

/-! ## The type of a collection -/

theorem isAssignable_carried {shape : Shape} {source type : CollectionTy}
    (h : Selection.carried? shape source = some type) :
    Hierarchy.empty.isAssignable (.collection type.instantiable)
      (.collection (.interface shape)) := by
  cases source with
  | interface s => cases h
  | wrapped w s =>
    -- The wrapper moves to the shape asked for, whatever it holds.
    cases h
    cases shape <;> rfl
  | concrete k => cases k <;> cases shape <;> cases h <;> rfl

/-- The type chosen for a collection is the one asked for, or stands below it. -/
theorem isAssignable_selection (type : CollectionTy) (source : Option CollectionTy) :
    Hierarchy.empty.isAssignable (.collection (Selection.of type source).type)
      (.collection type) := by
  cases type with
  | interface shape =>
    simp only [Selection.of]
    cases hcarried : source.bind (Selection.carried? shape) with
    | none => cases shape <;> rfl
    | some type =>
      obtain ⟨k, -, hk⟩ := Option.bind_eq_some_iff.1 hcarried
      exact isAssignable_carried hk
  | concrete k => exact Hierarchy.isAssignable_refl _ _
  | wrapped w s => exact Hierarchy.isAssignable_refl _ _

/-! ## Reshaping -/

/-- A procedure asks for conversions of well typed values alone, and given sound results it ends as
`post` says. -/
abbrev Procedure.Soundly {α : Type} (post : α → Prop) (p : Procedure α) : Prop :=
  p.Ensures (Request.Converts fun v _ => v.isWellTyped) (Request.Gives SoundResult) post

open Procedure

variable {v : Value} {t : Ty} {es : List Value}

theorem convertEach_soundly (hes : ∀ e ∈ es, e.isWellTyped) :
    (convertEach t es).Soundly fun ws => ∀ w ∈ ws, w.fits t ∧ w.isWellTyped := by
  induction es with
  | nil => exact ensures_pure nofun
  | cons e es ih =>
    obtain ⟨he, hes⟩ := List.forall_mem_cons.1 hes
    have hrest (w : Value) (hw : w.fits t ∧ w.isWellTyped) :
        (convertEach t es >>= fun ws => pure (w :: ws)).Soundly
          fun ws => ∀ w ∈ ws, w.fits t ∧ w.isWellTyped :=
      (ih hes).bind fun ws hws => ensures_pure (List.forall_mem_cons.2 ⟨hw, hws⟩)
    simp only [convertEach]
    split
    · exact hrest .null ⟨rfl, rfl⟩
    · exact (ensures_ask he fun w hw => ⟨hw.fits, hw.wellTyped⟩).bind hrest

theorem elementsFor_soundly (hv : v.isWellTyped) :
    (elementsFor v t).Soundly fun es => ∀ e ∈ es, e.isWellTyped := by
  unfold elementsFor
  cases hes : v.elements? with
  | none => exact ensures_fail _
  | some es => exact ensures_pure (isWellTyped_of_elements? hv hes)

theorem intoArray_soundly {component : Ty} (hv : v.isWellTyped) :
    (Reshape.intoArray component v).Soundly fun w => w.Inhabits (.array component) := by
  refine (elementsFor_soundly hv).bind fun es hes => ?_
  refine (convertEach_soundly hes).bind fun ws hws => ensures_pure ?_
  exact ⟨isWellTyped_array_iff.2 hws, rfl⟩

theorem enumSetOf_type {E : EnumType} {limit : Nat} {s : EnumSet}
    (h : Reshape.enumSetOf E limit es = .ok s) : s.type = E := by
  refine foldlM_ok_induction (P := fun s : EnumSet => s.type = E) h rfl fun e _ s s' hs hstep => ?_
  obtain ⟨c, -, hstep⟩ := bind_eq_ok_iff.1 hstep
  cases hstep
  exact hs

theorem intoEnumSet_soundly {E : EnumType} {limit : Nat} (hv : v.isWellTyped) :
    (Reshape.intoEnumSet E limit v).Soundly fun w => w.Inhabits (.enumSet E) := by
  refine (elementsFor_soundly hv).bind fun es _ => ?_
  cases hs : Reshape.enumSetOf E limit es with
  | error e => exact ensures_fail e
  | ok s => exact ensures_pure ⟨rfl, congrArg Ty.enumSet (enumSetOf_type hs)⟩

theorem make_eq_ok {type : CollectionTy} {c : Collection} (h : Reshape.make type es = .ok c) :
    c.MadeOf type.instantiable es := by
  unfold Reshape.make at h
  split at h
  · cases hmade : Collection.ofElements type es with
    | error e =>
      rw [hmade] at h
      cases h
    | ok made =>
      rw [hmade] at h
      cases h
      exact Collection.ofElements_eq_ok hmade
  · cases h

theorem build_eq_ok {factory? : CollectionTy → Option Factory} {choice : Selection}
    {c : Collection} (hf : ∀ type, factory? type = none)
    (h : Reshape.build factory? choice es = .ok c) : c.MadeOf choice.type es := by
  cases choice with
  | requested type => exact make_eq_ok h
  | carriedOver type => exact make_eq_ok h
  | default shape =>
    simp only [Reshape.build, hf] at h
    exact make_eq_ok h

/-- A collection built from well typed elements is well typed, of a type below the one asked
for. -/
theorem exists_inhabits_of_build {factory? : CollectionTy → Option Factory} {type : CollectionTy}
    {source : Option CollectionTy} {c : Collection} (hf : ∀ type, factory? type = none)
    (hes : ∀ e ∈ es, e.isWellTyped)
    (h : Reshape.build factory? (Selection.of type source) es = .ok c) :
    ∃ chosen, c.toValue.Inhabits (.collection chosen) ∧
      Hierarchy.empty.isAssignable (.collection chosen) (.collection type) :=
  ⟨_, (build_eq_ok hf h).inhabits hes, isAssignable_selection type source⟩

theorem intoCollection_soundly {factory? : CollectionTy → Option Factory} {type : CollectionTy}
    (hf : ∀ type, factory? type = none) (hv : v.isWellTyped) :
    (Reshape.intoCollection factory? type v).Soundly fun w =>
      ∃ chosen, w.Inhabits (.collection chosen) ∧
        Hierarchy.empty.isAssignable (.collection chosen) (.collection type) := by
  refine (elementsFor_soundly hv).bind fun es hes => ?_
  simp only
  split
  · refine (convertEach_soundly hes).bind fun ws hws => ?_
    split
    next c hc => exact ensures_pure (exists_inhabits_of_build hf (fun w hw => (hws w hw).2) hc)
    next e _ => exact ensures_fail _
  · simp only [pure_bind]
    split
    next c hc => exact ensures_pure (exists_inhabits_of_build hf hes hc)
    next e _ => exact ensures_fail _

/-- The reshaping between two types makes a sound result. -/
theorem reshape_soundly {factory? : CollectionTy → Option Factory} {plan : Reshape} {call : Call}
    (hf : ∀ type, factory? type = none) (hv : v.isWellTyped)
    (hplan : Reshape.between? v.ty t = some plan) :
    (plan.procedure factory? v call).Soundly (v.SoundResult t) := by
  unfold Reshape.between? at hplan
  split at hplan
  · cases hplan
  cases t with
  | array component =>
    cases hplan
    exact (intoArray_soundly hv).imp fun w hw => hw.soundResult nofun
  | enumSet E =>
    cases hplan
    exact (intoEnumSet_soundly hv).imp fun w hw => hw.soundResult nofun
  | collection type =>
    cases hplan
    refine (intoCollection_soundly hf hv).imp fun w ⟨chosen, hw, hassignable⟩ => ?_
    have hresult : SoundResult v (.collection chosen) w := hw.soundResult nofun
    exact { hresult with fits := fits_iff.2 fun _ => hw.2 ▸ hassignable }
  | _ => cases hplan

end Recast
