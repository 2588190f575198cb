/-
Well typed values.

A value fits a type when it is null or an instance of the type by the built-in
hierarchy. An array need not respect its component type, nor a checked
collection that was not put together element by element its element type; a
value is well typed when every array and every checked collection in it does,
at any depth.
-/
import Recast.Proofs.Hierarchy.Assignability

namespace Recast

namespace Value

/-- Null, or an instance of a type by the built-in hierarchy. -/
def fits (v : Value) (t : Ty) : Bool := v.isNull || Hierarchy.empty.isInstance v t

mutual

/-- The elements of each array in a value fit its component type, and those of each checked
collection its element type. -/
def isWellTyped : Value → Bool
  | .array component es => es.all (·.fits component) && areWellTyped es
  | .collection type es =>
    type.checked?.all (fun element => es.all (·.fits element)) && areWellTyped es
  | .object _ fields => fieldsWellTyped fields
  | _ => true
termination_by structural v => v

def areWellTyped : List Value → Bool
  | [] => true
  | v :: vs => v.isWellTyped && areWellTyped vs
termination_by structural vs => vs

def fieldsWellTyped : List (String × Value) → Bool
  | [] => true
  | (_, v) :: fields => v.isWellTyped && fieldsWellTyped fields
termination_by structural fields => fields

end

/-- A well typed value of exactly a type. -/
def Inhabits (v : Value) (t : Ty) : Prop := v.isWellTyped ∧ v.ty = t

variable {v : Value} {t : Ty} {es : List Value}

theorem fits_iff : v.fits t ↔ (v ≠ .null → Hierarchy.empty.isAssignable v.ty t) := by
  rw [fits, Hierarchy.isInstance, Bool.or_eq_true, Bool.and_eq_true, Bool.not_eq_true']
  constructor
  · rintro (hnull | ⟨-, h⟩) hne
    · exact absurd (isNull_iff.1 hnull) hne
    · exact h
  · intro h
    cases hnull : v.isNull with
    | true => exact .inl rfl
    | false => exact .inr ⟨rfl, h fun heq => by simp [heq, isNull] at hnull⟩

theorem isInstance_of_fits (h : v.fits t) (hne : v ≠ .null) : Hierarchy.empty.isInstance v t := by
  rw [fits, Bool.or_eq_true] at h
  exact h.resolve_left fun hnull => hne (isNull_iff.1 hnull)

theorem Inhabits.fits (h : v.Inhabits t) : v.fits t :=
  fits_iff.2 fun _ => h.2 ▸ Hierarchy.isAssignable_refl _ _

theorem areWellTyped_iff : areWellTyped es ↔ ∀ e ∈ es, e.isWellTyped := by
  induction es with
  | nil => simp [areWellTyped]
  | cons e es ih => simp [areWellTyped, ih]

theorem isWellTyped_array_iff {component : Ty} :
    (Value.array component es).isWellTyped ↔ ∀ e ∈ es, e.fits component ∧ e.isWellTyped := by
  rw [isWellTyped, Bool.and_eq_true, areWellTyped_iff, List.all_eq_true]
  exact ⟨fun h e he => ⟨h.1 e he, h.2 e he⟩,
    fun h => ⟨fun e he => (h e he).1, fun e he => (h e he).2⟩⟩

theorem isWellTyped_collection_iff {type : CollectionTy} :
    (Value.collection type es).isWellTyped ↔
      (∀ element, type.checked? = some element → ∀ e ∈ es, e.fits element) ∧
        ∀ e ∈ es, e.isWellTyped := by
  rw [isWellTyped, Bool.and_eq_true, areWellTyped_iff]
  cases type.checked? <;> simp

theorem isWellTyped_of_elements? (hv : v.isWellTyped) (hes : v.elements? = some es) :
    ∀ e ∈ es, e.isWellTyped := by
  cases v with
  | array component fs =>
    cases hes
    exact fun e he => (isWellTyped_array_iff.1 hv e he).2
  | collection type fs =>
    cases hes
    exact (isWellTyped_collection_iff.1 hv).2
  | enumSet s =>
    cases hes
    intro e he
    obtain ⟨c, -, rfl⟩ := List.mem_map.1 he
    rfl
  | _ => cases hes

/-- What a conversion of a value into a type may give: something well typed, null only for null,
and else an instance of the type. -/
structure SoundResult (v : Value) (t : Ty) (w : Value) : Prop where
  wellTyped : w.isWellTyped
  null : w = .null → v = .null
  fits : w.fits t

theorem soundResult_null : SoundResult .null t .null := ⟨rfl, fun _ => rfl, rfl⟩

theorem Inhabits.soundResult {w : Value} (h : w.Inhabits t) (ht : t ≠ .null) :
    SoundResult v t w where
  wellTyped := h.1
  null hnull := absurd (h.2.symm.trans (ty_eq_null_iff.2 hnull)) ht
  fits := h.fits

end Value

end Recast
