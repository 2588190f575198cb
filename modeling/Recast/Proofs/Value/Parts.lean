/-
The parts of a value: the value itself, the values it holds, and so on
inwards.

What is ordered by name alone can be told apart only where the types that the
parts name have names of their own; `NamesApart` says so of some values.
-/
import Recast.Value.Order

namespace Recast

namespace Value

variable {v w x : Value} {vs ws : List Value}

/-- The values that a value holds. -/
def inner : Value → List Value
  | .array _ es | .collection _ es => es
  | .object _ fields => fields.map (·.2)
  | _ => []

@[simp] theorem inner_array {component : Ty} : (array component vs).inner = vs := rfl

@[simp] theorem inner_collection {type : CollectionTy} : (collection type vs).inner = vs := rfl

@[simp] theorem inner_object {typeName : String} {fields : List (String × Value)} :
    (object typeName fields).inner = fields.map (·.2) := rfl

theorem sizeOf_lt_of_mem_inner (h : w ∈ v.inner) : sizeOf w < sizeOf v := by
  cases v with
  | array component es =>
    have := List.sizeOf_lt_of_mem (inner_array ▸ h)
    simp only [array.sizeOf_spec]
    omega
  | collection type es =>
    have := List.sizeOf_lt_of_mem (inner_collection ▸ h)
    simp only [collection.sizeOf_spec]
    omega
  | object typeName fields =>
    obtain ⟨⟨name, w⟩, hfield, rfl⟩ := List.mem_map.1 h
    have := List.sizeOf_lt_of_mem hfield
    simp only [object.sizeOf_spec, Prod.mk.sizeOf_spec] at this ⊢
    omega
  | _ => cases h

/-- What holds of a value whenever it holds of the values inside holds of every value. -/
@[elab_as_elim]
theorem inner_induction {P : Value → Prop} (v : Value)
    (step : ∀ v, (∀ w ∈ v.inner, P w) → P v) : P v :=
  step v fun w _ => inner_induction w step
termination_by sizeOf v
decreasing_by exact sizeOf_lt_of_mem_inner ‹_›

mutual

/-- A value, what it holds, and so on inwards. -/
def parts : Value → List Value
  | .array component es => .array component es :: partsOfAll es
  | .collection type es => .collection type es :: partsOfAll es
  | .object typeName fields => .object typeName fields :: partsOfFields fields
  | v => [v]
termination_by structural v => v

def partsOfAll : List Value → List Value
  | [] => []
  | v :: vs => parts v ++ partsOfAll vs
termination_by structural vs => vs

def partsOfFields : List (String × Value) → List Value
  | [] => []
  | (_, v) :: fields => parts v ++ partsOfFields fields
termination_by structural fields => fields

end

theorem partsOfAll_eq (vs : List Value) : partsOfAll vs = vs.flatMap parts := by
  induction vs with
  | nil => rfl
  | cons v vs ih => rw [partsOfAll, ih]; rfl

theorem partsOfFields_eq (fields : List (String × Value)) :
    partsOfFields fields = (fields.map (·.2)).flatMap parts := by
  induction fields with
  | nil => rfl
  | cons field fields ih => rw [partsOfFields, ih]; rfl

theorem parts_eq (v : Value) : v.parts = v :: v.inner.flatMap parts := by
  cases v with
  | array | collection => rw [parts, partsOfAll_eq]; rfl
  | object => rw [parts, partsOfFields_eq]; rfl
  | _ => rfl

theorem mem_parts_self (v : Value) : v ∈ v.parts := by
  rw [parts_eq]
  exact List.mem_cons_self

theorem mem_parts_of_inner (hw : w ∈ v.inner) (hx : x ∈ w.parts) : x ∈ v.parts := by
  rw [parts_eq]
  exact List.mem_cons_of_mem _ (List.mem_flatMap.2 ⟨w, hw, hx⟩)

/-! ## Names -/

/-- Among the parts of some values, those of one kind that name two types name them differently. -/
def NamesApart (named? : Value → Option Ty) (vs : List Value) : Prop :=
  ∀ x ∈ vs.flatMap parts, ∀ y ∈ vs.flatMap parts, x.rank = y.rank →
    ∀ s ∈ named? x, ∀ t ∈ named? y, s.name = t.name → s = t

instance (named? : Value → Option Ty) (vs : List Value) : Decidable (NamesApart named? vs) :=
  inferInstanceAs (Decidable (∀ x ∈ vs.flatMap parts, ∀ y ∈ vs.flatMap parts, x.rank = y.rank →
    ∀ s ∈ named? x, ∀ t ∈ named? y, s.name = t.name → s = t))

theorem NamesApart.of_parts {named? : Value → Option Ty} (h : NamesApart named? vs)
    (hsub : ∀ w ∈ ws, ∃ v ∈ vs, ∀ x ∈ w.parts, x ∈ v.parts) : NamesApart named? ws := by
  have hmem : ∀ x ∈ ws.flatMap parts, x ∈ vs.flatMap parts := by
    intro x hx
    obtain ⟨w, hw, hx⟩ := List.mem_flatMap.1 hx
    obtain ⟨v, hv, hparts⟩ := hsub w hw
    exact List.mem_flatMap.2 ⟨v, hv, hparts x hx⟩
  exact fun x hx y hy => h x (hmem x hx) y (hmem y hy)

theorem NamesApart.mono {named? : Value → Option Ty} (h : NamesApart named? vs)
    (hsub : ∀ w ∈ ws, w ∈ vs) : NamesApart named? ws :=
  h.of_parts fun w hw => ⟨w, hsub w hw, fun _ => id⟩

theorem NamesApart.inner {named? : Value → Option Ty} (h : NamesApart named? vs)
    (hsub : ∀ w ∈ ws, ∃ v ∈ vs, w ∈ v.inner) : NamesApart named? ws :=
  h.of_parts fun w hw =>
    let ⟨v, hv, hinner⟩ := hsub w hw
    ⟨v, hv, fun _ => mem_parts_of_inner hinner⟩

end Value

end Recast
