/-
Well formed values: at any depth, a collection holds its elements the way its
discipline keeps them, and an object has each field once.

Nothing in the type of values asks for that. Elements that are not sorted stay
apart when one more is put among them, and any elements do when one is taken
out.
-/
import Recast.Collection
import Recast.Proofs.Container.Typing
import Recast.Proofs.Value.Order

namespace Recast

open Value

namespace Discipline

variable {d : Discipline} {v e : Value} {es fs : List Value}

/-- The elements are kept apart: no two equal, by equality or up to the case of text, or each
before the next. -/
def Keeps : Discipline → List Value → Prop
  | .sequence, _ => True
  | .hashed, es => es.Pairwise fun earlier later => (later == earlier) = false
  | .caseless, es => es.Pairwise fun earlier later => later.equalFolded earlier = false
  | .sorted, es => es.Pairwise fun earlier later => earlier.compare later = .lt

instance (d : Discipline) (es : List Value) : Decidable (d.Keeps es) :=
  match d with
  | .sequence => inferInstanceAs (Decidable True)
  | .hashed =>
    inferInstanceAs (Decidable (es.Pairwise fun earlier later => (later == earlier) = false))
  | .caseless =>
    inferInstanceAs (Decidable (es.Pairwise fun earlier later => later.equalFolded earlier = false))
  | .sorted =>
    inferInstanceAs (Decidable (es.Pairwise fun earlier later => earlier.compare later = .lt))

theorem keeps_nil : d.Keeps [] := by cases d <;> simp [Keeps]

theorem Keeps.sublist (h : d.Keeps es) (hsub : fs.Sublist es) : d.Keeps fs := by
  cases d with
  | sequence => trivial
  | hashed | caseless | sorted => exact List.Pairwise.sublist hsub h

theorem pairwise_unless_any {R : Value → Value → Prop} {p : Value → Bool} (hes : es.Pairwise R)
    (hp : ∀ e ∈ es, p e = false → R e v) :
    (if es.any p then (false, es) else (true, es ++ [v])).2.Pairwise R := by
  by_cases hany : es.any p
  · rw [if_pos hany]
    exact hes
  · rw [if_neg hany]
    have hnone : ∀ e ∈ es, p e = false := by simpa using hany
    simpa [List.pairwise_append] using ⟨hes, fun e he => hp e he (hnone e he)⟩

/-- Elements that are not sorted stay apart when one more is put among them. -/
theorem Keeps.insert_of_ne_sorted (hd : d ≠ .sorted) (h : d.Keeps es) :
    d.Keeps (d.insert v es).2 := by
  cases d with
  | sequence => trivial
  | sorted => exact absurd rfl hd
  | hashed => exact pairwise_unless_any h fun _ _ he => he
  | caseless => exact pairwise_unless_any h fun _ _ he => he

end Discipline

namespace Collection

variable {type : CollectionTy} {es : List Value} {c c' : Collection} {v : Value}

/-- The elements of a collection are apart the way its discipline keeps them. -/
def Kept (c : Collection) : Prop := c.discipline.Keeps c.elements

theorem kept_new (type : CollectionTy) : (new type).Kept := Discipline.keeps_nil

/-- What an element is taken out of keeps its order. -/
theorem take_sublist (c : Collection) (v : Value) :
    (c.take v).2.elements.Sublist c.elements := by
  unfold take
  cases c.discipline.find? v c.slots c.elements with
  | none => exact .refl _
  | some i => exact List.eraseIdx_sublist c.elements i

theorem take_type (c : Collection) (v : Value) : (c.take v).2.type = c.type := by
  unfold take
  cases c.discipline.find? v c.slots c.elements <;> rfl

theorem Kept.take (h : c.Kept) (v : Value) : (c.take v).2.Kept := by
  rw [Kept, discipline, take_type]
  exact Discipline.Keeps.sublist h (c.take_sublist v)

end Collection

/-! ## Fields -/

theorem lookup_field_eq_some_iff {fields : List (String × Value)} {name : String} {v : Value}
    (h : (fields.map (·.1)).Nodup) : fields.lookup name = some v ↔ (name, v) ∈ fields := by
  constructor
  · intro hlookup
    obtain ⟨before, after, rfl, -⟩ := List.lookup_eq_some_iff.1 hlookup
    simp
  · intro hmem
    obtain ⟨before, after, rfl⟩ := List.append_of_mem hmem
    refine List.lookup_eq_some_iff.2 ⟨before, after, rfl, fun field hfield => bne_iff_ne.2 ?_⟩
    rw [List.map_append, List.map_cons] at h
    rintro rfl
    exact (List.nodup_append.1 h).2.2 field.1 (List.mem_map_of_mem hfield) field.1
      List.mem_cons_self rfl

namespace Value

/-- A collection keeps its elements apart, and an object has each field once. -/
def Keeps : Value → Prop
  | .collection type es => type.discipline.Keeps es
  | .object _ fields => (fields.map (·.1)).Nodup
  | _ => True

instance : (v : Value) → Decidable v.Keeps
  | .collection type es => inferInstanceAs (Decidable (type.discipline.Keeps es))
  | .object _ fields => inferInstanceAs (Decidable (fields.map (·.1)).Nodup)
  | .null | .boolean _ | .char _ | .integral _ | .float _ | .double _ | .decimal _ | .string _
  | .stringBuilder _ | .date _ | .localDateTime _ | .dateTime _ | .time _ | .instant _
  | .duration _ | .zoneOffset _ | .locale _ | .typeRef _ | .enum _ | .enumSet _ | .array _ _ =>
    isTrue trivial

/-- Every part of a value keeps what it holds apart. -/
def WellFormed (v : Value) : Prop := ∀ x ∈ v.parts, x.Keeps

instance (v : Value) : Decidable v.WellFormed :=
  inferInstanceAs (Decidable (∀ x ∈ v.parts, x.Keeps))

theorem WellFormed.keeps {v : Value} (h : v.WellFormed) : v.Keeps := h v (mem_parts_self v)

theorem WellFormed.inner {v w : Value} (h : v.WellFormed) (hw : w ∈ v.inner) : w.WellFormed :=
  fun x hx => h x (mem_parts_of_inner hw hx)

end Value

end Recast
