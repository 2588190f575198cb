/-
What a reshaping asks for.

A reshaping asks for conversions of the elements of its source, and of nothing
else, whatever is answered (`Reshape.asksFor_procedure`). Of the call it reads
the environment alone (`Reshape.procedure_congr`). So a dispatch that reshapes
leads to what the value holds: itself, its elements, and so on inwards.
-/
import Mathlib.Logic.Relation
import Recast.Container.Reshape
import Recast.Proofs.Conversion.Procedure

namespace Recast

/-! ## What a value holds -/

namespace Value

variable {v : Value} {P : Value → Prop}

/-- The value is a container, and the other one of its elements. -/
def HasElement (v e : Value) : Prop := ∃ es, v.elements? = some es ∧ e ∈ es

/-- The value itself, its elements, and so on inwards. The fields of an object are no elements. -/
def Holds : Value → Value → Prop := Relation.ReflTransGen HasElement

end Value

/-! ## What is asked for -/

namespace Procedure

variable {α β : Type} {asked : Value → Prop}

/-- Whatever the answers, only values of a kind are asked to be converted, and nothing else is
asked. -/
abbrev AsksFor (asked : Value → Prop) (p : Procedure α) : Prop :=
  p.Requests (Request.Converts fun v _ => asked v)

theorem AsksFor.bind {p : Procedure α} {f : α → Procedure β} (hp : p.AsksFor asked)
    (hf : ∀ a, (f a).AsksFor asked) : (p >>= f).AsksFor asked :=
  Ensures.bind hp fun a _ => hf a

theorem asksFor_convertEach {es : List Value} (hes : ∀ e ∈ es, asked e) (t : Ty) :
    (convertEach t es).AsksFor asked := by
  induction es with
  | nil => exact ensures_pure trivial
  | cons e es ih =>
    obtain ⟨he, hes⟩ := List.forall_mem_cons.1 hes
    have hrest (w : Value) : (convertEach t es >>= fun ws => pure (w :: ws)).AsksFor asked :=
      (ih hes).bind fun ws => ensures_pure trivial
    simp only [convertEach]
    split
    · exact hrest .null
    · exact AsksFor.bind (ensures_ask he fun _ _ => trivial) hrest

theorem ensures_elementsFor (v : Value) (t : Ty) :
    (elementsFor v t).Ensures (Request.Converts fun e _ => v.HasElement e) (fun _ _ => True)
      fun es => ∀ e ∈ es, v.HasElement e := by
  unfold elementsFor
  cases hes : v.elements? with
  | none => exact ensures_fail _
  | some es => exact ensures_pure fun e he => ⟨es, hes, he⟩

end Procedure

open Procedure

/-- A reshaping asks for elements of its source alone. -/
theorem Reshape.asksFor_procedure (factory? : CollectionTy → Option Factory) (plan : Reshape)
    (v : Value) (call : Call) : (plan.procedure factory? v call).AsksFor v.HasElement := by
  cases plan with
  | toArray component =>
    refine (ensures_elementsFor v _).bind fun es hes => ?_
    exact (asksFor_convertEach hes component).bind fun ws => ensures_pure trivial
  | toCollection type =>
    refine (ensures_elementsFor v _).bind fun es hes => ?_
    simp only
    split
    · refine (asksFor_convertEach hes _).bind fun ws => ?_
      split
      next c _ => exact ensures_pure trivial
      next e _ => exact ensures_fail _
    · simp only [pure_bind]
      split
      next c _ => exact ensures_pure trivial
      next e _ => exact ensures_fail _
  | toEnumSet E =>
    refine (ensures_elementsFor v _).bind fun es _ => ?_
    cases Reshape.enumSetOf E call.env.maxNameLength es with
    | ok s => exact ensures_pure trivial
    | error e => exact ensures_fail e

end Recast
