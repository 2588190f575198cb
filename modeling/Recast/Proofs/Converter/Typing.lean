/-
Converting by the standard registry is sound.

Given that the conversions one level deeper are sound, so is a conversion: a
value that already has the type is itself an instance, an entry asks for no
other conversion and makes what is asked for, and a reshaping puts together
what sound conversions of well typed elements give. Induction on the depth
makes every conversion sound, however its values nest.
-/
import Recast.Proofs.Container.Typing
import Recast.Proofs.Converter.Dispatch
import Recast.Proofs.Standard.Typing

namespace Recast.Standard

open Value

variable {tie : TieBreak} {ctx : Context} {depth : Nat} {v : Value} {t : Ty} {c : Converted}

theorem execute_sound {p : Procedure Value} {post : Value → Prop} {w : Value}
    (hdepth : ∀ v t c, v.isWellTyped → registry.convert tie ctx depth v t = some (.ok c) →
      v.SoundResult t c.value)
    (hp : p.Soundly post) (h : registry.execute tie ctx depth t p = some (.ok w)) : post w := by
  refine hp.run (fun q a hq ha => ?_) h
  cases q with
  | convert v u =>
    cases a with
    | error e => trivial
    | ok w =>
      rw [Registry.answer_convert] at ha
      obtain ⟨c, hc, rfl⟩ := Outcome.of_value_eq_ok ha
      exact hdepth v u c hq hc
  | _ => exact hq.elim

theorem convert_soundResult (ho : ctx.overrides = []) (hv : v.isWellTyped)
    (h : registry.convert tie ctx depth v t = some (.ok c)) : v.SoundResult t c.value := by
  induction depth generalizing v t c with
  | zero => cases h
  | succ depth ih =>
    have hnone : ctx.override? v.ty t = none := by
      rw [Context.override?, ho]
      rfl
    have hdepth (v : Value) (t : Ty) (c : Converted) (hv : v.isWellTyped)
        (h : registry.convert tie ctx depth v t = some (.ok c)) : v.SoundResult t c.value :=
      ih hv h
    rcases Registry.convert_eq_ok hnone h with ⟨-, hself, hvalue⟩ | ⟨f, hf, hrun⟩ | ⟨plan, hp, hrun⟩
    · rw [hierarchy_and_factories.1] at hself
      rw [hvalue]
      exact ⟨hv, id, fits_iff.2 fun _ => hself⟩
    · exact execute_sound hdepth (ensures_of_resolve hf rfl).of_pure hrun
    · exact execute_sound hdepth
        (reshape_soundly factory?_eq_none hv (Registry.between?_of_resolve hp)) hrun

/-- **Soundness of conversion.** Whatever a well typed value is converted to by the standard
registry, without overrides and at any depth, is well typed; it is null only if the value was, and
otherwise an instance of the type asked for. -/
theorem convert_sound (ho : ctx.overrides = []) (hv : v.isWellTyped)
    (h : registry.convert tie ctx depth v t = some (.ok c)) :
    c.value.isWellTyped ∧ (c.value = .null → v = .null) ∧
      (c.value ≠ .null → Hierarchy.empty.isInstance c.value t) := by
  have hsound : v.SoundResult t c.value := convert_soundResult ho hv h
  exact ⟨hsound.wellTyped, hsound.null, fun hne => isInstance_of_fits hsound.fits hne⟩

/-- Arrays of text become a checked list of arrays of numbers, null staying null inside. -/
theorem convert_sound_nested :
    let v : Value := .array (.array .string) [.array .string [.string "7", .null], .null]
    let t : Ty := .collection (.wrapped (.checked (.array (.integral .integer))) .list)
    Context.default.overrides = [] ∧ v.isWellTyped ∧
      ∃ c, registry.convert .registryOrder .default 3 v t = some (.ok c) ∧
        c.value.isWellTyped ∧ (c.value = .null → v = .null) ∧
        (c.value ≠ .null → Hierarchy.empty.isInstance c.value t) := by
  intro v t
  have hv : v.isWellTyped := by decide
  have hconverts : (registry.convert .registryOrder .default 3 v t).any (·.isOk) := by
    decide +kernel
  obtain ⟨r, hr, hok⟩ := (Option.any_eq_true _ _).1 hconverts
  cases r with
  | error e => cases hok
  | ok c => exact ⟨rfl, hv, c, hr, convert_sound rfl hv hr⟩

end Recast.Standard
