/-
Scalars that text writes exactly, as text and back.

A truth value, a character, an integer of any width, a decimal or a string
builder is converted to its canonical text, and the text is converted back as it
is read (`comesBack`). Numbers are read without the blanks around them, a
character and a string builder with them, so a blank character comes back too.
What comes back is the value itself, but for a decimal zero with a sign: it
comes back without the sign, at its scale (`convert_exact_text`).
-/
import Recast.Proofs.Scalar.Number
import Recast.Proofs.Standard.Resolution

namespace Recast.Standard

open Scalar

variable {ctx : Context} {v w : Value} {t : Ty} {s : String}

/-- The types whose values text writes exactly. -/
def exactTypes : List Ty := [.boolean, .char, .stringBuilder, .decimal] ++ integralTypes

/-- The first value is converted to a text, and the text to the second at the type of the first. -/
def ComesBack (tie : TieBreak) (ctx : Context) (depth : Nat) (v w : Value) : Prop :=
  ∃ s, registry.convert tie ctx (depth + 1) v .string = some (.ok ⟨.string s, false⟩) ∧
    registry.convert tie ctx (depth + 1) (.string s) v.ty = some (.ok ⟨w, false⟩)

/-! ## The conversions -/

theorem servedBy_exact :
    (∀ t ∈ exactTypes, ∃ general ∈ [.boolean, .char, .stringBuilder, .number],
      ServedBy general t .string) ∧
      ∀ t ∈ exactTypes, ServedBy .charSequence .string t := by
  decide +kernel

theorem convert_to_canonical (ho : ctx.overrides = []) (tie : TieBreak) (depth : Nat)
    (ht : v.ty ∈ exactTypes) (htext : canonicalText? v = some s) :
    registry.convert tie ctx (depth + 1) v .string = some (.ok ⟨.string s, false⟩) := by
  obtain ⟨general, hgeneral, hserved⟩ := servedBy_exact.1 _ ht
  have hi : ⟨general, .string, scalarToString⟩ ∈ items := by
    simp only [List.mem_cons, List.not_mem_nil, or_false] at hgeneral
    rcases hgeneral with rfl | rfl | rfl | rfl <;> simp [items, textItems]
  rw [convert_of_servedBy ho tie depth hserved hi]
  show some (Except.map _ (expect (canonicalText? v) v _ >>= _)) = _
  rw [htext]
  rfl

/-- What comes back is what is read from the canonical text. -/
theorem comesBack (ho : ctx.overrides = []) (tie : TieBreak) (depth : Nat) (ht : v.ty ∈ exactTypes)
    (htext : canonicalText? v = some s) {f : Value → Call → Except ConversionError Value}
    (hi : ⟨.charSequence, v.ty, .ofPure f⟩ ∈ items)
    (hread : f (.string s) (ctx.call v.ty) = .ok w) : ComesBack tie ctx depth v w := by
  refine ⟨s, convert_to_canonical ho tie depth ht htext, ?_⟩
  rw [convert_of_servedBy ho tie depth (servedBy_exact.2 _ ht) hi, hread]
  rfl

/-! ## Each type -/

theorem boolean_comesBack (ho : ctx.overrides = []) (tie : TieBreak) (depth : Nat) (b : Bool) :
    ComesBack tie ctx depth (.boolean b) (.boolean b) := by
  have hi : ⟨.charSequence, .boolean, textToBoolean⟩ ∈ items := by simp [items, textItems]
  refine comesBack ho tie depth (show Ty.boolean ∈ exactTypes by decide) rfl hi ?_
  cases b with
  | false => rfl
  | true => rfl

theorem char_comesBack (ho : ctx.overrides = []) (tie : TieBreak) (depth : Nat) (c : Char) :
    ComesBack tie ctx depth (.char c) (.char c) := by
  have hi : ⟨.charSequence, .char, textToChar⟩ ∈ items := by simp [items, textItems]
  have hchars : (String.singleton c).toList = [c] := String.toList_singleton c
  refine comesBack ho tie depth (show Ty.char ∈ exactTypes by decide) rfl hi ?_
  simp [expect, Value.text?, bind, Except.bind, pure, Except.pure, hchars]

theorem stringBuilder_comesBack (ho : ctx.overrides = []) (tie : TieBreak) (depth : Nat)
    (s : String) : ComesBack tie ctx depth (.stringBuilder s) (.stringBuilder s) := by
  have hi : ⟨.charSequence, .stringBuilder, textToBuilder⟩ ∈ items := by simp [items, textItems]
  exact comesBack ho tie depth (show Ty.stringBuilder ∈ exactTypes by decide) rfl hi rfl

theorem number_comesBack (ho : ctx.overrides = []) (tie : TieBreak) (depth : Nat)
    (hv : v.ty ∈ exactTypes) (hnumeric : v.ty ∈ numericTypes) (htext : canonicalText? v = some s)
    {x : Numeric} (hread : Numeric.read s v.ty = .ok x) (hw : x.toValue v.ty = .ok w) :
    ComesBack tie ctx depth v w := by
  have hi : ⟨.charSequence, v.ty, textToNumber⟩ ∈ items := by
    simp [items, numberItems, hnumeric]
  refine comesBack ho tie depth hv htext hi ?_
  show (Numeric.read s v.ty >>= fun x => x.toValue v.ty) = _
  rw [hread]
  exact hw

theorem integral_comesBack (ho : ctx.overrides = []) (tie : TieBreak) (depth : Nat)
    (n : Integral) : ComesBack tie ctx depth (.integral n) (.integral n) := by
  have ht : Ty.integral n.width ∈ exactTypes ∧ Ty.integral n.width ∈ numericTypes := by
    cases n.width <;> decide
  refine number_comesBack ho tie depth ht.1 ht.2 rfl (Numeric.read_intText n.holds n.width) ?_
  show Numeric.integralValue n.width n.val = _
  rw [Numeric.integralValue, Integral.ofInt?_val]

theorem decimal_comesBack (ho : ctx.overrides = []) (tie : TieBreak) (depth : Nat) (d : Decimal) :
    ComesBack tie ctx depth (.decimal d) (.decimal d.dropZeroSign) :=
  number_comesBack ho tie depth (show Ty.decimal ∈ exactTypes by decide)
    (show Ty.decimal ∈ numericTypes by decide) rfl (Numeric.read_decimalText d) rfl

/-! ## All of them -/

/-- **Exact scalars survive text.** A truth value, a character, an integer of any width, a decimal
or a string builder is converted to a text, and the text back to a value equal to it. That is the
value itself, but for a negative zero: a decimal comes back at its scale, and without the sign just
when it is zero. -/
theorem convert_exact_text (ho : ctx.overrides = []) (tie : TieBreak) (depth : Nat) :
    (∀ v : Value, v.ty ∈ exactTypes → ∃ w, ComesBack tie ctx depth v w ∧ (w == v) = true ∧
      (v.ty ≠ .decimal → w = v)) ∧
      ∀ d : Decimal, ∃ e : Decimal, ComesBack tie ctx depth (.decimal d) (.decimal e) ∧
        e.scale = d.scale ∧ e.same d ∧ (e = d ↔ (d.coefficient = 0 → d.negative = false)) := by
  refine ⟨fun v hv => ?_, fun d => ⟨d.dropZeroSign, decimal_comesBack ho tie depth d, rfl,
    d.same_dropZeroSign, Decimal.dropZeroSign_eq_self_iff⟩⟩
  cases v
  case boolean b =>
    exact ⟨_, boolean_comesBack ho tie depth b, decide_eq_true rfl, fun _ => rfl⟩
  case char c => exact ⟨_, char_comesBack ho tie depth c, decide_eq_true rfl, fun _ => rfl⟩
  case integral n => exact ⟨_, integral_comesBack ho tie depth n, decide_eq_true rfl, fun _ => rfl⟩
  case decimal d =>
    exact ⟨_, decimal_comesBack ho tie depth d, d.same_dropZeroSign, fun h => absurd rfl h⟩
  case stringBuilder s =>
    exact ⟨_, stringBuilder_comesBack ho tie depth s, decide_eq_true rfl, fun _ => rfl⟩
  all_goals simp [exactTypes, integralTypes, Width.all, Value.ty] at hv

/-- The least integer of 128 bits, a blank character, and negative decimals with the most digits and
with none but zeros. -/
theorem convert_exact_text_extremes :
    let least : Value := .integral ⟨.bigInteger, -2 ^ 127, by decide⟩
    let most : Decimal := ⟨true, 2 ^ 96 - 1, 28, by decide, by decide⟩
    let zero : Decimal := ⟨true, 0, 2, by decide, by decide⟩
    let comesBack := ComesBack .registryOrder .default 0
    Context.default.overrides = [] ∧ least.ty ∈ exactTypes ∧ (Value.char ' ').ty ∈ exactTypes ∧
      comesBack least least ∧ comesBack (.char ' ') (.char ' ') ∧
      comesBack (.decimal most) (.decimal most) ∧
      ∃ e : Decimal, comesBack (.decimal zero) (.decimal e) ∧ e.scale = 2 ∧ e.same zero ∧
        e ≠ zero := by
  intro least most zero comesBack
  have ho : Context.default.overrides = [] := rfl
  obtain ⟨hexact, hdecimal⟩ := convert_exact_text ho .registryOrder 0
  have hleast : least.ty ∈ exactTypes := by decide
  have hchar : (Value.char ' ').ty ∈ exactTypes := by decide
  obtain ⟨w, hw, -, hsame⟩ := hexact least hleast
  obtain ⟨c, hc, -, hsamec⟩ := hexact (.char ' ') hchar
  obtain ⟨e, he, -, -, hiff⟩ := hdecimal most
  obtain ⟨z, hz, hscale, hequal, hziff⟩ := hdecimal zero
  rw [hsame (by decide)] at hw
  rw [hsamec (by decide)] at hc
  rw [hiff.2 (by decide)] at he
  have hsign : z ≠ zero := fun h => absurd (hziff.1 h rfl) (by decide)
  exact ⟨ho, hleast, hchar, hw, hc, he, z, hz, hscale, hequal, hsign⟩

end Recast.Standard
