/-
Numerals as integers.

A text that is a numeral, with blanks around it or not, has one right answer for
an integral target: the integer it stands for, out of range where the target
does not hold that integer, or the wrong format where it stands for none
(`Answers`). Every numeral without a point is answered so, and every one that a
decimal holds. The others are answered by the decimal nearest to them, once 128
bits hold their digits before the point: too many digits leave no decimal, and
many digits after the point may leave a whole one. `convert_numeral` says just
when the answer is right.
-/
import Recast.Proofs.Scalar.Numeral
import Recast.Proofs.Standard.Resolution

namespace Recast.Standard

variable {tie : TieBreak} {ctx : Context} {depth : Nat} {v : Value} {w : Width} {s : String}
variable {q : Rat}

/-- The right answer for an integral target to a text that stands for a rational number. -/
inductive Answers (w : Width) (s : String) (q : Rat) : Except ConversionError Converted → Prop
  | integer {n : Integral} (width : n.width = w) (value : (n.val : Rat) = q) :
      Answers w s q (.ok ⟨.integral n, false⟩)
  | outOfRange {excess : Excess} {n : Int} (value : (n : Rat) = q) (beyond : ¬w.Holds n) :
      Answers w s q (.error (.outOfRange excess (.integral w)))
  | notAnInteger (fraction : ∀ n : Int, (n : Rat) ≠ q) :
      Answers w s q (.error (.invalidFormat (.integral w) s .notAnInteger))

theorem answers_notAnInteger_iff :
    Answers w s q (.error (.invalidFormat (.integral w) s .notAnInteger)) ↔
      ¬∃ n : Int, (n : Rat) = q := by
  constructor
  · intro h
    cases h with
    | notAnInteger fraction => exact not_exists.2 fraction
  · exact fun h => .notAnInteger (not_exists.1 h)

theorem answers_outOfRange_iff {excess : Excess} :
    Answers w s q (.error (.outOfRange excess (.integral w))) ↔
      ∃ n : Int, (n : Rat) = q ∧ ¬w.Holds n := by
  constructor
  · intro h
    cases h with
    | outOfRange value beyond => exact ⟨_, value, beyond⟩
  · rintro ⟨n, value, beyond⟩
    exact .outOfRange value beyond

theorem answers_integralValue_iff {n : Int} (hn : (∃ m : Int, (m : Rat) = q) → (n : Rat) = q) :
    Answers w s q ((Numeric.integralValue w n).map (⟨·, false⟩)) ↔ ∃ m : Int, (m : Rat) = q := by
  unfold Numeric.integralValue
  cases hcases : Integral.ofInt? w n with
  | some i =>
    obtain ⟨hwidth, hval⟩ := Integral.ofInt?_eq_some.1 hcases
    constructor
    · intro h
      cases h with
      | integer _ value => exact ⟨_, value⟩
    · exact fun h => .integer hwidth (hval ▸ hn h)
  | none =>
    have hbeyond := Integral.ofInt?_eq_none.1 hcases
    constructor
    · intro h
      cases h with
      | outOfRange value _ => exact ⟨_, value⟩
    · exact fun h => .outOfRange (hn h) hbeyond

/-! ## Text as integers -/

theorem servedBy_integral : ∀ w ∈ Width.all, ∀ t ∈ [Ty.string, .stringBuilder],
    ServedBy .charSequence t (.integral w) := by
  decide +kernel

theorem convert_text_to_integral (ho : ctx.overrides = []) (tie : TieBreak) (depth : Nat)
    (hv : v.text? = some s) (w : Width) :
    registry.convert tie ctx (depth + 1) v (.integral w) =
      some ((Numeric.read s (.integral w) >>= fun x => x.toValue (.integral w)).map
        (⟨·, false⟩)) := by
  have hi : ⟨.charSequence, .integral w, Scalar.textToNumber⟩ ∈ items := by
    cases w <;> simp [items, numberItems, numericTypes]
  rw [convert_of_servedBy ho tie depth (servedBy_integral w w.mem_all _ (ty_of_text? hv)) hi, hv]
  rfl

theorem answers_read_iff (x : PlainNumeral) (hs : Text.trim s.toList = x.text) :
    Answers w s x.value ((Numeric.read s (.integral w) >>= fun n => n.toValue (.integral w)).map
      (⟨·, false⟩)) ↔ x.ReadExactly := by
  rw [x.numeric_read hs w]
  by_cases hholds : Width.bigInteger.Holds x.integer
  · by_cases hnil : x.fraction = []
    · rw [if_pos hholds, if_pos hnil]
      have hinteger := x.isInteger_of_fraction_eq_nil hnil
      exact iff_of_true
        ((answers_integralValue_iff fun _ => hinteger.intCast_integer).2 hinteger)
        (x.readExactly_of_fits (.inl hnil))
    · rw [if_pos hholds, if_neg hnil]
      have hrefused (hnot : ∀ d ∈ x.kept?, d.isWhole = false) :
          Answers w s x.value (.error (.invalidFormat (.integral w) s .notAnInteger)) ↔
            x.ReadExactly := by
        rw [answers_notAnInteger_iff, x.readExactly_iff_of_not_whole hholds hnil hnot]
        rfl
      cases hkept : x.kept? with
      | none => exact hrefused (by simp [hkept])
      | some d =>
        cases hwhole : d.isWhole with
        | true =>
          obtain ⟨hexact, htrunc⟩ := PlainNumeral.readExactly_iff_of_whole hkept hwhole
          have hvalue (h : x.IsInteger) : (d.trunc : Rat) = x.value := by
            rw [htrunc h, h.intCast_integer]
          simp only [hwhole, if_true, hexact]
          exact answers_integralValue_iff hvalue
        | false =>
          simp only [hwhole, Bool.false_eq_true, if_false]
          exact hrefused (by simp [hkept, hwhole])
  · rw [if_neg hholds, PlainNumeral.readExactly_iff_of_beyond hholds]
    refine answers_outOfRange_iff.trans ⟨fun ⟨n, hn, _⟩ => ⟨n, hn⟩, fun h => ?_⟩
    exact ⟨x.integer, h.intCast_integer, fun hfits => hholds hfits.bigInteger⟩

/-- **Numerals as integers.** Every text that is a numeral is answered for every integral target,
and the answer is right just when the numeral is read exactly: always without a point, and always
when a decimal can hold the numeral. -/
theorem convert_numeral (ho : ctx.overrides = []) (tie : TieBreak) (depth : Nat)
    (hv : v.text? = some s) (x : PlainNumeral) (hs : Text.trim s.toList = x.text) (w : Width) :
    ∃ r, registry.convert tie ctx (depth + 1) v (.integral w) = some r ∧
      (Answers w s x.value r ↔ x.ReadExactly) ∧
      (x.fraction = [] ∨ x.units < 2 ^ 96 ∧ x.fraction.length ≤ 28 → Answers w s x.value r) :=
  ⟨_, convert_text_to_integral ho tie depth hv w, answers_read_iff x hs,
    fun h => (answers_read_iff x hs).2 (x.readExactly_of_fits h)⟩

/-- Minus seven with a zero after its point, among blanks. -/
theorem convert_numeral_seven :
    let x : PlainNumeral :=
      ⟨['-'], ['7'], ['0'], by decide, by decide, List.all_eq_true.1 rfl, List.all_eq_true.1 rfl⟩
    Context.default.overrides = [] ∧ (Value.string " -7.0 ").text? = some " -7.0 " ∧
      Text.trim " -7.0 ".toList = x.text ∧ x.value = (-7 : Int) ∧
      ∃ r, registry.convert .registryOrder .default 1 (.string " -7.0 ") (.integral .integer) =
          some r ∧
        Answers .integer " -7.0 " x.value r := by
  intro x
  have ho : Context.default.overrides = [] := rfl
  have hs : Text.trim " -7.0 ".toList = x.text := by decide
  have hvalue : x.value = (-7 : Int) := (x.intCast_eq_value_iff.2 (by decide)).symm
  obtain ⟨r, hr, -, hfits⟩ :=
    convert_numeral ho .registryOrder 0 (v := .string " -7.0 ") rfl x hs .integer
  exact ⟨ho, rfl, hs, hvalue, r, hr, hfits (.inr (by decide))⟩

/-- An integer is refused for its digits, a fraction becomes the integer next to it, and a fraction
is said to be out of range. -/
theorem numerals_misread :
    let even : PlainNumeral := ⟨[], "79228162514264337593543950336".toList, ['0'],
      by decide, by decide, List.all_eq_true.1 (by decide), List.all_eq_true.1 (by decide)⟩
    let nines : PlainNumeral := ⟨[], ['0'], "99999999999999999999999999999".toList,
      by decide, by decide, List.all_eq_true.1 (by decide), List.all_eq_true.1 (by decide)⟩
    let half : PlainNumeral := ⟨[], "340282366920938463463374607431768211456".toList, ['5'],
      by decide, by decide, List.all_eq_true.1 (by decide), List.all_eq_true.1 (by decide)⟩
    let convert (s : String) := registry.convert .registryOrder .default 1 (.string s)
    (even.text = "79228162514264337593543950336.0".toList ∧
      (79228162514264337593543950336 : Int) = even.value ∧
      Width.bigInteger.Holds 79228162514264337593543950336 ∧
      convert "79228162514264337593543950336.0" (.integral .bigInteger) =
        some (.error (.invalidFormat (.integral .bigInteger) "79228162514264337593543950336.0"
          .notAnInteger))) ∧
    (nines.text = "0.99999999999999999999999999999".toList ∧ ¬nines.IsInteger ∧
      convert "0.99999999999999999999999999999" (.integral .integer) =
        some (.ok ⟨.integral ⟨.integer, 1, by decide⟩, false⟩)) ∧
    (half.text = "340282366920938463463374607431768211456.5".toList ∧ ¬half.IsInteger ∧
      convert "340282366920938463463374607431768211456.5" (.integral .integer) =
        some (.error (.outOfRange (.text "340282366920938463463374607431768211456.5")
          (.integral .integer)))) := by
  intro even nines half convert
  have ho : Context.default.overrides = [] := rfl
  have hread (s : String) (w : Width) :=
    convert_text_to_integral ho .registryOrder 0 (v := .string s) rfl w
  refine ⟨⟨by decide, even.intCast_eq_value_iff.2 (by decide), by decide, ?_⟩,
    ⟨by decide, fun h => absurd (nines.isInteger_iff.1 h) (by decide), ?_⟩,
    ⟨by decide, fun h => absurd (half.isInteger_iff.1 h) (by decide), ?_⟩⟩
  · refine (hread _ _).trans ?_
    rw [even.numeric_read (by decide), if_pos (by decide), if_neg (by decide),
      even.kept?_eq_none (by decide)]
    rfl
  · have hkept : nines.kept? = some ⟨false, 10 ^ 28, 28, by decide, by decide⟩ := by
      decide +kernel
    refine (hread _ _).trans ?_
    rw [nines.numeric_read (by decide), if_pos (by decide), if_neg (by decide), hkept]
    rfl
  · refine (hread _ _).trans ?_
    rw [half.numeric_read (by decide), if_neg (by decide)]
    rfl

end Recast.Standard
