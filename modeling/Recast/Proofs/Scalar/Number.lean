/-
Numbers read from the text of a number.

The digits of an integer are read one by one below a bound, and what is read is
the number or that it is too large (`readDigitsBelow_append`). So the text of an
integer is read as it when 128 bits hold it, and found too large when they do
not (`readInteger_intText`). The text of a decimal is read as the decimal
without a sign on zero (`read_decimalText`).
-/
import Recast.Proofs.Number.Decimal
import Recast.Scalar.Number

namespace Recast

open Text

variable {ds : List Char} {bound : Nat} {w : Width} {n : Int}

/-! ## Integers -/

/-- Digits are read on from a number below the bound. The first that goes beyond ends the reading,
and then nothing after them counts. -/
theorem readDigitsBelow_append (hds : ∀ c ∈ ds, isDigit c) {read : Nat} (hread : read < bound)
    (rest : List Char) :
    readDigitsBelow bound read (ds ++ rest) =
      if read * 10 ^ ds.length + natOfDigits ds < bound then
        readDigitsBelow bound (read * 10 ^ ds.length + natOfDigits ds) rest
      else some none := by
  induction ds generalizing read with
  | nil => simp [natOfDigits, hread]
  | cons c ds ih =>
    obtain ⟨hc, hds⟩ := List.forall_mem_cons.1 hds
    rw [← number_after_cons, List.cons_append, readDigitsBelow, hc]
    by_cases hnext : 10 * read + digitValue c < bound
    · simpa [Nat.not_le.2 hnext] using ih hds hnext
    · -- the digits to come only make the number larger
      have hle := Nat.le_mul_of_pos_right (10 * read + digitValue c)
        (Nat.pow_pos (n := ds.length) (by decide : 0 < 10))
      have hbeyond : ¬(10 * read + digitValue c) * 10 ^ ds.length + natOfDigits ds < bound := by
        omega
      simp [Nat.not_lt.1 hnext, hbeyond]

/-- A number with a sign in front. -/
def withSign (negative : Bool) (n : Nat) : Int := if negative then -(n : Int) else n

/-- Digits that end in no digit are an integer when nothing follows and 128 bits hold it. They are
too large when 128 bits do not hold it, whatever follows. -/
theorem readInteger_append {negative : Bool} {cs rest : List Char}
    (hsign : spanSign cs = (negative, ds ++ rest)) (hds : ∀ c ∈ ds, isDigit c) (hne : ds ≠ [])
    (hrest : EndsDigits rest) :
    readInteger cs =
      if Width.bigInteger.Holds (withSign negative (natOfDigits ds)) then
        if rest = [] then .read (withSign negative (natOfDigits ds)) else .malformed
      else .tooLarge := by
  -- the least integer is one further from zero than the greatest
  have hholds : Width.bigInteger.Holds (withSign negative (natOfDigits ds)) ↔
      natOfDigits ds < if negative then 2 ^ 127 + 1 else 2 ^ 127 := by
    simp only [withSign, Width.Holds, Width.min, Width.max, Width.bits]
    cases negative <;> simp only [Bool.false_eq_true, if_true, if_false] <;> omega
  have hbound : 0 < if negative then 2 ^ 127 + 1 else 2 ^ 127 := by split <;> decide
  have hdigits := readDigitsBelow_append hds hbound rest
  rw [Nat.zero_mul, Nat.zero_add] at hdigits
  have hboth : ds ++ rest ≠ [] := by simp [hne]
  simp only [readInteger, hsign, hboth, if_false, hdigits, hholds]
  by_cases h : natOfDigits ds < if negative then 2 ^ 127 + 1 else 2 ^ 127
  · cases rest with
    | nil => simp only [h, if_true, readDigitsBelow, withSign]
    | cons c rest => simp [h, readDigitsBelow, hrest c rfl]
  · simp only [h, if_false]

theorem toList_intText (n : Int) : (intText n).toList =
    (if decide (n < 0) then ['-'] else []) ++ digitsOf n.natAbs := by
  by_cases h : n < 0 <;> simp [intText, h]

theorem noBlanks_intText (n : Int) : NoBlanks (intText n).toList := by
  rw [toList_intText, noBlanks_append]
  exact ⟨noBlanks_minus _, noBlanks_digitsOf _⟩

/-- The text of an integer is read as the integer when it has 128 bits, and else found too large. -/
theorem readInteger_intText (n : Int) : readInteger (intText n).toList =
    if Width.bigInteger.Holds n then .read n else .tooLarge := by
  have hds : ∀ c ∈ digitsOf n.natAbs, isDigit c := fun _ => isDigit_of_mem_digitsOf
  have hsign : spanSign (intText n).toList = (decide (n < 0), digitsOf n.natAbs ++ []) := by
    rw [toList_intText, ← spanSign_minus _ hds (digitsOf_ne_nil _), List.append_nil]
  have hvalue : withSign (decide (n < 0)) (natOfDigits (digitsOf n.natAbs)) = n := by
    rw [natOfDigits_digitsOf, withSign]
    by_cases hneg : n < 0
    · rw [if_pos (decide_eq_true hneg)]
      omega
    · rw [if_neg (by simpa using hneg)]
      omega
  rw [readInteger_append hsign hds (digitsOf_ne_nil _) (by simp [EndsDigits]), hvalue, if_pos rfl]

/-- What any width holds is held by the widest. -/
theorem Width.Holds.bigInteger (h : w.Holds n) : Width.bigInteger.Holds n := by
  cases w <;> simp only [Width.Holds, Width.min, Width.max, Width.bits] at * <;> omega

/-! ## Numbers for a target -/

namespace Numeric

theorem read_intText (h : w.Holds n) (target : Width) :
    read (intText n) (.integral target) = .ok (.integer n) := by
  have hne : (intText n).toList ≠ [] := by
    simp [toList_intText, digitsOf_ne_nil]
  simp only [read, trim_eq_self (noBlanks_intText n), hne, if_false, readInteger_intText,
    h.bigInteger, if_true]

/-- The text of a decimal is read as the decimal, without a sign on zero. -/
theorem read_decimalText (d : Decimal) : read d.text .decimal = .ok (.decimal d.dropZeroSign) := by
  have hread := d.read_text
  have hne : d.text.toList ≠ [] := by
    intro hnil
    rw [hnil] at hread
    cases hread
  simp only [read, trim_eq_self d.noBlanks_text, hne, if_false, Decimal.readAny, hread]

end Numeric

end Recast
