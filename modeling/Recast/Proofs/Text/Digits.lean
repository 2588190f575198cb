/-
Written numbers read back.

A numeral is all digits, and reading its digits gives the number
(`natOfDigits_digitsOf`), also with zeros in front (`natOfDigits_padded`); a
number below `10 ^ width` padded to the width has exactly that many digits. No
numeral has a blank at either end, so that trimming leaves it alone.
-/
import Recast.Text.Blank
import Recast.Text.Digits

namespace Recast.Text

variable {width n : Nat} {c : Char} {cs ds rest : List Char}

/-! ## Numerals -/

/-- Reading the numeral of a number gives it back. -/
@[simp] theorem natOfDigits_digitsOf (n : Nat) : natOfDigits (digitsOf n) = n :=
  Nat.ofDigitChars_ten_toDigits

/-- Digits after a number make one number, of whichever of them is added to it first. -/
theorem number_after_cons (k : Nat) (c : Char) (ds : List Char) :
    (10 * k + digitValue c) * 10 ^ ds.length + natOfDigits ds =
      k * 10 ^ (c :: ds).length + natOfDigits (c :: ds) := by
  rw [← foldl_digits, ← foldl_digits]
  rfl

theorem digitsOf_ne_nil (n : Nat) : digitsOf n ≠ [] := Nat.toDigits_ne_nil

theorem isDigit_of_mem_digitsOf (h : c ∈ digitsOf n) : isDigit c :=
  Nat.isDigit_of_mem_toDigits (by decide) (by decide) h

theorem length_digitsOf_le_iff (hwidth : 0 < width) :
    (digitsOf n).length ≤ width ↔ n < 10 ^ width :=
  Nat.length_toDigits_le_iff (by decide) hwidth

@[simp] theorem natOfDigits_zeros (k : Nat) : natOfDigits (List.replicate k '0') = 0 := by
  induction k with
  | zero => rfl
  | succ k ih =>
    rw [List.replicate_succ', natOfDigits_append, ih]
    rfl

@[simp] theorem natOfDigits_padded (width n : Nat) : natOfDigits (padded width n) = n := by
  rw [padded, natOfDigits_append, natOfDigits_zeros, natOfDigits_digitsOf]
  omega

theorem isDigit_of_mem_padded (h : c ∈ padded width n) : isDigit c := by
  rw [padded, List.mem_append, List.mem_replicate] at h
  rcases h with ⟨-, rfl⟩ | h
  · rfl
  · exact isDigit_of_mem_digitsOf h

theorem padded_ne_nil (width n : Nat) : padded width n ≠ [] := by
  simp [padded, digitsOf_ne_nil]

theorem le_length_padded (width n : Nat) : width ≤ (padded width n).length := by
  simp only [padded, List.length_append, List.length_replicate]
  omega

/-- A number that fits a width has just as many digits as the width. -/
theorem length_padded (hwidth : 0 < width) (h : n < 10 ^ width) :
    (padded width n).length = width := by
  have hle := (length_digitsOf_le_iff hwidth).2 h
  simp only [padded, List.length_append, List.length_replicate]
  omega

/-! ## Digits at the front of a text -/

/-- No digit stands at the front. -/
def EndsDigits (rest : List Char) : Prop := ∀ c ∈ rest.head?, isDigit c = false

theorem takeWhile_digits (hds : ∀ c ∈ ds, isDigit c) (hrest : EndsDigits rest) :
    (ds ++ rest).takeWhile isDigit = ds := by
  rw [List.takeWhile_append_of_pos hds]
  cases rest with
  | nil => simp
  | cons c rest => simp [hrest c rfl]

theorem spanDigits_append (hds : ∀ c ∈ ds, isDigit c) (hrest : EndsDigits rest) :
    spanDigits (ds ++ rest) = (ds, rest) := by
  have hfirst : (spanDigits (ds ++ rest)).1 = ds := takeWhile_digits hds hrest
  have hboth := spanDigits_fst_append_snd (ds ++ rest)
  rw [hfirst] at hboth
  exact Prod.ext hfirst (List.append_cancel_left hboth)

/-- Digits have no sign in front. -/
theorem spanSign_append (hds : ∀ c ∈ ds, isDigit c) (hne : ds ≠ []) :
    spanSign (ds ++ rest) = (false, ds ++ rest) := by
  obtain ⟨d, ds, rfl⟩ := List.exists_cons_of_ne_nil hne
  have hd : isDigit d := hds d List.mem_cons_self
  unfold spanSign
  split
  · next heq => cases heq; cases hd
  · next heq => cases heq; cases hd
  · rfl

/-- A minus sign is taken off digits, and nothing where there is none. -/
theorem spanSign_minus (negative : Bool) (hds : ∀ c ∈ ds, isDigit c) (hne : ds ≠ []) :
    spanSign ((if negative then ['-'] else []) ++ (ds ++ rest)) = (negative, ds ++ rest) := by
  cases negative with
  | true => rfl
  | false =>
    show spanSign (ds ++ rest) = (false, ds ++ rest)
    exact spanSign_append hds hne

/-! ## Bounds -/

theorem isDigit_iff : isDigit c ↔ 48 ≤ c.toNat ∧ c.toNat ≤ 57 := by
  simp only [isDigit, Bool.and_eq_true, decide_eq_true_eq]
  exact Iff.rfl

theorem digitValue_le (hc : isDigit c) : digitValue c ≤ 9 := by
  have hle := (isDigit_iff.1 hc).2
  unfold digitValue
  omega

theorem natOfDigits_cons (c : Char) (ds : List Char) :
    natOfDigits (c :: ds) = digitValue c * 10 ^ ds.length + natOfDigits ds := by
  simpa using (number_after_cons 0 c ds).symm

/-- Digits write a number below the power of ten of their length. -/
theorem natOfDigits_lt (hds : ∀ c ∈ ds, isDigit c) : natOfDigits ds < 10 ^ ds.length := by
  induction ds with
  | nil => decide
  | cons c ds ih =>
    obtain ⟨hc, hds⟩ := List.forall_mem_cons.1 hds
    have hlt := ih hds
    have hmul := Nat.mul_le_mul_right (10 ^ ds.length) (digitValue_le hc)
    rw [natOfDigits_cons, List.length_cons, Nat.pow_succ]
    omega

/-! ## Blanks -/

theorem isBlank_of_isDigit (h : isDigit c) : isBlank c = false := by
  rw [isDigit_iff] at h
  simp only [isBlank, blanks, List.any_cons, List.any_nil]
  grind

/-- No blank stands anywhere in a text. -/
def NoBlanks (cs : List Char) : Prop := ∀ c ∈ cs, isBlank c = false

instance (cs : List Char) : Decidable (NoBlanks cs) :=
  decidable_of_iff (cs.all fun c => !isBlank c) (by simp [NoBlanks])

@[simp] theorem noBlanks_nil : NoBlanks [] := by simp [NoBlanks]

@[simp] theorem noBlanks_cons : NoBlanks (c :: cs) ↔ isBlank c = false ∧ NoBlanks cs := by
  simp [NoBlanks]

@[simp] theorem noBlanks_append : NoBlanks (ds ++ cs) ↔ NoBlanks ds ∧ NoBlanks cs := by
  simp [NoBlanks, or_imp, forall_and]

theorem noBlanks_of_digits (h : ∀ c ∈ ds, isDigit c) : NoBlanks ds :=
  fun c hc => isBlank_of_isDigit (h c hc)

@[simp] theorem noBlanks_digitsOf (n : Nat) : NoBlanks (digitsOf n) :=
  noBlanks_of_digits fun _ => isDigit_of_mem_digitsOf

@[simp] theorem noBlanks_padded (width n : Nat) : NoBlanks (padded width n) :=
  noBlanks_of_digits fun _ => isDigit_of_mem_padded

theorem noBlanks_minus (p : Prop) [Decidable p] : NoBlanks (if p then ['-'] else []) := by
  split <;> decide

theorem trimStart_append (hne : ds ≠ []) (h : NoBlanks ds) (rest : List Char) :
    trimStart (ds ++ rest) = ds ++ rest := by
  obtain ⟨d, ds, rfl⟩ := List.exists_cons_of_ne_nil hne
  simp [trimStart, (noBlanks_cons.1 h).1]

theorem trimStart_eq_self (h : NoBlanks cs) : trimStart cs = cs := by
  by_cases hnil : cs = []
  · rw [hnil]; rfl
  · simpa using trimStart_append hnil h []

/-- A text without blanks is left alone. -/
theorem trim_eq_self (h : NoBlanks cs) : trim cs = cs := by
  have hend : trimStart cs.reverse = cs.reverse :=
    trimStart_eq_self fun c hc => h c (List.mem_reverse.1 hc)
  rw [trim, trimStart_eq_self h, trimEnd, ← trimStart, hend, List.reverse_reverse]

end Recast.Text
