/-
Numerals: plain decimal notation, the rational number it stands for, and what
is read of it for an integral target.

A numeral is an integer when the digits after its point are all zero
(`isInteger_iff`). It is first read as an integer of 128 bits, and its digits
before the point alone decide whether it is too large for that
(`readInteger_text`). With a point it is then read as a decimal, the nearest
there is (`toOption_readAny_text`): that one is whole and the same integer when
the numeral is an integer below `2 ^ 96` (`exists_kept?_of_isInteger`), but a
numeral with many digits after the point may become whole only by rounding.
-/
import Recast.Proofs.Number.Cutting
import Recast.Proofs.Scalar.Number

namespace Recast

open Text

/-- A number in plain notation: an optional sign, digits, and more digits after a point unless there
are none. -/
structure PlainNumeral where
  sign : List Char
  whole : List Char
  fraction : List Char
  sign_mem : sign ∈ [[], ['+'], ['-']]
  whole_ne : whole ≠ []
  whole_digits : ∀ c ∈ whole, isDigit c
  fraction_digits : ∀ c ∈ fraction, isDigit c

namespace PlainNumeral

variable (x : PlainNumeral)

/-- The point and the digits after it. -/
def tail : List Char := if x.fraction = [] then [] else '.' :: x.fraction

def text : List Char := x.sign ++ (x.whole ++ x.tail)

def negative : Bool := x.sign = ['-']

/-- The number that all digits form, in units of the last place. -/
def units : Nat := natOfDigits (x.whole ++ x.fraction)

/-- The rational number that the numeral stands for. -/
def value : Rat := mkRat (withSign x.negative x.units) (10 ^ x.fraction.length)

/-- The number stands for an integer. -/
def IsInteger : Prop := ∃ n : Int, (n : Rat) = x.value

/-- The integer before the point. -/
def integer : Int := withSign x.negative (natOfDigits x.whole)

/-- The decimal that is kept of the numeral. -/
def kept? : Option Decimal := Decimal.nearest? x.negative x.units x.fraction.length

/-! ## Values -/

theorem units_eq :
    x.units = natOfDigits x.whole * 10 ^ x.fraction.length + natOfDigits x.fraction :=
  natOfDigits_append ..

theorem intCast_eq_mkRat_iff {n m : Int} {d : Nat} (hd : d ≠ 0) :
    (n : Rat) = mkRat m d ↔ n * d = m := by
  rw [show (n : Rat) = mkRat n 1 by simp [Rat.mkRat_one], Rat.mkRat_eq_iff Nat.one_ne_zero hd]
  simp

theorem mul_eq_iff {n : Int} {whole rest unit : Nat} (hrest : rest < unit) :
    n * unit = (whole * unit + rest : Nat) ↔ n = whole ∧ rest = 0 := by
  have hpos : 0 < unit := Nat.zero_lt_of_lt hrest
  constructor
  · intro h
    have hquotient : n = whole := by
      rw [← Int.mul_ediv_cancel n (Int.natCast_ne_zero.2 hpos.ne'), h]
      norm_cast
      rw [Nat.add_comm, Nat.add_mul_div_right _ _ hpos, Nat.div_eq_of_lt hrest, Nat.zero_add]
    rw [hquotient] at h
    norm_cast at h
    exact ⟨hquotient, by omega⟩
  · rintro ⟨rfl, rfl⟩
    simp

theorem mul_eq_withSign_iff {n : Int} {whole rest unit : Nat} (hrest : rest < unit)
    (negative : Bool) :
    n * unit = withSign negative (whole * unit + rest) ↔
      n = withSign negative whole ∧ rest = 0 := by
  cases negative with
  | false => exact mul_eq_iff hrest
  | true =>
    have hiff : -n * unit = (whole * unit + rest : Nat) ↔ -n = whole ∧ rest = 0 := mul_eq_iff hrest
    rw [Int.neg_mul] at hiff
    simp only [withSign, if_true]
    omega

theorem intCast_eq_value_iff {n : Int} :
    (n : Rat) = x.value ↔ n = x.integer ∧ natOfDigits x.fraction = 0 := by
  have hrest := natOfDigits_lt x.fraction_digits
  rw [value, intCast_eq_mkRat_iff (Nat.pow_pos (by decide)).ne', units_eq,
    mul_eq_withSign_iff hrest]
  rfl

/-- An integer has no digits but zeros after the point. -/
theorem isInteger_iff : x.IsInteger ↔ natOfDigits x.fraction = 0 := by
  constructor
  · rintro ⟨n, hn⟩
    exact (x.intCast_eq_value_iff.1 hn).2
  · exact fun h => ⟨x.integer, x.intCast_eq_value_iff.2 ⟨rfl, h⟩⟩

variable {x} in
theorem IsInteger.intCast_integer (h : x.IsInteger) : (x.integer : Rat) = x.value :=
  x.intCast_eq_value_iff.2 ⟨rfl, x.isInteger_iff.1 h⟩

/-! ## Reading -/

theorem spanSign_text : spanSign x.text = (x.negative, x.whole ++ x.tail) := by
  have hsign := x.sign_mem
  simp only [List.mem_cons, List.not_mem_nil, or_false] at hsign
  rcases hsign with h | h | h
  · simp only [text, negative, h, List.nil_append]
    exact spanSign_append x.whole_digits x.whole_ne
  · simp only [text, negative, h]
    rfl
  · simp only [text, negative, h]
    rfl

theorem text_ne_nil : x.text ≠ [] := by
  simp [text, x.whole_ne]

theorem tail_eq_nil_iff : x.tail = [] ↔ x.fraction = [] := by
  simp [tail]

theorem endsDigits_tail : EndsDigits x.tail := by
  unfold tail
  split
  · simp [EndsDigits]
  · simp [EndsDigits, isDigit]

/-- The digits before the point are read as an integer of 128 bits. If there are too many, nothing
after them counts. -/
theorem readInteger_text : readInteger x.text =
    if Width.bigInteger.Holds x.integer then
      if x.fraction = [] then .read x.integer else .malformed
    else .tooLarge := by
  rw [readInteger_append x.spanSign_text x.whole_digits x.whole_ne x.endsDigits_tail]
  by_cases h : x.fraction = []
  · simp only [x.tail_eq_nil_iff.2 h, h, if_true, integer]
  · simp only [mt x.tail_eq_nil_iff.1 h, h, if_false, integer]

theorem no_mark_text : ∀ c ∈ x.text, c ≠ 'e' ∧ c ≠ 'E' := by
  have hdigit {c : Char} (hc : isDigit c) : c ≠ 'e' ∧ c ≠ 'E' := by
    constructor <;> rintro rfl <;> cases hc
  have hsign : ∀ c ∈ x.sign, c ≠ 'e' ∧ c ≠ 'E' := by
    have h := x.sign_mem
    simp only [List.mem_cons, List.not_mem_nil, or_false] at h
    rcases h with h | h | h <;> simp [h]
  have htail : ∀ c ∈ x.tail, c ≠ 'e' ∧ c ≠ 'E' := by
    unfold tail
    split
    · simp
    · exact List.forall_mem_cons.2 ⟨by decide, fun c hc => hdigit (x.fraction_digits c hc)⟩
  intro c hc
  simp only [text, List.mem_append] at hc
  rcases hc with hc | hc | hc
  · exact hsign c hc
  · exact hdigit (x.whole_digits c hc)
  · exact htail c hc

/-- What is read as a decimal is the nearest one. -/
theorem toOption_readAny_text : (Decimal.readAny x.text).toOption = x.kept? := by
  have hread : (Decimal.read x.text).toOption = x.kept? := by
    rw [Decimal.read, if_neg x.text_ne_nil, spanSign_text]
    exact Decimal.toOption_readFrom_plain x.whole_digits x.whole_ne x.fraction_digits
  rw [← hread, Decimal.readAny]
  cases hcases : Decimal.read x.text with
  | ok d => rfl
  | error e =>
    simp only [Decimal.readScientific_of_no_mark x.no_mark_text]
    rfl

theorem numeric_read {s : String} (hs : trim s.toList = x.text) (w : Width) :
    Numeric.read s (.integral w) =
      if Width.bigInteger.Holds x.integer then
        if x.fraction = [] then .ok (.integer x.integer)
        else match x.kept? with
          | some d => if d.isWhole then .ok (.decimal d)
            else .error (.invalidFormat (.integral w) s .notAnInteger)
          | none => .error (.invalidFormat (.integral w) s .notAnInteger)
      else .error (.outOfRange (.text (String.ofList x.text)) (.integral w)) := by
  rw [← toOption_readAny_text]
  simp only [Numeric.read, hs, x.text_ne_nil, if_false, readInteger_text]
  by_cases hholds : Width.bigInteger.Holds x.integer
  · by_cases hfraction : x.fraction = []
    · simp only [hholds, hfraction, if_true]
    · simp only [hholds, hfraction, if_true, if_false]
      cases Decimal.readAny x.text <;> rfl
  · simp only [hholds, if_false]

/-! ## What is kept -/

/-- An integer below `2 ^ 96` keeps its value. -/
theorem exists_kept?_of_isInteger (hinteger : x.IsInteger) (hlt : natOfDigits x.whole < 2 ^ 96) :
    ∃ d, x.kept? = some d ∧ d.isWhole ∧ d.trunc = x.integer := by
  have hunits : x.units = natOfDigits x.whole * 10 ^ x.fraction.length := by
    rw [units_eq, x.isInteger_iff.1 hinteger, Nat.add_zero]
  obtain ⟨d, hd, hnegative, hcoefficient⟩ :=
    Decimal.nearest?_mul_pow x.negative x.fraction.length hlt
  refine ⟨d, by rw [kept?, hunits, hd], by simp [Decimal.isWhole, hcoefficient], ?_⟩
  rw [Decimal.trunc_of_mul_pow hcoefficient, hnegative, integer, withSign]
  by_cases hzero : natOfDigits x.whole = 0
  · simp [hzero]
  · simp [hzero]

theorem kept?_eq_none (hle : 2 ^ 96 ≤ natOfDigits x.whole) : x.kept? = none := by
  refine Decimal.nearest?_eq_none_of_le _ ?_
  have hmul := Nat.mul_le_mul_right (10 ^ x.fraction.length) hle
  rw [units_eq]
  omega

theorem exists_kept?_of_lt (hunits : x.units < 2 ^ 96) (hfraction : x.fraction.length ≤ 28) :
    ∃ d, x.kept? = some d ∧ (d.isWhole ↔ x.IsInteger) := by
  refine ⟨_, Decimal.nearest?_of_lt x.negative hunits hfraction, ?_⟩
  have hmod : x.units % 10 ^ x.fraction.length = natOfDigits x.fraction := by
    rw [units_eq, Nat.mul_add_mod_self_right, Nat.mod_eq_of_lt (natOfDigits_lt x.fraction_digits)]
  rw [isInteger_iff, Decimal.isWhole, hmod, decide_eq_true_eq]

/-- What is read of the numeral says whether it is an integer, and which. -/
structure ReadExactly : Prop where
  /-- An integer has no point, or is kept, or its digits before the point are too large for any
  target. -/
  integer : x.IsInteger → x.fraction = [] ∨ natOfDigits x.whole < 2 ^ 96 ∨
    ¬Width.bigInteger.Holds x.integer
  /-- A fraction is small enough to be read as a decimal, and stays a fraction if it is kept. -/
  fraction : ¬x.IsInteger → Width.bigInteger.Holds x.integer ∧ ∀ d ∈ x.kept?, d.isWhole = false

theorem isInteger_of_fraction_eq_nil (h : x.fraction = []) : x.IsInteger := by
  rw [isInteger_iff, h]
  rfl

theorem holds_integer_of_lt (hlt : natOfDigits x.whole < 2 ^ 96) :
    Width.bigInteger.Holds x.integer := by
  simp only [integer, withSign, Width.Holds, Width.min, Width.max, Width.bits]
  split <;> omega

/-- A numeral without a point is read exactly, and so is one that a decimal can hold. -/
theorem readExactly_of_fits
    (h : x.fraction = [] ∨ x.units < 2 ^ 96 ∧ x.fraction.length ≤ 28) : x.ReadExactly := by
  rcases h with hnil | ⟨hunits, hfraction⟩
  · exact ⟨fun _ => .inl hnil, fun hne => absurd (x.isInteger_of_fraction_eq_nil hnil) hne⟩
  · have hlt : natOfDigits x.whole < 2 ^ 96 := by
      have hle := Nat.le_mul_of_pos_right (natOfDigits x.whole)
        (Nat.pow_pos (n := x.fraction.length) (by decide : 0 < 10))
      rw [units_eq] at hunits
      omega
    refine ⟨fun _ => .inr (.inl hlt), fun hne => ⟨x.holds_integer_of_lt hlt, fun d hd => ?_⟩⟩
    obtain ⟨e, he, hiff⟩ := x.exists_kept?_of_lt hunits hfraction
    cases hd.symm.trans he
    rwa [← hiff, Bool.not_eq_true] at hne

variable {x}

/-- Where the digits before the point are too large for any target, an integer is read exactly. -/
theorem readExactly_iff_of_beyond (h : ¬Width.bigInteger.Holds x.integer) :
    x.ReadExactly ↔ x.IsInteger := by
  constructor
  · intro hexact
    by_contra hne
    exact h (hexact.fraction hne).1
  · exact fun hinteger => ⟨fun _ => .inr (.inr h), absurd hinteger⟩

theorem readExactly_iff_of_whole {d : Decimal} (hd : x.kept? = some d) (hwhole : d.isWhole) :
    (x.ReadExactly ↔ x.IsInteger) ∧ (x.IsInteger → d.trunc = x.integer) := by
  have hlt : natOfDigits x.whole < 2 ^ 96 := by
    by_contra hle
    rw [x.kept?_eq_none (Nat.not_lt.1 hle)] at hd
    cases hd
  refine ⟨⟨fun hexact => ?_, fun hinteger => ⟨fun _ => .inr (.inl hlt), absurd hinteger⟩⟩,
    fun hinteger => ?_⟩
  · by_contra hne
    have hfraction := (hexact.fraction hne).2 d hd
    rw [hwhole] at hfraction
    cases hfraction
  · obtain ⟨e, he, -, htrunc⟩ := x.exists_kept?_of_isInteger hinteger hlt
    cases hd.symm.trans he
    exact htrunc

theorem readExactly_iff_of_not_whole (hholds : Width.bigInteger.Holds x.integer)
    (hpoint : x.fraction ≠ []) (hnot : ∀ d ∈ x.kept?, d.isWhole = false) :
    x.ReadExactly ↔ ¬x.IsInteger := by
  constructor
  · intro hexact hinteger
    rcases hexact.integer hinteger with hnil | hlt | hbeyond
    · exact hpoint hnil
    · obtain ⟨d, hd, hwhole, -⟩ := x.exists_kept?_of_isInteger hinteger hlt
      rw [hnot d hd] at hwhole
      cases hwhole
    · exact hbeyond hholds
  · exact fun hne => ⟨fun hinteger => absurd hinteger hne, fun _ => ⟨hholds, hnot⟩⟩

end PlainNumeral

end Recast
