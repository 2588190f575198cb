/-
Spans of time are read back from their texts.

The text of a span has its whole seconds and, without the zeros at the end, the
digits of its nanoseconds; read as a decimal of seconds and multiplied by the
nanoseconds of a second it is the number of nanoseconds, exactly
(`total?_seconds`). A span is read back when that number is below `2 ^ 63`, a
bound the reader has and spans do not (`read?_text`).
-/
import Recast.Proofs.Number.Decimal
import Recast.Time.Span.Reading

namespace Recast.Span

open Text

variable {n nano : Nat} {cs number rest : List Char} {c letter : Char}

/-! ## Fractions -/

theorem padded_eq_fractionDigits (nano : Nat) : ∃ zeros,
    padded 9 nano = fractionDigits nano ++ List.replicate zeros '0' := by
  have hzeros := List.eq_replicate_iff.2 ⟨rfl, fun c hc => of_decide_eq_true
    (List.all_eq_true.1 (List.all_takeWhile (p := (· = '0')) (l := (padded 9 nano).reverse)) c hc)⟩
  refine ⟨((padded 9 nano).reverse.takeWhile (· = '0')).length, ?_⟩
  have hsplit := congrArg List.reverse
    (List.takeWhile_append_dropWhile (p := (· = '0')) (l := (padded 9 nano).reverse))
  rw [List.reverse_reverse, List.reverse_append, ← fractionDigits, hzeros,
    List.reverse_replicate] at hsplit
  exact hsplit.symm

theorem fractionDigits_spec (hnano : nano < 1000000000) : (fractionDigits nano).length ≤ 9 ∧
    natOfDigits (fractionDigits nano) * 10 ^ (9 - (fractionDigits nano).length) = nano := by
  obtain ⟨zeros, hzeros⟩ := padded_eq_fractionDigits nano
  have hlength := congrArg List.length hzeros
  have hvalue := congrArg natOfDigits hzeros
  rw [length_padded (by decide) (by omega), List.length_append, List.length_replicate] at hlength
  rw [natOfDigits_padded, natOfDigits_append, natOfDigits_zeros, List.length_replicate] at hvalue
  have hplaces : 9 - (fractionDigits nano).length = zeros := by omega
  rw [hplaces]
  omega

theorem isDigit_of_mem_fractionDigits (h : c ∈ fractionDigits nano) : isDigit c := by
  obtain ⟨zeros, hzeros⟩ := padded_eq_fractionDigits nano
  exact isDigit_of_mem_padded (hzeros ▸ List.mem_append_left _ h)

theorem fractionDigits_eq_nil_iff (hnano : nano < 1000000000) :
    fractionDigits nano = [] ↔ nano = 0 := by
  constructor
  · intro hnil
    have hvalue := (fractionDigits_spec hnano).2
    rw [hnil] at hvalue
    exact hvalue.symm
  · rintro rfl
    decide

/-! ## Amounts -/

theorem components?_amount (hcs : ∀ c ∈ cs, isDigit c ∨ c = '.')
    (hletter : (isDigit letter || letter = '.' || letter = ',' || letter = '-') = false) :
    components? number (cs ++ letter :: rest) =
      match Decimal.read (number.reverse ++ cs) with
      | .ok amount => (components? [] rest).map ((amount, letter.toUpper) :: ·)
      | .error _ => none := by
  induction cs generalizing number with
  | nil =>
    rw [List.nil_append, List.append_nil]
    exact if_neg (by rw [hletter]; decide)
  | cons c cs ih =>
    obtain ⟨hc, hcs⟩ := List.forall_mem_cons.1 hcs
    have hnumber : (isDigit c || c = '.' || c = ',' || c = '-') = true := by
      rcases hc with hc | rfl
      · simp [hc]
      · rfl
    have hcomma : c ≠ ',' := by
      rcases hc with hc | rfl
      · rintro rfl
        cases hc
      · decide
    rw [List.cons_append, components?, if_pos hnumber, if_neg hcomma, ih hcs, List.reverse_cons,
      List.append_assoc]
    rfl

/-- The seconds of a number of nanoseconds, with a fraction. -/
def secondsText (n : Nat) : List Char :=
  digitsOf (n / 1000000000) ++
    if n % 1000000000 = 0 then [] else '.' :: fractionDigits (n % 1000000000)

theorem isDigit_or_point_of_mem_secondsText (h : c ∈ secondsText n) : isDigit c ∨ c = '.' := by
  rcases List.mem_append.1 h with h | h
  · exact .inl (isDigit_of_mem_digitsOf h)
  · split at h
    · cases h
    · rcases List.mem_cons.1 h with h | h
      · exact .inr h
      · exact .inl (isDigit_of_mem_fractionDigits h)

theorem read_secondsText (hn : n < 2 ^ 96) : ∃ amount, Decimal.read (secondsText n) = .ok amount ∧
    amount.negative = false ∧ amount.coefficient * 1000000000 = n * 10 ^ amount.scale := by
  have hnano : n % 1000000000 < 1000000000 := Nat.mod_lt _ (by decide)
  have hnil := fractionDigits_eq_nil_iff hnano
  obtain ⟨hlength, hvalue⟩ := fractionDigits_spec hnano
  have hfs : ∀ c ∈ fractionDigits (n % 1000000000), isDigit c :=
    fun _ => isDigit_of_mem_fractionDigits
  simp only [secondsText, ← hnil]
  generalize fractionDigits (n % 1000000000) = fs at hlength hvalue hfs
  have hpow : 10 ^ fs.length * 10 ^ (9 - fs.length) = 1000000000 := by
    rw [← Nat.pow_add, Nat.add_sub_cancel' hlength]
  have hall : natOfDigits (digitsOf (n / 1000000000) ++ fs) * 10 ^ (9 - fs.length) = n := by
    rw [natOfDigits_append, natOfDigits_digitsOf, Nat.add_mul, Nat.mul_assoc, hpow, hvalue]
    omega
  have hle := Nat.le_mul_of_pos_right (natOfDigits (digitsOf (n / 1000000000) ++ fs))
    (Nat.pow_pos (n := 9 - fs.length) (by decide : 0 < 10))
  refine ⟨_, Decimal.read_plain (fun _ => isDigit_of_mem_digitsOf) (digitsOf_ne_nil _) hfs
    (by omega) (by omega), rfl, ?_⟩
  show natOfDigits (digitsOf (n / 1000000000) ++ fs) * 1000000000 = n * 10 ^ fs.length
  generalize natOfDigits (digitsOf (n / 1000000000) ++ fs) = coefficient at hall
  calc coefficient * 1000000000 = coefficient * (10 ^ (9 - fs.length) * 10 ^ fs.length) := by
        rw [Nat.mul_comm (10 ^ _), hpow]
    _ = n * 10 ^ fs.length := by rw [← Nat.mul_assoc, hall]

/-- The part of a span after `T` is the nanoseconds. -/
theorem total?_seconds (hpos : 0 < n) (hn : n < 2 ^ 96) : ∃ total,
    total? timeUnit? .zero (secondsText n ++ ['S']) = some total ∧ total.trunc = n := by
  obtain ⟨amount, hread, hnegative, hproduct⟩ := read_secondsText hn
  have hparts : components? [] (secondsText n ++ ['S']) = some [(amount, 'S')] := by
    rw [components?_amount (fun _ => isDigit_or_point_of_mem_secondsText) rfl, List.reverse_nil,
      List.nil_append, hread]
    rfl
  have hunit : Decimal.ofInt? 1000000000 = some ⟨false, 1000000000, 0, by decide, by decide⟩ := rfl
  have hne : amount.coefficient ≠ 0 := by
    intro hzero
    have := Nat.mul_pos hpos (Nat.pow_pos (n := amount.scale) (by decide : 0 < 10))
    omega
  obtain ⟨total, hmul, htotal, hcoefficient⟩ := Decimal.mul?_mul_pow
    (b := ⟨false, 1000000000, 0, by decide, by decide⟩) hne (by decide) hn hproduct
  rw [hnegative] at htotal
  refine ⟨total, ?_, Decimal.trunc_eq htotal hcoefficient⟩
  simp [total?, hparts, timeUnit?, hunit, hmul, Decimal.zero_add? htotal]

theorem read?_of_spanSign {negative : Bool} (hpos : 0 < n) (hn : n < 2 ^ 96)
    (hsign : spanSign cs = (negative, 'P' :: 'T' :: (secondsText n ++ ['S']))) :
    read? cs = if n < 2 ^ 63 then of? (if negative then -(n : Int) else n) else none := by
  obtain ⟨total, htotal, htrunc⟩ := total?_seconds hpos hn
  have hdays : total? dateUnit? .zero [] = some .zero := rfl
  obtain ⟨c, rest, hrest⟩ := List.exists_cons_of_ne_nil (l := secondsText n ++ ['S']) (by simp)
  rw [hrest] at htotal hsign
  have hbound : (n : Int) < 9223372036854775808 ↔ n < 9223372036854775808 := by omega
  simp [read?, hsign, hdays, htotal, htrunc, hbound]

theorem text_eq (s : Span) (hne : s.nanos.natAbs ≠ 0) : s.text =
    (if s.nanos < 0 then ['-'] else []) ++ 'P' :: 'T' :: (secondsText s.nanos.natAbs ++ ['S']) := by
  simp [text, hne, secondsText]

theorem noBlanks_text (s : Span) : NoBlanks s.text := by
  by_cases hzero : s.nanos.natAbs = 0
  · rw [text, if_pos hzero]
    decide
  · have hseconds : NoBlanks (secondsText s.nanos.natAbs) := by
      intro c hc
      rcases isDigit_or_point_of_mem_secondsText hc with hc | rfl
      · exact isBlank_of_isDigit hc
      · rfl
    have hsign := noBlanks_minus (s.nanos < 0)
    rw [text_eq s hzero]
    simp only [noBlanks_append, noBlanks_cons, hsign, hseconds]
    decide

/-- A span is read back from its text if its nanoseconds are below `2 ^ 63`. Else the text is none
of a span. -/
theorem read?_text (s : Span) :
    read? s.text = if s.nanos.natAbs < 2 ^ 63 then some s else none := by
  by_cases hzero : s.nanos.natAbs = 0
  · obtain ⟨nanos, lower, upper⟩ := s
    obtain rfl : nanos = 0 := Int.natAbs_eq_zero.1 hzero
    rfl
  have hn : s.nanos.natAbs < 2 ^ 96 := by
    have := s.lower
    have := s.upper
    omega
  have hsign : spanSign s.text =
      (decide (s.nanos < 0), 'P' :: 'T' :: (secondsText s.nanos.natAbs ++ ['S'])) := by
    rw [text_eq s hzero]
    by_cases hneg : s.nanos < 0 <;> simp [hneg, spanSign]
  have hsigned : (if decide (s.nanos < 0) then -(s.nanos.natAbs : Int) else s.nanos.natAbs) =
      s.nanos := by
    simp only [decide_eq_true_eq]
    split <;> omega
  rw [read?_of_spanSign (by omega) hn hsign, hsigned, of?_nanos]

end Recast.Span
