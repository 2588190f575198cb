/-
Decimals cut off where the next digit does not fit.

Digits after the point are taken in as long as there are at most 28 of them and
all digits together form a number below `2 ^ 96`; the first that does not fit
rounds those before it. What is kept is the decimal that drops as few digits as
possible (`nearest?`), so a number in plain notation is read as that one, and
not at all when its digits before the point are too many
(`toOption_readFrom_plain`). A number without a fraction keeps its value
(`nearest?_mul_pow`), and so does one that fits as it is (`nearest?_of_lt`).
-/
import Mathlib.Data.List.TakeWhile
import Recast.Proofs.Number.Decimal

namespace Recast

open Text

/-! ## Rounding by the next digit -/

theorem div_le_roundDiv (tie : Tie) (num den : Nat) : num / den ≤ roundDiv tie num den := by
  simp only [roundDiv]
  split
  · omega
  split
  · omega
  · cases tie <;> simp only <;> omega

theorem roundDiv_up_digit (n : Nat) {digit rest unit : Nat} (hdigit : digit ≤ 9)
    (hrest : rest < unit) :
    roundDiv .up (n * (10 * unit) + (digit * unit + rest)) (10 * unit) =
      if 5 ≤ digit then n + 1 else n := by
  have hnext := Nat.mul_le_mul_right unit hdigit
  have hlt : digit * unit + rest < 10 * unit := by omega
  have hpos : 0 < 10 * unit := by omega
  have hfloor : (n * (10 * unit) + (digit * unit + rest)) / (10 * unit) = n := by
    rw [Nat.add_comm, Nat.add_mul_div_right _ _ hpos, Nat.div_eq_of_lt hlt, Nat.zero_add]
  have hmod : (n * (10 * unit) + (digit * unit + rest)) % (10 * unit) = digit * unit + rest := by
    rw [Nat.add_comm, Nat.add_mul_mod_self_right, Nat.mod_eq_of_lt hlt]
  simp only [roundDiv, hfloor, hmod]
  by_cases hup : 5 ≤ digit
  · have hmul := Nat.mul_le_mul_right unit hup
    rw [if_neg (by omega), if_pos hup]
    split <;> rfl
  · have hmul := Nat.mul_le_mul_right unit (by omega : digit ≤ 4)
    rw [if_pos (by omega), if_neg hup]

namespace Decimal

variable {p : Partial} {ws fs ds rest : List Char} {c : Char} {negative : Bool}
variable {n coefficient scale dropped : Nat}

/-! ## Dropping digits -/

/-- The decimal that is left of `± coefficient · 10 ^ -scale` without so many digits at its end,
half a unit going away from zero. -/
def afterDropping (negative : Bool) (coefficient scale dropped : Nat) : Option Decimal :=
  (ofRead negative (roundDiv .up coefficient (10 ^ dropped)) (scale - dropped)).toOption

/-- The decimal nearest to `± coefficient · 10 ^ -scale`: as few digits as possible are dropped
after the point, and none before it. -/
def nearest? (negative : Bool) (coefficient scale : Nat) : Option Decimal :=
  (List.range (scale + 1)).findSome? (afterDropping negative coefficient scale)

theorem ofRead_eq_ok (negative : Bool) (hlt : n < 2 ^ 96) (hscale : scale ≤ 28) :
    ofRead negative n scale = .ok ⟨negative && n ≠ 0, n, scale, hlt, hscale⟩ := by
  rw [ofRead, ofParts?, dif_pos ⟨hlt, hscale⟩]

theorem toOption_ofRead (negative : Bool) (n scale : Nat) :
    (ofRead negative n scale).toOption = ofParts? (negative && n ≠ 0) n scale := by
  unfold ofRead
  split
  · next h => rw [h]; rfl
  · next h => rw [h]; rfl

theorem toOption_ofRead_eq_none (negative : Bool) (h : 2 ^ 96 ≤ n ∨ 28 < scale) :
    (ofRead negative n scale).toOption = none := by
  rw [toOption_ofRead, ofParts?, dif_neg (by omega)]

theorem nearest?_eq (hle : dropped ≤ scale)
    (hsome : (afterDropping negative coefficient scale dropped).isSome)
    (hnone : ∀ m < dropped, afterDropping negative coefficient scale m = none) :
    nearest? negative coefficient scale = afterDropping negative coefficient scale dropped := by
  obtain ⟨d, hd⟩ := Option.isSome_iff_exists.1 hsome
  obtain ⟨more, rfl⟩ := Nat.exists_eq_add_of_le hle
  have hbefore : (List.range dropped).findSome? (afterDropping negative coefficient
      (dropped + more)) = none :=
    List.findSome?_eq_none_iff.2 fun m hm => hnone m (List.mem_range.1 hm)
  rw [nearest?, Nat.add_assoc, List.range_add, List.findSome?_append, hbefore,
    List.range_succ_eq_map, List.map_cons, List.findSome?_cons, Nat.add_zero, hd]
  rfl

theorem nearest?_eq_none
    (hnone : ∀ m ≤ scale, afterDropping negative coefficient scale m = none) :
    nearest? negative coefficient scale = none :=
  List.findSome?_eq_none_iff.2 fun m hm => hnone m (Nat.le_of_lt_succ (List.mem_range.1 hm))

/-- A number that fits is kept as it is. -/
theorem nearest?_of_lt (negative : Bool) (hlt : n < 2 ^ 96) (hscale : scale ≤ 28) :
    nearest? negative n scale = some ⟨negative && n ≠ 0, n, scale, hlt, hscale⟩ := by
  have hround : roundDiv .up n (10 ^ 0) = n := by
    simpa using roundDiv_mul .up n Nat.one_pos
  have hfirst : afterDropping negative n scale 0 =
      some ⟨negative && n ≠ 0, n, scale, hlt, hscale⟩ := by
    rw [afterDropping, hround, Nat.sub_zero, ofRead_eq_ok negative hlt hscale]
    rfl
  rw [nearest?_eq (Nat.zero_le _) (by rw [hfirst]; rfl) (by simp), hfirst]

/-- A number without a fraction keeps its value. -/
theorem nearest?_mul_pow (negative : Bool) (scale : Nat) (hn : n < 2 ^ 96) :
    ∃ d, nearest? negative (n * 10 ^ scale) scale = some d ∧
      d.negative = (negative && n ≠ 0) ∧ d.coefficient = n * 10 ^ d.scale := by
  have hplace : (ofRead negative n 0).toOption.isSome := by
    rw [ofRead_eq_ok negative hn (Nat.zero_le _)]
    rfl
  obtain ⟨places, d, hd, hparts⟩ :=
    findSome?_mul_pow (fun n scale => (ofRead negative n scale).toOption) .up scale hplace
  rw [toOption_ofRead] at hparts
  obtain ⟨hnegative, hcoefficient, rfl⟩ := ofParts?_eq_some hparts
  have hzero : n * 10 ^ d.scale = 0 ↔ n = 0 := by
    rw [Nat.mul_eq_zero, or_iff_left (Nat.pow_pos (by decide)).ne']
  exact ⟨d, hd, by simpa only [ne_eq, hzero] using hnegative, hcoefficient⟩

theorem afterDropping_eq_none_of_le (negative : Bool) {k : Nat}
    (hle : 2 ^ 96 * 10 ^ k ≤ coefficient) (hdropped : dropped ≤ k) :
    afterDropping negative coefficient scale dropped = none := by
  refine toOption_ofRead_eq_none _ (.inl ?_)
  have hpow : 10 ^ dropped ≤ 10 ^ k := Nat.pow_le_pow_right (by decide) hdropped
  have hstay := Nat.le_trans (Nat.mul_le_mul_left (2 ^ 96) hpow) hle
  have hdiv := (Nat.le_div_iff_mul_le (Nat.pow_pos (by decide : 0 < 10))).2 hstay
  exact Nat.le_trans hdiv (div_le_roundDiv .up _ _)

theorem afterDropping_digit (negative : Bool) (n scale : Nat) {digit rest k : Nat}
    (hdigit : digit ≤ 9) (hrest : rest < 10 ^ k) :
    afterDropping negative (n * 10 ^ (k + 1) + (digit * 10 ^ k + rest)) (scale + (k + 1)) (k + 1) =
      (ofRead negative (if 5 ≤ digit then n + 1 else n) scale).toOption := by
  rw [afterDropping, Nat.pow_succ', roundDiv_up_digit n hdigit hrest, Nat.add_sub_cancel]

theorem nearest?_eq_none_of_le (negative : Bool) (hle : 2 ^ 96 * 10 ^ scale ≤ coefficient) :
    nearest? negative coefficient scale = none :=
  nearest?_eq_none fun _ hm => afterDropping_eq_none_of_le negative hle hm

/-! ## The digit that does not fit -/

theorem checkTail_digits (hds : ∀ c ∈ ds, isDigit c) : checkTail ds = .ok () := by
  induction ds with
  | nil => rfl
  | cons c ds ih =>
    obtain ⟨hc, hds⟩ := List.forall_mem_cons.1 hds
    simp [checkTail, hc, ih hds]

theorem cut_digits (p : Partial) (hc : isDigit c) (hds : ∀ c ∈ ds, isDigit c) :
    cut p c ds =
      if 5 ≤ digitValue c then
        if p.coefficient + 1 < 2 ^ 96 then ofRead p.negative (p.coefficient + 1) p.scale
        else if p.scale = 0 then .error .roundedOut
        else ofRead p.negative ((p.coefficient + 5) / 10) (p.scale - 1)
      else ofRead p.negative p.coefficient p.scale := by
  simp only [cut, hc, checkTail_digits hds]
  by_cases hup : 5 ≤ digitValue c
  · by_cases hfits : p.coefficient + 1 < 2 ^ 96
    · simp [hup, hfits]; rfl
    · by_cases hscale : p.scale = 0 <;> simp [hup, hfits, hscale] <;> rfl
  · simp [hup]; rfl

theorem afterDropping_greatest (negative : Bool) (scale : Nat) (hds : ∀ c ∈ ds, isDigit c) :
    afterDropping negative ((2 ^ 96 - 1) * 10 ^ ds.length + natOfDigits ds)
      (scale + 1 + ds.length) (ds.length + 1) =
        (ofRead negative ((2 ^ 96 - 1 + 5) / 10) scale).toOption := by
  have hnext := afterDropping_digit negative ((2 ^ 96 - 1) / 10) scale (by decide : 5 ≤ 9)
    (natOfDigits_lt hds)
  have hsplit : (2 ^ 96 - 1) / 10 * 10 ^ (ds.length + 1) + (5 * 10 ^ ds.length + natOfDigits ds) =
      (2 ^ 96 - 1) * 10 ^ ds.length + natOfDigits ds := by
    rw [Nat.pow_succ]
    omega
  rw [hsplit, Nat.add_comm ds.length 1, ← Nat.add_assoc, Nat.add_comm 1] at hnext
  exact hnext

/-- With fewer digits dropped from a decimal that is full, the scale or the number is out of
range. -/
theorem afterDropping_eq_none_of_full (negative : Bool)
    (hfull : 28 ≤ scale ∨ 2 ^ 96 ≤ 10 * n + digitValue c) (hdropped : dropped < (c :: ds).length) :
    afterDropping negative (n * 10 ^ (c :: ds).length + natOfDigits (c :: ds))
      (scale + (c :: ds).length) dropped = none := by
  rcases hfull with hlong | hlarge
  · exact toOption_ofRead_eq_none _ (.inr (by omega))
  · refine afterDropping_eq_none_of_le _ (k := ds.length) ?_ (Nat.le_of_lt_succ hdropped)
    have hmul := Nat.mul_le_mul_right (10 ^ ds.length) hlarge
    rw [← number_after_cons]
    omega

/-- The digit that does not fit rounds the coefficient, and what is left is the nearest decimal if
it has the room. -/
theorem toOption_cut_of_fits (hc : isDigit c) (hds : ∀ c ∈ ds, isDigit c)
    (hlt : p.coefficient < 2 ^ 96) (hscale : p.scale ≤ 28)
    (hfull : 28 ≤ p.scale ∨ 2 ^ 96 ≤ 10 * p.coefficient + digitValue c)
    (hfits : 5 ≤ digitValue c → p.coefficient + 1 < 2 ^ 96) :
    (cut p c ds).toOption =
      nearest? p.negative (p.coefficient * 10 ^ (c :: ds).length + natOfDigits (c :: ds))
        (p.scale + (c :: ds).length) := by
  have hhere := afterDropping_digit p.negative p.coefficient p.scale (digitValue_le hc)
    (natOfDigits_lt hds)
  rw [← natOfDigits_cons, ← List.length_cons] at hhere
  have hkept : (if 5 ≤ digitValue c then p.coefficient + 1 else p.coefficient) < 2 ^ 96 := by
    split
    · next hup => exact hfits hup
    · exact hlt
  have hsome := hhere.trans (congrArg Except.toOption (ofRead_eq_ok p.negative hkept hscale))
  rw [nearest?_eq (by omega) (Option.isSome_of_eq_some hsome) fun m hm =>
    afterDropping_eq_none_of_full p.negative hfull hm, hhere, cut_digits p hc hds]
  by_cases hup : 5 ≤ digitValue c
  · simp [hup, hfits hup]
  · simp [hup]

theorem toOption_cut_greatest (hc : isDigit c) (hds : ∀ c ∈ ds, isDigit c)
    (hgreatest : p.coefficient = 2 ^ 96 - 1) (hscale : p.scale ≤ 28) (hup : 5 ≤ digitValue c)
    (hfull : 28 ≤ p.scale ∨ 2 ^ 96 ≤ 10 * p.coefficient + digitValue c) :
    (cut p c ds).toOption =
      nearest? p.negative (p.coefficient * 10 ^ (c :: ds).length + natOfDigits (c :: ds))
        (p.scale + (c :: ds).length) := by
  obtain ⟨negative, point, digit, n, scale⟩ := p
  simp only at hgreatest hscale hfull ⊢
  subst hgreatest
  have hhere := afterDropping_digit negative (2 ^ 96 - 1) scale (digitValue_le hc)
    (natOfDigits_lt hds)
  rw [← natOfDigits_cons, ← List.length_cons, if_pos hup] at hhere
  have hupto : ∀ m ≤ (c :: ds).length, afterDropping negative
      ((2 ^ 96 - 1) * 10 ^ (c :: ds).length + natOfDigits (c :: ds))
      (scale + (c :: ds).length) m = none := by
    intro m hm
    rcases Nat.lt_or_eq_of_le hm with hm | rfl
    · exact afterDropping_eq_none_of_full negative hfull hm
    · exact hhere.trans (toOption_ofRead_eq_none negative (.inl (by decide)))
  rw [cut_digits _ hc hds]
  cases scale with
  | zero =>
    rw [nearest?_eq_none fun m hm => hupto m (by omega)]
    simp only [if_pos hup]
    rfl
  | succ scale =>
    have hnext := afterDropping_greatest negative scale (List.forall_mem_cons.2 ⟨hc, hds⟩)
    have hkept := ofRead_eq_ok negative (by decide : (2 ^ 96 - 1 + 5) / 10 < 2 ^ 96)
      (Nat.le_of_succ_le hscale)
    rw [hkept] at hnext
    rw [nearest?_eq (by omega) (Option.isSome_of_eq_some hnext) fun m hm =>
      hupto m (Nat.le_of_lt_succ hm), hnext]
    simp only [if_pos hup]
    exact congrArg Except.toOption hkept

theorem toOption_cut (hc : isDigit c) (hds : ∀ c ∈ ds, isDigit c) (hlt : p.coefficient < 2 ^ 96)
    (hscale : p.scale ≤ 28)
    (hfull : 28 ≤ p.scale ∨ 2 ^ 96 ≤ 10 * p.coefficient + digitValue c) :
    (cut p c ds).toOption =
      nearest? p.negative (p.coefficient * 10 ^ (c :: ds).length + natOfDigits (c :: ds))
        (p.scale + (c :: ds).length) := by
  by_cases hfits : 5 ≤ digitValue c → p.coefficient + 1 < 2 ^ 96
  · exact toOption_cut_of_fits hc hds hlt hscale hfull hfits
  · obtain ⟨hup, hgreatest⟩ : 5 ≤ digitValue c ∧ p.coefficient = 2 ^ 96 - 1 := by omega
    exact toOption_cut_greatest hc hds hgreatest hscale hup hfull

/-! ## Reading -/

theorem toOption_readFrom_fraction (negative : Bool) (hds : ∀ c ∈ ds, isDigit c)
    (hlt : n < 2 ^ 96) (hscale : scale ≤ 28) :
    (readFrom ⟨negative, true, true, n, scale⟩ ds).toOption =
      nearest? negative (n * 10 ^ ds.length + natOfDigits ds) (scale + ds.length) := by
  induction ds generalizing n scale with
  | nil =>
    show (ofRead negative n scale).toOption = nearest? negative (n * 1 + 0) scale
    rw [Nat.mul_one, Nat.add_zero, nearest?_of_lt negative hlt hscale,
      ofRead_eq_ok negative hlt hscale]
    rfl
  | cons c ds ih =>
    obtain ⟨hc, hds⟩ := List.forall_mem_cons.1 hds
    have hcut (hfull : 28 ≤ scale ∨ 2 ^ 96 ≤ 10 * n + digitValue c) :=
      toOption_cut (p := ⟨negative, true, true, n, scale⟩) hc hds hlt hscale hfull
    by_cases hlong : 28 ≤ scale
    · have hpasses : Partial.passes ⟨negative, true, true, n, scale⟩ c = false := by
        have hne : c ≠ '_' := by
          rintro rfl
          cases hc
        simp [Partial.passes, hne]
      rw [readFrom, if_pos (by simpa using hlong), hpasses]
      exact hcut (.inl hlong)
    · rw [readFrom, if_neg (by simpa using hlong), if_pos hc]
      by_cases hnext : 10 * n + digitValue c < 2 ^ 96
      · rw [if_pos hnext, ← number_after_cons, List.length_cons, ← Nat.add_assoc,
          Nat.add_right_comm]
        exact ih hds hnext (Nat.not_le.1 hlong)
      · rw [if_neg hnext]
        exact hcut (.inr (Nat.not_lt.1 hnext))

theorem readFrom_beyond (hds : ∀ c ∈ ds, isDigit c) (hpoint : p.point = false)
    (hlt : p.coefficient < 2 ^ 96)
    (hle : 2 ^ 96 ≤ p.coefficient * 10 ^ ds.length + natOfDigits ds) (rest : List Char) :
    readFrom p (ds ++ rest) = .error .tooManyDigits := by
  induction ds generalizing p with
  | nil =>
    simp [natOfDigits] at hle
    omega
  | cons c ds ih =>
    obtain ⟨hc, hds⟩ := List.forall_mem_cons.1 hds
    rw [← number_after_cons] at hle
    rw [List.cons_append, readFrom, hpoint, if_neg (by simp), if_pos hc]
    by_cases hnext : 10 * p.coefficient + digitValue c < 2 ^ 96
    · simp only [if_pos hnext]
      exact ih hds rfl hnext hle
    · simp only [if_neg hnext]
      rfl

/-- Digits, and more digits after a point if there are any, are read as the nearest decimal. -/
theorem toOption_readFrom_plain (hws : ∀ c ∈ ws, isDigit c) (hne : ws ≠ [])
    (hfs : ∀ c ∈ fs, isDigit c) :
    (readFrom ⟨negative, false, false, 0, 0⟩ (ws ++ if fs = [] then [] else '.' :: fs)).toOption =
      nearest? negative (natOfDigits (ws ++ fs)) fs.length := by
  by_cases hlt : natOfDigits ws < 2 ^ 96
  · have hfraction := toOption_readFrom_fraction negative hfs hlt (Nat.zero_le 28)
    rw [Nat.zero_add] at hfraction
    rw [readFrom_whole hws hne hlt, natOfDigits_append, ← hfraction]
    cases fs with
    | nil => rfl
    | cons f fs => simp [readFrom, isDigit]
  · have hle := Nat.not_lt.1 hlt
    have hmul := Nat.mul_le_mul_right (10 ^ fs.length) hle
    rw [readFrom_beyond hws rfl (Nat.pow_pos (by decide)) (by simpa using hle),
      natOfDigits_append, nearest?_eq_none_of_le _ (by omega)]
    rfl

theorem readScientific_of_no_mark {cs : List Char} (h : ∀ c ∈ cs, c ≠ 'e' ∧ c ≠ 'E') :
    readScientific cs = .error .noExponent := by
  have hend : cs.dropWhile (fun c => !(c = 'e' || c = 'E')) = [] := by
    rw [List.dropWhile_eq_nil_iff]
    intro c hc
    simp [h c hc]
  simp only [readScientific, hend]
  rfl

end Decimal

end Recast
