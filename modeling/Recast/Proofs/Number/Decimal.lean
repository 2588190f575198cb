/-
Decimals are read from their digits, and exact results stay exact.

Digits are read one after the other (`readFrom_digits`), so digits with a point
among them are read as the number they write, at the scale of those after the
point (`readFrom_plain`). A decimal writes itself so, and is read back without a
sign on zero (`read_text`). A result that is a multiple of its scale loses
nothing but zeros when it is made to fit (`fit?_mul_pow`), so that a product
which is a natural number is that number (`mul?_mul_pow`).
-/
import Recast.Number.Decimal.Reading
import Recast.Proofs.Text.Digits

namespace Recast.Decimal

open Text

variable {p : Partial} {ds ws fs rest : List Char} {negative : Bool} {n scale : Nat}

/-! ## Reading -/

/-- What has been read after one more digit. -/
def Partial.step (p : Partial) (c : Char) : Partial :=
  { p with
    digit := true
    coefficient := 10 * p.coefficient + digitValue c
    scale := if p.point then p.scale + 1 else p.scale }

theorem foldl_step (p : Partial) (ds : List Char) : ds.foldl Partial.step p =
    ⟨p.negative, p.point, p.digit || !ds.isEmpty,
      p.coefficient * 10 ^ ds.length + natOfDigits ds,
      if p.point then p.scale + ds.length else p.scale⟩ := by
  induction ds generalizing p with
  | nil => cases p; simp [natOfDigits]
  | cons c ds ih =>
    rw [List.foldl_cons, ih, ← number_after_cons]
    simp only [Partial.step, Partial.mk.injEq, true_and, List.length_cons]
    refine ⟨by simp, ?_⟩
    split <;> omega

/-- The number after some more digits is a decimal. -/
def Partial.Fits (p : Partial) (ds : List Char) : Prop :=
  (ds.foldl Partial.step p).coefficient < 2 ^ 96 ∧ (p.point → p.scale + ds.length ≤ 28)

theorem Partial.Fits.step {c : Char} (h : p.Fits (c :: ds)) : (p.step c).Fits ds := by
  refine ⟨h.1, fun hpoint => ?_⟩
  have hle := h.2 hpoint
  have hnext : (p.step c).scale = p.scale + 1 := if_pos hpoint
  rw [List.length_cons] at hle
  omega

/-- Digits that fit are read one after the other. -/
theorem readFrom_digits (hds : ∀ c ∈ ds, isDigit c) (hfits : p.Fits ds) :
    readFrom p (ds ++ rest) = readFrom (ds.foldl Partial.step p) rest := by
  induction ds generalizing p with
  | nil => rfl
  | cons c ds ih =>
    obtain ⟨hc, hds⟩ := List.forall_mem_cons.1 hds
    have hstep := hfits.step
    -- the digits to come only make the number larger, so it is in range with this one
    have hlt : 10 * p.coefficient + digitValue c < 2 ^ 96 := by
      have hle := Nat.le_mul_of_pos_right (10 * p.coefficient + digitValue c)
        (Nat.pow_pos (n := ds.length) (by decide : 0 < 10))
      have hall := hstep.1
      simp only [foldl_step, Partial.step] at hall
      omega
    have hopen : (p.point && decide (28 ≤ p.scale)) = false := by
      have := hfits.2
      cases hpoint : p.point <;> simp_all
      omega
    rw [List.cons_append, readFrom, hopen, if_neg (by decide), if_pos hc, if_pos hlt]
    exact ih hds hstep

/-- Digits at the front are read as their number, whatever comes after them. -/
theorem readFrom_whole (hws : ∀ c ∈ ws, isDigit c) (hne : ws ≠ [])
    (hlt : natOfDigits ws < 2 ^ 96) (rest : List Char) :
    readFrom ⟨negative, false, false, 0, 0⟩ (ws ++ rest) =
      readFrom ⟨negative, false, true, natOfDigits ws, 0⟩ rest := by
  have hempty : ws.isEmpty = false := by simpa using hne
  rw [readFrom_digits hws ⟨by simpa [foldl_step] using hlt, by simp⟩, foldl_step]
  simp [hempty]

/-- Digits, and more digits after a point if there are any. -/
theorem readFrom_plain (hws : ∀ c ∈ ws, isDigit c) (hne : ws ≠ []) (hfs : ∀ c ∈ fs, isDigit c)
    (hlt : natOfDigits (ws ++ fs) < 2 ^ 96) (hscale : fs.length ≤ 28) :
    readFrom ⟨negative, false, false, 0, 0⟩ (ws ++ if fs = [] then [] else '.' :: fs) =
      ofRead negative (natOfDigits (ws ++ fs)) fs.length := by
  have happend := natOfDigits_append ws fs
  have hle := Nat.le_mul_of_pos_right (natOfDigits ws) (Nat.pow_pos (n := fs.length)
    (by decide : 0 < 10))
  rw [readFrom_whole hws hne (by omega)]
  by_cases hnil : fs = []
  · simp [hnil, readFrom]
  · have hfraction : readFrom ⟨negative, true, true, natOfDigits ws, 0⟩ fs =
        ofRead negative (natOfDigits (ws ++ fs)) fs.length := by
      have hdigits := @readFrom_digits ⟨negative, true, true, natOfDigits ws, 0⟩ fs [] hfs
        ⟨by simp only [foldl_step]; omega, by simpa⟩
      rw [List.append_nil, foldl_step] at hdigits
      rw [hdigits, happend]
      simp [readFrom]
    rw [if_neg hnil, ← hfraction]
    simp [readFrom, isDigit]

theorem read_plain (hws : ∀ c ∈ ws, isDigit c) (hne : ws ≠ []) (hfs : ∀ c ∈ fs, isDigit c)
    (hlt : natOfDigits (ws ++ fs) < 2 ^ 96) (hscale : fs.length ≤ 28) :
    read (ws ++ if fs = [] then [] else '.' :: fs) =
      .ok ⟨false, natOfDigits (ws ++ fs), fs.length, hlt, hscale⟩ := by
  rw [read, if_neg (by simp [hne]), spanSign_append hws hne]
  show readFrom ⟨false, false, false, 0, 0⟩ _ = _
  rw [readFrom_plain hws hne hfs hlt hscale]
  simp [ofRead, ofParts?, hlt, hscale]

/-! ## Reading what was written -/

/-- The same number at the same scale, with no sign on zero. -/
def dropZeroSign (d : Decimal) : Decimal :=
  { d with negative := d.negative && d.coefficient ≠ 0 }

theorem same_dropZeroSign (d : Decimal) : d.dropZeroSign.same d := by
  by_cases hzero : d.coefficient = 0 <;> simp [same, signed, dropZeroSign, hzero]

theorem dropZeroSign_eq_self_iff {d : Decimal} :
    d.dropZeroSign = d ↔ (d.coefficient = 0 → d.negative = false) := by
  obtain ⟨negative, coefficient, scale, -, -⟩ := d
  cases negative <;> simp [dropZeroSign]

theorem exists_text_eq (d : Decimal) : ∃ ws fs, d.text.toList =
      (if d.negative then ['-'] else []) ++ (ws ++ if fs = [] then [] else '.' :: fs) ∧
    (∀ c ∈ ws, isDigit c) ∧ ws ≠ [] ∧ (∀ c ∈ fs, isDigit c) ∧ fs.length = d.scale ∧
    natOfDigits (ws ++ fs) = d.coefficient := by
  have hlength := le_length_padded (d.scale + 1) d.coefficient
  have hdigits {c : Char} : c ∈ padded (d.scale + 1) d.coefficient → isDigit c :=
    isDigit_of_mem_padded
  have hvalue := natOfDigits_padded (d.scale + 1) d.coefficient
  unfold text
  generalize padded (d.scale + 1) d.coefficient = ds at hlength hdigits hvalue
  have hscale : (ds.drop (ds.length - d.scale)).length = d.scale := by
    rw [List.length_drop]
    omega
  refine ⟨ds.take (ds.length - d.scale), ds.drop (ds.length - d.scale), ?_,
    fun _ hc => hdigits (List.mem_of_mem_take hc), ?_,
    fun _ hc => hdigits (List.mem_of_mem_drop hc), hscale, by rwa [List.take_append_drop]⟩
  · have hnil : ds.drop (ds.length - d.scale) = [] ↔ d.scale = 0 := by
      rw [← List.length_eq_zero_iff, hscale]
    simp only [hnil]
    by_cases hnegative : d.negative <;> by_cases hwhole : d.scale = 0 <;>
      simp [hnegative, hwhole]
  · rw [ne_eq, ← List.length_eq_zero_iff, List.length_take]
    omega

/-- A decimal is read back from its text, without a sign on zero. -/
theorem read_text (d : Decimal) : read d.text.toList = .ok d.dropZeroSign := by
  obtain ⟨ws, fs, htext, hws, hne, hfs, hscale, hvalue⟩ := d.exists_text_eq
  have hread : readFrom ⟨d.negative, false, false, 0, 0⟩
      (ws ++ if fs = [] then [] else '.' :: fs) = ofRead d.negative d.coefficient d.scale := by
    rw [readFrom_plain hws hne hfs (hvalue ▸ d.coefficient_lt) (hscale ▸ d.scale_le), hvalue,
      hscale]
  rw [htext, read, if_neg (by simp [hne]), spanSign_minus d.negative hws hne]
  show readFrom ⟨d.negative, false, false, 0, 0⟩ _ = _
  rw [hread, ofRead, ofParts?, dif_pos ⟨d.coefficient_lt, d.scale_le⟩]
  rfl

theorem noBlanks_text (d : Decimal) : NoBlanks d.text.toList := by
  obtain ⟨ws, fs, htext, hws, -, hfs, -, -⟩ := d.exists_text_eq
  have hpoint : NoBlanks (if fs = [] then [] else '.' :: fs) := by
    split
    · exact noBlanks_nil
    · exact noBlanks_cons.2 ⟨by decide, noBlanks_of_digits hfs⟩
  rw [htext, noBlanks_append, noBlanks_append]
  exact ⟨noBlanks_minus _, noBlanks_of_digits hws, hpoint⟩

/-! ## Exact results -/

theorem ofParts?_eq_some {coefficient : Nat} {d : Decimal}
    (h : ofParts? negative coefficient scale = some d) :
    d.negative = negative ∧ d.coefficient = coefficient ∧ d.scale = scale := by
  unfold ofParts? at h
  split at h
  · cases h
    exact ⟨rfl, rfl, rfl⟩
  · cases h

theorem findSome?_mul_pow (place : Nat → Nat → Option Decimal) (tie : Tie) (scale : Nat)
    (hplace : (place n 0).isSome) :
    ∃ places d, (List.range (scale + 1)).findSome? (fun dropped =>
        place (roundDiv tie (n * 10 ^ scale) (10 ^ dropped)) (scale - dropped)) = some d ∧
      place (n * 10 ^ places) places = some d := by
  have hround {dropped : Nat} (h : dropped ≤ scale) :
      roundDiv tie (n * 10 ^ scale) (10 ^ dropped) = n * 10 ^ (scale - dropped) := by
    rw [show n * 10 ^ scale = n * 10 ^ (scale - dropped) * 10 ^ dropped by
      rw [Nat.mul_assoc, ← Nat.pow_add, Nat.sub_add_cancel h]]
    exact roundDiv_mul _ _ (Nat.pow_pos (by decide))
  -- with all of the scale dropped the natural number itself is left, so some try succeeds
  have hsome : ((List.range (scale + 1)).findSome? fun dropped =>
      place (roundDiv tie (n * 10 ^ scale) (10 ^ dropped)) (scale - dropped)).isSome := by
    refine List.findSome?_isSome_iff.2 ⟨scale, by simp, ?_⟩
    simpa [hround (Nat.le_refl scale)] using hplace
  obtain ⟨d, hd⟩ := Option.isSome_iff_exists.1 hsome
  obtain ⟨dropped, hmem, hparts⟩ := List.exists_of_findSome?_eq_some hd
  rw [hround (Nat.le_of_lt_succ (List.mem_range.1 hmem))] at hparts
  exact ⟨_, d, hd, hparts⟩

theorem fit?_mul_pow (negative : Bool) (scale : Nat) (hn : n < 2 ^ 96) :
    ∃ d, fit? negative (n * 10 ^ scale) scale = some d ∧
      d.negative = negative ∧ d.coefficient = n * 10 ^ d.scale := by
  have hplace : (ofParts? negative n 0).isSome := by simp [ofParts?, hn]
  obtain ⟨places, d, hd, hparts⟩ := findSome?_mul_pow (ofParts? negative) .even scale hplace
  obtain ⟨hnegative, hcoefficient, rfl⟩ := ofParts?_eq_some hparts
  exact ⟨d, hd, hnegative, hcoefficient⟩

theorem trunc_of_mul_pow {d : Decimal} (hcoefficient : d.coefficient = n * 10 ^ d.scale) :
    d.trunc = if d.negative then -(n : Int) else n := by
  simp [trunc, hcoefficient, Nat.mul_div_cancel _ (Nat.pow_pos (by decide : 0 < 10))]

theorem trunc_eq {d : Decimal} (hnegative : d.negative = false)
    (hcoefficient : d.coefficient = n * 10 ^ d.scale) : d.trunc = n := by
  rw [trunc_of_mul_pow hcoefficient, hnegative]
  rfl

theorem fit?_parts (d : Decimal) : fit? d.negative d.coefficient d.scale = some d := by
  have hround : roundDiv .even d.coefficient (10 ^ 0) = d.coefficient := by
    simpa using roundDiv_mul .even d.coefficient Nat.one_pos
  rw [fit?, List.range_succ_eq_map, List.findSome?_cons, hround, Nat.sub_zero, ofParts?_parts]

theorem zero_add? {d : Decimal} (hnegative : d.negative = false) : zero.add? d = some d := by
  have hsigned : d.signed = d.coefficient := by simp [signed, hnegative]
  have hzero : zero.signed = 0 ∧ zero.scale = 0 := ⟨rfl, rfl⟩
  have hfit := fit?_parts d
  rw [hnegative] at hfit
  have hpos : ¬(d.coefficient : Int) < 0 := by omega
  simp [add?, hzero, hsigned, hpos, hfit]

/-- A product that is a natural number is that number. -/
theorem mul?_mul_pow {a b : Decimal} (ha : a.coefficient ≠ 0) (hb : b.coefficient ≠ 0)
    (hn : n < 2 ^ 96) (hproduct : a.coefficient * b.coefficient = n * 10 ^ (a.scale + b.scale)) :
    ∃ d, a.mul? b = some d ∧ d.negative = (a.negative != b.negative) ∧
      d.coefficient = n * 10 ^ d.scale := by
  simp only [mul?, isZero, ha, hb, hproduct]
  exact fit?_mul_pow _ _ hn

end Recast.Decimal
