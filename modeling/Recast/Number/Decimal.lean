/-
Decimal numbers: a coefficient below 2 ^ 96, a sign, and a scale of at most 28
digits after the point.

The scale belongs to the number: `1.0` and `1.00` denote the same rational and
are different decimals. The sign is kept on zero, where it is only shown.
-/
import Recast.Number.Rounding
import Recast.Text.Digits

namespace Recast

/-- `± coefficient · 10 ^ -scale`. -/
structure Decimal where
  negative : Bool
  coefficient : Nat
  scale : Nat
  coefficient_lt : coefficient < 2 ^ 96
  scale_le : scale ≤ 28
deriving DecidableEq

namespace Decimal

/-- The decimal of a sign, a coefficient and a scale, when it is one. -/
def ofParts? (negative : Bool) (coefficient scale : Nat) : Option Decimal :=
  if h : coefficient < 2 ^ 96 ∧ scale ≤ 28 then some ⟨negative, coefficient, scale, h.1, h.2⟩
  else none

def zero : Decimal := ⟨false, 0, 0, by decide, by decide⟩

/-- The coefficient with its sign. -/
def signed (d : Decimal) : Int := if d.negative then -(d.coefficient : Int) else d.coefficient

/-- The rational that a decimal denotes. -/
def toRat (d : Decimal) : Rat := mkRat d.signed (10 ^ d.scale)

def isZero (d : Decimal) : Bool := d.coefficient = 0

/-- The number has no digits but zeros after the point. -/
def isWhole (d : Decimal) : Bool := d.coefficient % 10 ^ d.scale = 0

/-- The integral part: the digits before the point, with the sign. -/
def trunc (d : Decimal) : Int :=
  let whole := d.coefficient / 10 ^ d.scale
  if d.negative then -(whole : Int) else whole

/-- The integer as a decimal, when its magnitude is in range. -/
def ofInt? (n : Int) : Option Decimal := ofParts? (n < 0) n.natAbs 0

/-- Equality of decimals as values: the same rational at the same scale. -/
def same (a b : Decimal) : Bool := a.scale = b.scale && a.signed = b.signed

/-- The number in units of the 28th place. -/
def units (d : Decimal) : Int := d.signed * (10 ^ (28 - d.scale) : Nat)

/-- The digits of a decimal: all of its scale is written, and the sign also on zero. -/
def text (d : Decimal) : String :=
  let digits := Text.padded (d.scale + 1) d.coefficient
  let whole := digits.take (digits.length - d.scale)
  let fraction := digits.drop (digits.length - d.scale)
  (if d.negative then "-" else "") ++ String.ofList whole ++
    (if d.scale = 0 then "" else "." ++ String.ofList fraction)

/-! ## Arithmetic -/

/-- The decimal nearest to `± coefficient · 10 ^ -scale`: as few digits as possible are dropped
from the end, and half a unit goes to the even neighbour. -/
def fit? (negative : Bool) (coefficient scale : Nat) : Option Decimal :=
  (List.range (scale + 1)).findSome? fun dropped =>
    ofParts? negative (roundDiv .even coefficient (10 ^ dropped)) (scale - dropped)

/-- The product, with the scales added. -/
def mul? (a b : Decimal) : Option Decimal :=
  if a.isZero || b.isZero then some zero
  else fit? (a.negative != b.negative) (a.coefficient * b.coefficient) (a.scale + b.scale)

/-- The sum, at the larger scale. -/
def add? (a b : Decimal) : Option Decimal :=
  let scale := max a.scale b.scale
  let sum : Int := a.signed * (10 ^ (scale - a.scale) : Nat)
    + b.signed * (10 ^ (scale - b.scale) : Nat)
  fit? (sum < 0) sum.natAbs scale

/-- The same number at a smaller scale, half a unit of the last place going up. -/
def rescale (d : Decimal) (scale : Nat) : Option Decimal :=
  ofParts? d.negative (roundDiv .up d.coefficient (10 ^ (d.scale - scale))) scale

/-- The same number without zeros at the end of its scale. -/
def strip (d : Decimal) : Decimal :=
  if d.coefficient = 0 then zero
  else
    match (List.range (d.scale + 1)).reverse.find? fun n => d.coefficient % 10 ^ n = 0 with
    | some n => (ofParts? d.negative (d.coefficient / 10 ^ n) (d.scale - n)).getD d
    | none => d

@[simp] theorem ofParts?_parts (d : Decimal) :
    ofParts? d.negative d.coefficient d.scale = some d :=
  dif_pos ⟨d.coefficient_lt, d.scale_le⟩

theorem same_refl (d : Decimal) : d.same d := by simp [same]

theorem same_comm (a b : Decimal) : a.same b = b.same a := by
  simp [same, eq_comm]

end Decimal

end Recast
