/-
The floating-point value of a decimal in a JSON document.

The digits are collected into a significand of 64 bits. From the first digit
that does not fit, digits before the point only raise the exponent and digits
after it are dropped. The significand, the power of ten and their product or
quotient are each rounded to a double, so the value may miss the nearest
double by a little. A value too large for a double is none.
-/
import Recast.Number.Decimal.Floating

namespace Recast.Json

/-- A significand and its power of ten, while digits are collected. -/
structure Significand where
  value : Nat
  exp : Int
  /-- A digit did not fit. -/
  full : Bool

namespace Significand

/-- One more digit: before the point it makes the number ten times as large, after the point it
does not. -/
def push (afterPoint : Bool) (s : Significand) (c : Char) : Significand :=
  let value := 10 * s.value + Text.digitValue c
  if !s.full && value < 2 ^ 64 then { s with value, exp := if afterPoint then s.exp - 1 else s.exp }
  else { s with full := true, exp := if afterPoint then s.exp else s.exp + 1 }

/-- The digits before and after a point. After the point the significand is tried anew. -/
def ofDigits (whole fraction : List Char) : Significand :=
  let s := whole.foldl (push false) ⟨0, 0, false⟩
  fraction.foldl (push true) { s with full := false }

end Significand

/-- The double nearest to a power of ten. -/
def powerOfTen (n : Nat) : Rat := Decimal.toNearest (10 ^ n : Nat)

/-- `significand · 10 ^ exp`, without the sign. The powers of ten end at 308; smaller numbers are
divided in two steps, and still smaller ones are zero. -/
def magnitude (significand : Nat) (exp : Int) : Binary .double :=
  let start := Decimal.toNearest significand
  let down := (-exp).toNat
  let rounded (q : Rat) := Binary.ofRat .double q false
  if 308 < exp then
    if significand = 0 then Binary.zero .double false else Binary.infinity .double false
  else if 0 ≤ exp then rounded (start * powerOfTen exp.toNat)
  else if down ≤ 308 then rounded (start / powerOfTen down)
  else if down ≤ 616 then
    rounded (Decimal.toNearest (start / powerOfTen 308) / powerOfTen (down - 308))
  else Binary.zero .double false

/-- The double of a decimal with these digits and exponent. -/
def double? (negative : Bool) (whole fraction : List Char) (exp : Int) :
    Option (Binary .double) :=
  let s := Significand.ofDigits whole fraction
  let x := magnitude s.value (s.exp + exp)
  if x.isFinite then some (if negative then x.neg else x) else none

end Recast.Json
