/-
Decimals from doubles and doubles from decimals. Neither direction rounds the
exact value once: both are sequences of small steps, and the steps are part of
the answer.
-/
import Recast.Number.Binary
import Recast.Number.Decimal

namespace Recast.Decimal

/-! ## From a double -/

/-- The number `mant · 10 ^ ten` on its way to a decimal. -/
structure Scaled where
  mant : Nat
  ten : Int

namespace Scaled

/-- Halves an even mantissa, or an odd one that has no room, and counts a power of ten instead. -/
def half (s : Scaled) : Scaled := ⟨s.mant / 2, s.ten + 1⟩

/-- Multiplies by five: by halving and counting a ten where the mantissa is even or full. -/
def timesFive (s : Scaled) : Scaled :=
  if s.mant % 2 = 0 then s.half
  else if 5 * s.mant < 2 ^ 96 then ⟨5 * s.mant, s.ten⟩
  else s.half

/-- Divides by five: by doubling and taking back a ten while the top bit is clear; later the rest
is dropped, unless too much of the number lies left of the point. `fives` is how many divisions
are left. -/
def overFive? (s : Scaled) (fives : Nat) : Option Scaled :=
  if s.mant < 2 ^ 95 then some ⟨2 * s.mant, s.ten - 1⟩
  else if (fives : Int) < 2 * s.ten then none
  else some ⟨s.mant / 5, s.ten⟩

def timesFives : Nat → Scaled → Scaled
  | 0, s => s
  | n + 1, s => timesFives n s.timesFive

def overFives? : Nat → Scaled → Option Scaled
  | 0, s => some s
  | n + 1, s => (s.overFive? (n + 1)).bind (overFives? n)

/-- Works the positive powers of ten into the mantissa. -/
def absorbTens? : Nat → Scaled → Option Scaled
  | 0, s => some s
  | n + 1, s => if 10 * s.mant < 2 ^ 96 then absorbTens? n ⟨10 * s.mant, s.ten - 1⟩ else none

/-- Drops places beyond the 28th, rounding up from a half at each; a number that vanishes is 0. -/
def dropPlaces : Nat → Scaled → Scaled
  | 0, s => s
  | n + 1, s =>
    if s.mant / 10 = 0 then ⟨0, 0⟩
    else dropPlaces n ⟨s.mant / 10 + if 5 ≤ s.mant % 10 then 1 else 0, s.ten + 1⟩

/-- Drops places, rounding up from a half at each, while the mantissa has more than 52 bits. -/
def shorten : Nat → Scaled → Scaled
  | 0, s => s
  | n + 1, s => if s.mant < 2 ^ 52 then s else shorten n ⟨roundDiv .up s.mant 10, s.ten + 1⟩

/-- Drops zeros at the end. -/
def dropZeros : Nat → Scaled → Scaled
  | 0, s => s
  | n + 1, s => if s.mant % 10 = 0 then dropZeros n ⟨s.mant / 10, s.ten + 1⟩ else s

end Scaled

/-- The decimal of a finite double. There is none for the largest numbers. -/
def ofDouble? (x : Binary .double) : Option Decimal :=
  match x.view with
  | .finite negative mant exp => do
    let start : Scaled := ⟨mant, exp⟩
    let s ← if exp < 0 then some (start.timesFives (-exp).toNat) else start.overFives? exp.toNat
    let s ← s.absorbTens? s.ten.toNat
    let s := s.dropPlaces (-28 - s.ten).toNat
    let s := s.shorten (-s.ten).toNat
    let s := s.dropZeros (-s.ten).toNat
    ofParts? negative s.mant (-s.ten).toNat
  | _ => none

/-! ## To a double -/

/-- The double nearest to a rational, as a rational. -/
def toNearest (q : Rat) : Rat := ((Binary.ofRat .double q false).toRat?).getD 0

/-- The power of ten by repeated squaring, each product a double. -/
def powTen (n : Nat) : Rat :=
  go n n 1 10
where
  go : Nat → Nat → Rat → Rat → Rat
    | 0, _, result, _ => result
    | fuel + 1, n, result, base =>
      if n = 0 then result
      else
        let result := if n % 2 = 1 then toNearest (result * base) else result
        go fuel (n / 2) result (toNearest (base * base))

/-- The integer nearest to a rational that is not negative, half a unit going up. -/
def roundNat (q : Rat) : Nat := roundDiv .up q.num.natAbs q.den

/-- The double of a decimal. A whole number is converted as it is; otherwise the two sides of the
point are added as doubles, and the sum is rounded to the decimal's own places. -/
def toDouble (d : Decimal) : Binary .double :=
  let whole := toNearest (d.coefficient / 10 ^ d.scale : Nat)
  let fraction := toNearest
    (toNearest (d.coefficient % 10 ^ d.scale : Nat) / toNearest (10 ^ d.scale : Nat))
  let value :=
    if fraction = 0 then whole
    else
      let places := powTen d.scale
      let rounded := roundNat (toNearest (toNearest (whole + fraction) * places))
      toNearest ((rounded : Rat) / places)
  let negative := d.negative && !(d.scale = 0 && d.coefficient = 0)
  Binary.ofRat .double (if negative then -value else value) negative

end Recast.Decimal
