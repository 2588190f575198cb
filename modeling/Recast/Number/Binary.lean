/-
Binary floating-point numbers of the two interchange formats, as bit patterns.

A pattern is a sign, a biased exponent and a fraction. `Binary.view` says what
it denotes: not a number, an infinity, or `± mant · 2 ^ exp`. All arithmetic is
exact on rationals and rounded once, by `Binary.ofRat`: nearest, a half to the
even neighbour, infinity past the largest finite number.
-/
import Recast.Number.Rounding

namespace Recast

/-- A binary format: the number of fraction bits and of exponent bits. -/
structure Format where
  fraction : Nat
  exponent : Nat
deriving DecidableEq, Repr

namespace Format

def single : Format := ⟨23, 8⟩

def double : Format := ⟨52, 11⟩

def width (f : Format) : Nat := 1 + f.exponent + f.fraction

/-- The exponent of the last place of the subnormal numbers. -/
def minExp (f : Format) : Int := 2 - (2 ^ (f.exponent - 1) : Nat) - f.fraction

/-- The magnitude bits of infinity. -/
def infinityBits (f : Format) : Nat := (2 ^ f.exponent - 1) * 2 ^ f.fraction

/-- The bit of the sign. -/
def signBit (f : Format) : Nat := 2 ^ (f.exponent + f.fraction)

end Format

/-- A floating-point number of a format: its bits. -/
structure Binary (f : Format) where
  bits : BitVec f.width
deriving DecidableEq

/-- What a bit pattern denotes. -/
inductive Binary.View
  | nan
  | infinite (negative : Bool)
  | finite (negative : Bool) (mant : Nat) (exp : Int)
deriving DecidableEq, Repr

namespace Binary

variable {f : Format}

def ofNat (f : Format) (bits : Nat) : Binary f := ⟨BitVec.ofNat _ bits⟩

def isNegative (x : Binary f) : Bool := f.signBit ≤ x.bits.toNat

/-- The bits without the sign. -/
def magnitude (x : Binary f) : Nat := x.bits.toNat % f.signBit

/-- The pattern of a sign and a magnitude. -/
def ofMagnitude (f : Format) (negative : Bool) (magnitude : Nat) : Binary f :=
  ofNat f (magnitude + if negative then f.signBit else 0)

def infinity (f : Format) (negative : Bool) : Binary f := ofMagnitude f negative f.infinityBits

def zero (f : Format) (negative : Bool) : Binary f := ofMagnitude f negative 0

/-- The quiet NaN with an empty payload. -/
def nan (f : Format) (negative : Bool) : Binary f :=
  ofMagnitude f negative (f.infinityBits + 2 ^ (f.fraction - 1))

/-- What a pattern denotes. A biased exponent of zero marks the subnormal numbers, which have no
hidden bit. -/
def view (x : Binary f) : View :=
  if f.infinityBits < x.magnitude then .nan
  else if x.magnitude = f.infinityBits then .infinite x.isNegative
  else
    let biased := x.magnitude / 2 ^ f.fraction
    let fraction := x.magnitude % 2 ^ f.fraction
    if biased = 0 then .finite x.isNegative fraction f.minExp
    else .finite x.isNegative (2 ^ f.fraction + fraction) (f.minExp + (biased - 1 : Nat))

def isNaN (x : Binary f) : Bool := f.infinityBits < x.magnitude

def isFinite (x : Binary f) : Bool := x.magnitude < f.infinityBits

/-- Both zeros. -/
def isZero (x : Binary f) : Bool := x.magnitude = 0

def neg (x : Binary f) : Binary f := ofMagnitude f (!x.isNegative) x.magnitude

end Binary

/-- `m · 2 ^ e` as a rational. -/
def dyadic (m : Nat) (e : Int) : Rat :=
  if 0 ≤ e then ((m * 2 ^ e.toNat : Nat) : Rat) else mkRat m (2 ^ (-e).toNat)

/-- The greatest `e` with `2 ^ e ≤ num / den`, for a positive quotient. -/
def floorLog2 (num den : Nat) : Int :=
  let e : Int := (num.log2 : Int) - den.log2
  if num * 2 ^ (-e).toNat < den * 2 ^ e.toNat then e - 1 else e

namespace Binary

variable {f : Format}

/-- The number that a finite pattern denotes; both zeros denote 0. -/
def toRat? (x : Binary f) : Option Rat :=
  match x.view with
  | .finite negative m e => some (if negative then -(dyadic m e) else dyadic m e)
  | _ => none

/-- The magnitude bits of the number nearest to `num / den`. The last place lies at exponent
`minExp`, or as far left of the leading bit as the fraction reaches; a mantissa that rounds up to
the next power of two carries into the exponent by itself. -/
def roundMagnitude (f : Format) (num den : Nat) : Nat :=
  if num = 0 then 0
  else
    let q := max f.minExp (floorLog2 num den - f.fraction)
    let m := roundDiv .even (num * 2 ^ (-q).toNat) (den * 2 ^ q.toNat)
    min f.infinityBits ((q - f.minExp).toNat * 2 ^ f.fraction + m)

/-- The floating-point number nearest to `q`, a half to the even neighbour. The sign is that of
`q`, or `negativeZero` for zero. -/
def ofRat (f : Format) (q : Rat) (negativeZero : Bool) : Binary f :=
  ofMagnitude f (if q.num = 0 then negativeZero else q.num < 0)
    (roundMagnitude f q.num.natAbs q.den)

def ofInt (f : Format) (n : Int) : Binary f := ofRat f n false

/-- The same number in another format. A NaN keeps its sign and the leading bits of its payload,
and is quiet. -/
def convert (g : Format) (x : Binary f) : Binary g :=
  match x.view with
  | .nan =>
    let fraction := x.magnitude % 2 ^ f.fraction
    let kept := fraction * 2 ^ g.fraction / 2 ^ f.fraction
    ofMagnitude g x.isNegative (g.infinityBits + (kept ||| 2 ^ (g.fraction - 1)))
  | .infinite negative => infinity g negative
  | .finite negative m e => ofRat g (if negative then -(dyadic m e) else dyadic m e) negative

/-- The order key of a pattern: all patterns in the order of the numbers they denote, negative
zero below zero, and NaNs outside the infinities on the side of their sign. -/
def orderKey (x : Binary f) : Int :=
  if x.isNegative then -(x.magnitude : Int) - 1 else x.magnitude

end Binary

end Recast
