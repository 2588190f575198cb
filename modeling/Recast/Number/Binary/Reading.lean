/-
Reading floating-point numbers: an optional sign, then `inf`, `infinity` or
`nan` in any case, or digits with at most one point and an optional exponent.
The number is the one nearest to the decimal written.
-/
import Recast.Number.Binary
import Recast.Text.Digits

namespace Recast

/-- A decimal written with a point and an exponent, still as digits. -/
structure Numeral where
  whole : List Char
  fraction : List Char
  exp : Int
deriving DecidableEq, Repr

namespace Numeral

/-- The digits without the point, as a number. -/
def digits (n : Numeral) : Nat := Text.natOfDigits (n.whole ++ n.fraction)

/-- The exponent of the last digit. -/
def lastExp (n : Numeral) : Int := n.exp - n.fraction.length

/-- An exponent mark, an optional sign and at least one digit; no mark stands for 0. -/
def readExponent? : List Char → Option Int
  | [] => some 0
  | c :: cs =>
    if c = 'e' || c = 'E' then Text.readInt? cs else none

/-- Digits with at most one point and at least one digit, then an optional exponent. -/
def read? (cs : List Char) : Option Numeral :=
  let (whole, rest) := Text.spanDigits cs
  let (fraction, rest) := match rest with
    | '.' :: rest => Text.spanDigits rest
    | rest => ([], rest)
  if whole = [] && fraction = [] then none
  else (readExponent? rest).map fun exp => ⟨whole, fraction, exp⟩

end Numeral

namespace Binary

/-- The number nearest to `digits · 10 ^ exp`. Decimals that lie far outside the format are
settled by their number of digits. -/
def ofScientific (f : Format) (negative : Bool) (digits : Nat) (exp : Int) : Binary f :=
  let lead : Int := exp + (Text.digitsOf digits).length
  let reach : Int := (2 ^ f.exponent : Nat)
  if digits = 0 || lead < -reach then zero f negative
  else if reach < lead then infinity f negative
  else ofMagnitude f negative
    (roundMagnitude f (digits * 10 ^ exp.toNat) (10 ^ (-exp).toNat))

/-- Reads a floating-point number. -/
def read? (f : Format) (cs : List Char) : Option (Binary f) :=
  let (negative, rest) := Text.spanSign cs
  let lower := rest.map Char.toLower
  if lower = "inf".toList || lower = "infinity".toList then some (infinity f negative)
  else if lower = "nan".toList then some (nan f negative)
  else (Numeral.read? rest).map fun n => ofScientific f negative n.digits n.lastExp

end Binary

end Recast
