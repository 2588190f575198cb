/-
The shortest decimal text of a floating-point number.

The reals that round to a finite number form an interval around it. Of the
decimal grids with 1, 2, 3, … digits, the first with a point in that interval
gives the digits; of two such points the nearer, and `tie` decides when both
are equally near. A `FloatStyle` then says where the point stands and when an
exponent is written.
-/
import Recast.Number.Binary
import Recast.Text.Digits

namespace Recast

/-- The decimal `digits · 10 ^ exp`. -/
structure Scientific where
  digits : Nat
  exp : Int
deriving DecidableEq, Repr

/-- The greatest `k` with `10 ^ k ≤ num / den`, for a positive quotient: an estimate from the
binary logarithm, moved by one where it misses. -/
def floorLog10 (num den : Nat) : Int :=
  let k := floorLog2 num den * 30103 / 100000
  let below (k : Int) : Bool := num * 10 ^ (-k).toNat < den * 10 ^ k.toNat
  if below k then k - 1 else if below (k + 1) then k else k + 1

/-- The point nearest to `value` on the grid of step `10 ^ k` that lies between `low` and
`high`, all three in units of `num / den` steps. `closed` admits the ends. -/
def gridPoint? (tie : Tie) (closed : Bool) (low value high num den : Nat) : Option Nat :=
  let down := value * num / den
  let up := down + 1
  let rest := 2 * (value * num % den)
  let downIn := if closed then low * num ≤ down * den else low * num < down * den
  let upIn := if closed then up * den ≤ high * num else up * den < high * num
  if downIn && upIn then
    some (if rest < den then down else if den < rest then up
          else match tie with
            | .up => up
            | .even => down + down % 2)
  else if downIn then some down
  else if upIn then some up
  else none

/-- The digits without trailing zeros. -/
def Scientific.strip (fuel : Nat) (s : Scientific) : Scientific :=
  match fuel with
  | 0 => s
  | fuel + 1 => if s.digits % 10 = 0 then strip fuel ⟨s.digits / 10, s.exp + 1⟩ else s

/-- The shortest decimal that rounds to `mant · 2 ^ exp`, a positive number of the format. Below
a power of two the neighbours lie twice as close. -/
def shortestDecimal (f : Format) (tie : Tie) (mant : Nat) (exp : Int) : Scientific :=
  let quarter := exp - 2
  let low := if mant = 2 ^ f.fraction && f.minExp < exp then 4 * mant - 1 else 4 * mant - 2
  let high := 4 * mant + 2
  let lead := floorLog10 (mant * 2 ^ exp.toNat) (2 ^ (-exp).toNat)
  let point? (count : Nat) : Option Scientific :=
    let k := lead - count
    let num := 2 ^ quarter.toNat * 10 ^ (-k).toNat
    let den := 2 ^ (-quarter).toNat * 10 ^ k.toNat
    (gridPoint? tie (mant % 2 = 0) low (4 * mant) high num den).map (⟨·, k⟩)
  match (List.range (f.fraction + 1)).findSome? point? with
  | some s => s.strip (f.fraction + 1)
  | none => ⟨mant, 0⟩

/-- How the text of a floating-point number is laid out. -/
structure FloatStyle where
  tie : Tie
  /-- The exponents of the leading digit that are written with a point and no exponent. -/
  positional : Int → Bool
  /-- What follows a whole number. -/
  wholeEnding : String
  /-- What stands before an exponent that is not negative. -/
  plus : String

/-- The text shown to people: an exponent below `10 ^ -4` and from `10 ^ 16` on. -/
def FloatStyle.general : FloatStyle := ⟨.up, fun e => -4 ≤ e && e < 16, ".0", ""⟩

/-- The text inside error messages: never an exponent, and no point in a whole number. -/
def FloatStyle.plain : FloatStyle := ⟨.up, fun _ => true, "", ""⟩

/-- The digits with a point `point` places after the first. -/
def placePoint (style : FloatStyle) (digits : List Char) (point : Int) : String :=
  if point ≤ 0 then "0." ++ String.ofList (List.replicate (-point).toNat '0' ++ digits)
  else
    let n := point.toNat
    if digits.length ≤ n then
      String.ofList (digits ++ List.replicate (n - digits.length) '0') ++ style.wholeEnding
    else String.ofList (digits.take n) ++ "." ++ String.ofList (digits.drop n)

/-- The text of a decimal in a style. -/
def FloatStyle.decimal (style : FloatStyle) (s : Scientific) : String :=
  let digits := Nat.toDigits 10 s.digits
  let lead := s.exp + digits.length - 1
  if style.positional lead then placePoint style digits (lead + 1)
  else
    let tail := if digits.length ≤ 1 then "" else "." ++ String.ofList (digits.drop 1)
    let sign := if lead < 0 then "" else style.plus
    String.ofList (digits.take 1) ++ tail ++ "e" ++ sign ++ Text.intText lead

/-- The text of a floating-point number in a style. -/
def FloatStyle.render (style : FloatStyle) {f : Format} (x : Binary f) : String :=
  let sign (negative : Bool) := if negative then "-" else ""
  match x.view with
  | .nan => "NaN"
  | .infinite negative => sign negative ++ "inf"
  | .finite negative mant exp =>
    if mant = 0 then sign negative ++ "0" ++ style.wholeEnding
    else sign negative ++ style.decimal (shortestDecimal f style.tie mant exp)

end Recast
