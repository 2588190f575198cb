/-
Reading decimals.

Plain: an optional sign, then digits with at most one point; `_` may stand
anywhere after the first digit. Digits that do not fit after the point are cut
off, and the first of them rounds; a `_` right after the last place hides that
digit from short numbers, and is passed over in long ones. Scientific: a plain
decimal, `e`, and an exponent of at most 28 places either way.
-/
import Recast.Number.Decimal

namespace Recast

/-- Why a text is not a decimal. -/
inductive DecimalError
  | empty
  | unknownCharacter
  | twoPoints
  | noDigits
  | leadingSeparator
  | tooManyDigits
  | roundedOut
  /-- No exponent, or none that can be read. -/
  | noExponent
  | scale (places : Nat)
  | tooLarge
deriving DecidableEq, Repr

namespace DecimalError

def message : DecimalError → String
  | .empty => "Invalid decimal: empty"
  | .unknownCharacter => "Invalid decimal: unknown character"
  | .twoPoints => "Invalid decimal: two decimal points"
  | .noDigits => "Invalid decimal: no digits found"
  | .leadingSeparator => "Invalid decimal: must start lead with a number"
  | .tooManyDigits => "Invalid decimal: overflow from too many digits"
  | .roundedOut => "Invalid decimal: overflow from mantissa after rounding"
  | .noExponent => "Failed to parse"
  | .scale places =>
    "Scale exceeds the maximum precision allowed: " ++ Text.intText places ++ " > 28"
  | .tooLarge => "Number exceeds maximum value that can be represented."

end DecimalError

namespace Decimal

/-- A decimal read in part. -/
structure Partial where
  negative : Bool
  /-- A point has been read. -/
  point : Bool
  /-- A digit has been read. -/
  digit : Bool
  coefficient : Nat
  scale : Nat

/-- The error of a character that is no digit, where none may stand. -/
def badCharacter (c : Char) : DecimalError :=
  if c = '.' then .twoPoints else if c = '_' then .leadingSeparator else .unknownCharacter

/-- What is left of a decimal once the digits stop counting: digits and separators. -/
def checkTail : List Char → Except DecimalError Unit
  | [] => .ok ()
  | c :: cs => if Text.isDigit c || c = '_' then checkTail cs else .error (badCharacter c)

/-- The decimal of a sign, a coefficient and a scale, a coefficient out of range being an error.
A zero that is read has no sign. -/
def ofRead (negative : Bool) (coefficient scale : Nat) : Except DecimalError Decimal :=
  match ofParts? (negative && coefficient ≠ 0) coefficient scale with
  | some d => .ok d
  | none => .error .tooManyDigits

/-- The decimal cut off before `c`, a digit or a separator that counts as 0. When rounding up
leaves the range, the last digit is dropped as well, if it stands after the point. -/
def cut (p : Partial) (c : Char) (cs : List Char) : Except DecimalError Decimal := do
  if !(Text.isDigit c || c = '_') then throw (badCharacter c)
  let up := Text.isDigit c && 5 ≤ Text.digitValue c
  let fits := !up || p.coefficient + 1 < 2 ^ 96
  if !fits && p.scale = 0 then throw .roundedOut
  checkTail cs
  if !up then ofRead p.negative p.coefficient p.scale
  else if fits then ofRead p.negative (p.coefficient + 1) p.scale
  else ofRead p.negative ((p.coefficient + 5) / 10) (p.scale - 1)

/-- A coefficient from here on may leave 64 bits with the next digit. -/
def wide : Nat := (2 ^ 64 - 1) / 10 - 255

/-- A separator after the last place is passed over. It counts as the digit 0 instead where all
digits but the last still form a number below `wide`. -/
def Partial.passes (p : Partial) (c : Char) : Bool := c = '_' && wide ≤ p.coefficient / 10

/-- Reads on from what has been read. -/
def readFrom (p : Partial) : List Char → Except DecimalError Decimal
  | [] => if p.digit then ofRead p.negative p.coefficient p.scale else .error .noDigits
  | c :: cs =>
    if p.point && 28 ≤ p.scale then if p.passes c then readFrom p cs else cut p c cs
    else if Text.isDigit c then
      let coefficient := 10 * p.coefficient + Text.digitValue c
      if coefficient < 2 ^ 96 then
        readFrom { p with
          digit := true, coefficient, scale := if p.point then p.scale + 1 else p.scale } cs
      else if p.point then cut p c cs
      else .error .tooManyDigits
    else if c = '.' && !p.point then readFrom { p with point := true } cs
    else if c = '_' && p.digit then readFrom p cs
    else .error (badCharacter c)

/-- Reads a plain decimal. -/
def read (cs : List Char) : Except DecimalError Decimal :=
  if cs = [] then .error .empty
  else
    let (negative, rest) := Text.spanSign cs
    readFrom ⟨negative, false, false, 0, 0⟩ rest

/-- An exponent: digits with an optional plus sign, below 2 ^ 32. -/
def readExponent? (cs : List Char) : Option Nat :=
  let digits := if cs.head? = some '+' then cs.drop 1 else cs
  if digits ≠ [] && digits.all Text.isDigit && Text.natOfDigits digits < 2 ^ 32 then
    some (Text.natOfDigits digits)
  else none

/-- The decimal moved `places` to the right, which needs as many digits at the end of the scale
as are left to move over; then zeros at the end are removed. -/
def shiftLeft (d : Decimal) (places : Nat) : Except DecimalError Decimal :=
  let steps := if 19 ≤ places then [19, places - 19] else [places]
  let moved := steps.foldlM (fun d n => (ofParts? false (10 ^ n) 0).bind d.mul?) d
  match moved with
  | some d => .ok d.strip
  | none => .error .tooLarge

/-- Reads a decimal in scientific notation. A negative exponent adds to the scale; places past
the 28th are rounded off. -/
def readScientific (cs : List Char) : Except DecimalError Decimal := do
  let isMark (c : Char) : Bool := c = 'e' || c = 'E'
  let base := cs.takeWhile (!isMark ·)
  let exponent ← match cs.dropWhile (!isMark ·) with
    | [] => throw .noExponent
    | _ :: rest => pure rest
  let d ← read base
  match exponent with
  | '-' :: rest =>
    let some places := readExponent? rest | throw .noExponent
    if 28 < places then throw (.scale places)
    let d := if d.scale + places ≤ 28 then some d else d.rescale (28 - places)
    match d.bind fun d => ofParts? d.negative d.coefficient (d.scale + places) with
    | some d => pure d
    | none => throw .tooLarge
  | rest =>
    let some places := readExponent? rest | throw .noExponent
    if places ≤ d.scale then
      match ofParts? d.negative d.coefficient (d.scale - places) with
      | some d => pure d
      | none => throw .tooLarge
    else if 28 < places then throw (.scale places)
    else d.shiftLeft places

/-- Reads a decimal, plain or scientific. The error is that of the scientific reading. -/
def readAny (cs : List Char) : Except DecimalError Decimal :=
  match read cs with
  | .ok d => .ok d
  | .error _ => readScientific cs

end Decimal

end Recast
