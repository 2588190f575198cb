/-
Reading spans of time as durations are written: `P`, amounts of weeks and
days, and after `T` amounts of hours, minutes and seconds. Each amount is a
decimal; the sum is cut to whole nanoseconds.
-/
import Recast.Number.Decimal.Reading
import Recast.Time.Span

namespace Recast.Span

/-- Nanoseconds in a unit of the part before `T`. -/
def dateUnit? : Char → Option Nat
  | 'W' => some 604800000000000
  | 'D' => some 86400000000000
  | _ => none

/-- Nanoseconds in a unit of the part after `T`. -/
def timeUnit? : Char → Option Nat
  | 'H' => some 3600000000000
  | 'M' => some 60000000000
  | 'S' => some 1000000000
  | _ => none

/-- The amounts of a part with the letters after them. `number` holds what has been read of the
next amount, last character first; a comma is a point. -/
def components? (number : List Char) : List Char → Option (List (Decimal × Char))
  | [] => if number = [] then some [] else none
  | c :: cs =>
    if Text.isDigit c || c = '.' || c = ',' || c = '-' then
      components? ((if c = ',' then '.' else c) :: number) cs
    else
      match Decimal.read number.reverse with
      | .ok amount => (components? [] cs).map ((amount, c.toUpper) :: ·)
      | .error _ => none

/-- Adds the amounts of a part to a total. -/
def total? (unit? : Char → Option Nat) (start : Decimal) (cs : List Char) : Option Decimal := do
  let parts ← components? [] cs
  parts.foldlM (fun sum (amount, letter) => do
    let unit ← (unit? letter).bind fun n => Decimal.ofInt? n
    sum.add? (← amount.mul? unit)) start

/-- Reads a span. -/
def read? (cs : List Char) : Option Span := do
  let (negative, cs) := Text.spanSign cs
  let cs ← match cs with
    | c :: rest => if c = 'P' || c = 'p' then some rest else none
    | [] => none
  let isMark (c : Char) : Bool := c = 'T' || c = 't'
  let datePart := cs.takeWhile (!isMark ·)
  let timePart ← match cs.dropWhile (!isMark ·) with
    | [] => if datePart = [] then none else some []
    | [_] => none
    | _ :: rest => some rest
  let days ← total? dateUnit? .zero datePart
  let nanos := (← total? timeUnit? days timePart).trunc
  if -(2 ^ 63 : Int) ≤ nanos ∧ nanos < 2 ^ 63 then of? (if negative then -nanos else nanos)
  else none

end Recast.Span
