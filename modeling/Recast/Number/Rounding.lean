/-
Rounding a quotient of natural numbers to a natural number, with the three
ways of treating a half that the number formats of this library use.
-/
import Recast.Number.Power

namespace Recast

/-- Which way a remainder of exactly half the divisor goes. -/
inductive Tie
  | up
  | even
deriving DecidableEq, Repr

/-- The natural number nearest to `num / den`; a half goes as `tie` says. -/
def roundDiv (tie : Tie) (num den : Nat) : Nat :=
  let floor := num / den
  let rest := 2 * (num % den)
  if rest < den then floor
  else if den < rest then floor + 1
  else match tie with
    | .up => floor + 1
    | .even => floor + floor % 2

/-- A quotient that is a natural number stays as it is. -/
@[simp] theorem roundDiv_mul (tie : Tie) (n : Nat) {den : Nat} (h : 0 < den) :
    roundDiv tie (n * den) den = n := by
  simp [roundDiv, Nat.mul_div_cancel _ h, h]

end Recast
