/-
ASCII digits: the numeral a run of digits writes, and the numeral of a number
at a least width. Reading a written number gives it back.
-/
import Recast.Number.Power

namespace Recast.Text

/-- `0` to `9`. -/
def isDigit (c : Char) : Bool := '0' ≤ c && c ≤ '9'

def isAsciiLetter (c : Char) : Bool := ('a' ≤ c && c ≤ 'z') || ('A' ≤ c && c ≤ 'Z')

/-- The value of a digit. -/
def digitValue (c : Char) : Nat := c.toNat - 48

/-- The number that a run of digits writes, the most significant first. -/
def natOfDigits (cs : List Char) : Nat := cs.foldl (fun n c => 10 * n + digitValue c) 0

/-- The digits at the front of a text, and the text after them. -/
def spanDigits (cs : List Char) : List Char × List Char :=
  (cs.takeWhile isDigit, cs.dropWhile isDigit)

/-- The numeral of a number. -/
def digitsOf (n : Nat) : List Char := Nat.toDigits 10 n

/-- The numeral of a number with zeros in front up to `width` digits. -/
def padded (width n : Nat) : List Char :=
  let ds := digitsOf n
  List.replicate (width - ds.length) '0' ++ ds

/-- The hexadecimal numeral of a number with zeros in front up to `width` digits. -/
def hexPadded (width n : Nat) : List Char :=
  let ds := Nat.toDigits 16 n
  List.replicate (width - ds.length) '0' ++ ds

/-- A sign and the text after it; a text with neither sign is positive. -/
def spanSign : List Char → Bool × List Char
  | '-' :: cs => (true, cs)
  | '+' :: cs => (false, cs)
  | cs => (false, cs)

/-- The numeral of an integer, with a sign only when it is negative. -/
def intText (n : Int) : String :=
  (if n < 0 then "-" else "") ++ String.ofList (digitsOf n.natAbs)

/-- An integer written as an optional sign and at least one digit, nothing else. -/
def readInt? (cs : List Char) : Option Int :=
  let (negative, ds) := spanSign cs
  if ds ≠ [] && ds.all isDigit then
    some (if negative then -(natOfDigits ds : Int) else natOfDigits ds)
  else none

theorem foldl_digits (n : Nat) (cs : List Char) :
    cs.foldl (fun n c => 10 * n + digitValue c) n = n * 10 ^ cs.length + natOfDigits cs := by
  induction cs generalizing n with
  | nil => simp [natOfDigits]
  | cons c cs ih =>
    rw [natOfDigits, List.foldl_cons, List.foldl_cons, ih, ih (10 * 0 + digitValue c),
      List.length_cons, Nat.pow_succ, Nat.add_mul, Nat.mul_comm 10 n, Nat.mul_assoc,
      Nat.mul_comm 10 (10 ^ _)]
    simp [Nat.add_assoc]

theorem natOfDigits_append (as bs : List Char) :
    natOfDigits (as ++ bs) = natOfDigits as * 10 ^ bs.length + natOfDigits bs := by
  rw [natOfDigits, List.foldl_append, foldl_digits]
  rfl

@[simp] theorem spanDigits_fst_append_snd (cs : List Char) :
    (spanDigits cs).1 ++ (spanDigits cs).2 = cs :=
  List.takeWhile_append_dropWhile

end Recast.Text
