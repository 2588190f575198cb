/-
Spans of time: a signed number of nanoseconds, up to 2 ^ 63 - 1 milliseconds
either way.
-/
import Recast.Text.Digits

namespace Recast

/-- A signed span of time. -/
structure Span where
  nanos : Int
  lower : -9223372036854775807000000 ≤ nanos
  upper : nanos ≤ 9223372036854775807000000
deriving DecidableEq

namespace Span

def of? (nanos : Int) : Option Span :=
  if h : -9223372036854775807000000 ≤ nanos ∧ nanos ≤ 9223372036854775807000000 then
    some ⟨nanos, h.1, h.2⟩
  else none

def neg (s : Span) : Span := ⟨-s.nanos, by have := s.upper; omega, by have := s.lower; omega⟩

/-- Whole milliseconds, the rest dropped. -/
def millis (s : Span) : Int := s.nanos.tdiv 1000000

/-- Whole seconds, the rest dropped. -/
def wholeSeconds (s : Span) : Int := s.nanos.tdiv 1000000000

/-- Nanoseconds beyond the whole seconds, with the sign of the span. -/
def subNanos (s : Span) : Int := s.nanos.tmod 1000000000

/-- The digits of a fraction of a second without the zeros at the end. -/
def fractionDigits (nano : Nat) : List Char :=
  ((Text.padded 9 nano).reverse.dropWhile (· = '0')).reverse

/-- The span in seconds, as a duration is written: `PT1.5S`, and `P0D` for none. -/
def text (s : Span) : List Char :=
  let n := s.nanos.natAbs
  if n = 0 then "P0D".toList
  else
    let nano := n % 1000000000
    (if s.nanos < 0 then ['-'] else []) ++ 'P' :: 'T' :: Text.digitsOf (n / 1000000000) ++
      (if nano = 0 then [] else '.' :: fractionDigits nano) ++ ['S']

@[simp] theorem of?_nanos (s : Span) : of? s.nanos = some s := by
  simp [of?, s.lower, s.upper]

end Span

end Recast
