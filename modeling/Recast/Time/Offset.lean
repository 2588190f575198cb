/-
Offsets from UTC: whole seconds east, strictly less than a day either way.
-/
import Recast.Text.Digits

namespace Recast

/-- Seconds east of UTC. -/
structure Offset where
  seconds : Int
  lower : -86400 < seconds
  upper : seconds < 86400
deriving DecidableEq

namespace Offset

def of? (seconds : Int) : Option Offset :=
  if h : -86400 < seconds ∧ seconds < 86400 then some ⟨seconds, h.1, h.2⟩ else none

def utc : Offset := ⟨0, by decide, by decide⟩

def sign (o : Offset) : Char := if o.seconds < 0 then '-' else '+'

/-- The offset to the second; seconds are left out when they are zero. -/
def text (o : Offset) : List Char :=
  let n := o.seconds.natAbs
  let minutes := o.sign :: Text.padded 2 (n / 3600) ++ ':' :: Text.padded 2 (n / 60 % 60)
  if n % 60 = 0 then minutes else minutes ++ ':' :: Text.padded 2 (n % 60)

/-- The offset to the nearest minute, half a minute away from zero. With `zulu`, UTC is `Z`. -/
def minuteText (o : Offset) (zulu : Bool) : List Char :=
  if zulu && o.seconds = 0 then ['Z']
  else
    let n := (o.seconds.natAbs + 30) / 60
    o.sign :: Text.padded 2 (n / 60) ++ ':' :: Text.padded 2 (n % 60)

/-- An offset written as a sign and two, four or six digits: hours, minutes, seconds. Colons may
stand anywhere among the digits. `Z`, `z`, `UTC` and `GMT` are offset zero. -/
def read? (cs : List Char) : Option Offset :=
  if cs = ['Z'] || cs = ['z'] || cs = "UTC".toList || cs = "GMT".toList then some utc
  else
    match cs with
    | sign :: rest =>
      let digits := rest.filter (· ≠ ':')
      let field (start : Nat) : Nat := Text.natOfDigits ((digits.drop start).take 2)
      let length := digits.length
      if (sign = '+' || sign = '-') && digits.all Text.isDigit
          && (length = 2 || length = 4 || length = 6) && field 2 < 60 && field 4 < 60 then
        let seconds : Int := field 0 * 3600 + field 2 * 60 + field 4
        of? (if sign = '-' then -seconds else seconds)
      else none
    | [] => none

theorem eq_of_seconds_eq {o p : Offset} (h : o.seconds = p.seconds) : o = p := by
  cases o
  cases p
  cases h
  rfl

@[simp] theorem of?_seconds (o : Offset) : of? o.seconds = some o := by
  simp [of?, o.lower, o.upper]

end Offset

end Recast
