/-
Times of day: seconds since midnight and nanoseconds. Nanoseconds from 10 ^ 9
up belong to a leap second, which is shown as second 60 of its minute.
-/
import Recast.Text.Digits

namespace Recast

/-- A time of day. -/
structure Clock where
  seconds : Nat
  nano : Nat
  seconds_lt : seconds < 86400
  nano_lt : nano < 2000000000
deriving DecidableEq

namespace Clock

/-- The time of that many seconds and nanoseconds, when it is one. -/
def of? (seconds nano : Nat) : Option Clock :=
  if h : seconds < 86400 ∧ nano < 2000000000 then some ⟨seconds, nano, h.1, h.2⟩ else none

def midnight : Clock := ⟨0, 0, by decide, by decide⟩

/-- The time at an hour, minute and second. A leap second is one only after second 59. -/
def ofHms? (hour minute second nano : Nat) : Option Clock :=
  if hour < 24 && minute < 60 && second < 60 && (nano < 1000000000 || second = 59) then
    of? (hour * 3600 + minute * 60 + second) nano
  else none

def hour (t : Clock) : Nat := t.seconds / 3600
def minute (t : Clock) : Nat := t.seconds / 60 % 60
def second (t : Clock) : Nat := t.seconds % 60

/-- The second and the nanosecond as they are shown: a leap second counts one further. -/
def shown (t : Clock) : Nat × Nat :=
  if 1000000000 ≤ t.nano then (t.second + 1, t.nano - 1000000000) else (t.second, t.nano)

def key (t : Clock) : List Int := [t.seconds, t.nano]

/-- A fraction of a second has no digits, or as many of 3, 6 and 9 as it needs. -/
def fractionText (nano : Nat) : List Char :=
  if nano = 0 then []
  else if nano % 1000000 = 0 then '.' :: Text.padded 3 (nano / 1000000)
  else if nano % 1000 = 0 then '.' :: Text.padded 6 (nano / 1000)
  else '.' :: Text.padded 9 nano

/-- The time with colons. -/
def text (t : Clock) : List Char :=
  Text.padded 2 t.hour ++ ':' :: Text.padded 2 t.minute ++ ':' :: Text.padded 2 t.shown.1 ++
    fractionText t.shown.2

@[simp] theorem of?_parts (t : Clock) : of? t.seconds t.nano = some t := by
  simp [of?, t.seconds_lt, t.nano_lt]

end Clock

end Recast
