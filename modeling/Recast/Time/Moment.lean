/-
Moments: a date and a time of day together, local or at an offset.

Moving between local time and UTC adds whole seconds to the day and carries
into the date; the nanoseconds stay, those of a leap second too. A moved date
may leave the calendar by a day, and then there is no such moment; the text of
a moment shows the local date all the same.
-/
import Recast.Time.Clock
import Recast.Time.Date
import Recast.Time.Offset

namespace Recast

/-- A date and a time of day, with no zone. -/
structure LocalDateTime where
  date : Date
  time : Clock
deriving DecidableEq

/-- A moment at an offset. Two are the same when moment and offset are. -/
structure DateTime where
  utc : LocalDateTime
  offset : Offset
deriving DecidableEq

/-- A date that may lie outside the calendar, and a time of day. -/
structure WallTime where
  date : Civil
  time : Clock

namespace LocalDateTime

def toWall (m : LocalDateTime) : WallTime := ⟨m.date.toCivil, m.time⟩

/-- The seconds since 1970-01-01 00:00:00, leap seconds not counted. -/
def seconds (m : LocalDateTime) : Int := m.date.days * 86400 + m.time.seconds

/-- The moment that lies that many seconds after 1970-01-01 00:00:00, with these nanoseconds. -/
def ofSeconds? (seconds : Int) (nano : Nat) : Option LocalDateTime :=
  match Date.ofDays? (seconds / 86400), Clock.of? (seconds % 86400).toNat nano with
  | some date, some time => some ⟨date, time⟩
  | _, _ => none

/-- What a clock shows that is `shift` seconds ahead. Within the same day the date stands still. -/
def wallAhead (m : LocalDateTime) (shift : Int) : WallTime :=
  let seconds : Int := m.time.seconds + shift
  ⟨if seconds / 86400 = 0 then m.date.toCivil else Civil.ofDays (m.date.days + seconds / 86400),
   ⟨(seconds % 86400).toNat, m.time.nano, by omega, m.time.nano_lt⟩⟩

/-- The moment `shift` seconds ahead, when it lies in the calendar. -/
def ahead? (m : LocalDateTime) (shift : Int) : Option LocalDateTime :=
  let wall := m.wallAhead shift
  (Date.ofCivil? wall.date).map (⟨·, wall.time⟩)

/-- Milliseconds since the start of 1970, rounded down. -/
def millis (m : LocalDateTime) : Int := m.seconds * 1000 + (m.time.nano / 1000000 : Nat)

/-- The moment that many milliseconds after the start of 1970. -/
def ofMillis? (millis : Int) : Option LocalDateTime :=
  ofSeconds? (millis / 1000) ((millis % 1000).toNat * 1000000)

def key (m : LocalDateTime) : List Int := m.date.key ++ m.time.key

end LocalDateTime

namespace WallTime

/-- Date and time with a separator between them. -/
def text (w : WallTime) (separator : Char) : List Char :=
  w.date.text ++ separator :: w.time.text

end WallTime

namespace DateTime

/-- The date and time that a clock at the offset shows. -/
def wall (m : DateTime) : WallTime := m.utc.wallAhead m.offset.seconds

/-- The local date and time, when it lies in the calendar. -/
def local? (m : DateTime) : Option LocalDateTime := m.utc.ahead? m.offset.seconds

/-- The moment at which a clock at the offset shows a local time. -/
def ofLocal? (m : LocalDateTime) (offset : Offset) : Option DateTime :=
  (m.ahead? (-offset.seconds)).map (⟨·, offset⟩)

/-- The moment as local time and offset. With `zulu`, offset zero is `Z`. -/
def text (m : DateTime) (zulu : Bool) : List Char :=
  m.wall.text 'T' ++ m.offset.minuteText zulu

end DateTime

end Recast
