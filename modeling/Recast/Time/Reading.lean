/-
Reading dates, times and moments.

A pattern is a list of items: numbers, which skip blanks in front of them,
literal characters, blanks, and the fraction of a second. A text is read when
the pattern takes all of it and the numbers make a date or a time. Moments
with an offset have a grammar of their own with fixed widths.
-/
import Recast.Text.Blank
import Recast.Time.Moment

namespace Recast.Time

/-- The numbers read so far. -/
structure Fields where
  year : Int := 0
  month : Nat := 0
  day : Nat := 0
  hour : Nat := 0
  minute : Nat := 0
  second : Nat := 0
  nano : Nat := 0

namespace Fields

def date? (f : Fields) : Option Date := Date.ofCivil? ⟨f.year, f.month, f.day⟩

/-- The time of day. Second 60 is the leap second after 59, in any minute. -/
def clock? (f : Fields) : Option Clock :=
  if f.hour < 24 && f.minute < 60 && f.second ≤ 60 then
    if f.second = 60 then
      Clock.of? (f.hour * 3600 + f.minute * 60 + 59) (f.nano + 1000000000)
    else Clock.of? (f.hour * 3600 + f.minute * 60 + f.second) f.nano
  else none

def local? (f : Fields) : Option LocalDateTime := do
  let date ← f.date?
  let time ← f.clock?
  pure ⟨date, time⟩

end Fields

/-- A piece of a pattern. -/
inductive Item
  /-- A sign and any number of digits, or up to four digits. -/
  | year
  | month | day | hour | minute | second
  /-- Nothing, or a point and at least one digit. -/
  | fraction
  | literal (c : Char)
  /-- Any number of blanks. -/
  | blanks
deriving DecidableEq, Repr

/-- A number of `least` to `most` digits at the front of a text. -/
def number? (least most : Nat) (cs : List Char) : Option (Nat × List Char) :=
  let digits := (cs.takeWhile Text.isDigit).take most
  if digits.length < least then none
  else some (Text.natOfDigits digits, cs.drop digits.length)

/-- A signed number of any length, or an unsigned one of up to four digits. -/
def year? (cs : List Char) : Option (Int × List Char) :=
  match cs with
  | '-' :: rest => (number? 1 rest.length rest).map fun (n, rest) => (-(n : Int), rest)
  | '+' :: rest => (number? 1 rest.length rest).map fun (n, rest) => ((n : Int), rest)
  | _ => (number? 1 4 cs).map fun (n, rest) => ((n : Int), rest)

/-- Nothing, or a point and digits, of which the first nine count. -/
def fraction? (cs : List Char) : Option (Nat × List Char) :=
  match cs with
  | '.' :: rest =>
    let (digits, rest) := Text.spanDigits rest
    if digits = [] then none
    else
      let kept := digits.take 9
      some (Text.natOfDigits kept * 10 ^ (9 - kept.length), rest)
  | _ => some (0, cs)

/-- Reads one item at the front of a text. -/
def Item.read? (item : Item) (f : Fields) (cs : List Char) : Option (Fields × List Char) :=
  let two := number? 1 2 (Text.trimStart cs)
  match item with
  | .year => (year? (Text.trimStart cs)).map fun (n, rest) => ({ f with year := n }, rest)
  | .month => two.map fun (n, rest) => ({ f with month := n }, rest)
  | .day => two.map fun (n, rest) => ({ f with day := n }, rest)
  | .hour => two.map fun (n, rest) => ({ f with hour := n }, rest)
  | .minute => two.map fun (n, rest) => ({ f with minute := n }, rest)
  | .second => two.map fun (n, rest) => ({ f with second := n }, rest)
  | .fraction => (fraction? cs).map fun (n, rest) => ({ f with nano := n }, rest)
  | .literal c => if cs.head? = some c then some (f, cs.drop 1) else none
  | .blanks => some (f, Text.trimStart cs)

/-- Reads a pattern at the front of a text. -/
def readItems? : List Item → Fields → List Char → Option (Fields × List Char)
  | [], f, cs => some (f, cs)
  | item :: items, f, cs => (item.read? f cs).bind fun (f, rest) => readItems? items f rest

/-- Reads a text that a pattern takes whole. -/
def readAll? (items : List Item) (cs : List Char) : Option Fields :=
  match readItems? items {} cs with
  | some (f, []) => some f
  | _ => none

/-! ## Patterns -/

def dateItems : List Item := [.year, .literal '-', .month, .literal '-', .day]

def minuteItems : List Item := [.hour, .literal ':', .minute]

def secondItems : List Item := minuteItems ++ [.literal ':', .second, .fraction]

/-- The patterns of a local date and time, in the order they are tried. -/
def localPatterns : List (List Item) :=
  [dateItems ++ .literal 'T' :: secondItems, dateItems ++ .blanks :: secondItems,
   dateItems ++ .literal 'T' :: minuteItems, dateItems ++ .blanks :: minuteItems]

def readDate? (cs : List Char) : Option Date := (readAll? dateItems cs).bind Fields.date?

def readClock? (cs : List Char) : Option Clock :=
  [secondItems, minuteItems].findSome? fun items => (readAll? items cs).bind Fields.clock?

/-- A local date and time; a date alone is its midnight. -/
def readLocal? (cs : List Char) : Option LocalDateTime :=
  (localPatterns.findSome? fun items => (readAll? items cs).bind Fields.local?).orElse fun _ =>
    (readDate? cs).map (⟨·, .midnight⟩)

/-! ## Moments with an offset -/

/-- A character at the front of a text. -/
def char? (p : Char → Bool) (cs : List Char) : Option (List Char) :=
  match cs with
  | c :: rest => if p c then some rest else none
  | [] => none

/-- A sign, two digits of hours, what `separator` takes, and two digits of minutes; or `Z`. The
minus sign may be the hyphen or U+2212. -/
def offset? (separator : List Char → Option (List Char)) (cs : List Char) :
    Option (Int × List Char) :=
  match cs with
  | [] => none
  | sign :: rest =>
    if sign = 'Z' || sign = 'z' then some (0, rest)
    else if sign = '+' || sign = '-' || sign = '−' then do
      let (hours, rest) ← number? 2 2 rest
      let rest ← separator rest
      let (minutes, rest) ← number? 2 2 rest
      if 60 ≤ minutes then none
      else
        let seconds : Int := hours * 3600 + minutes * 60
        pure (if sign = '+' then seconds else -seconds, rest)
    else none

/-- The moment of local fields at an offset in seconds. -/
def moment? (f : Fields) (seconds : Int) : Option DateTime := do
  let local_ ← f.local?
  let offset ← Offset.of? seconds
  DateTime.ofLocal? local_ offset

/-- A moment with fixed widths: a date, `T`, `t` or a space, a time with seconds, an offset. -/
def readMoment? (cs : List Char) : Option DateTime := do
  let colon := char? (· = ':')
  let hyphen := char? (· = '-')
  let (year, cs) ← number? 4 4 cs
  let (month, cs) ← number? 2 2 (← hyphen cs)
  let (day, cs) ← number? 2 2 (← hyphen cs)
  let cs ← char? (fun c => c = 'T' || c = 't' || c = ' ') cs
  let (hour, cs) ← number? 2 2 cs
  let (minute, cs) ← number? 2 2 (← colon cs)
  let (second, cs) ← number? 2 2 (← colon cs)
  let (nano, cs) ← fraction? cs
  let (seconds, cs) ← offset? colon cs
  if cs = [] then moment? ⟨year, month, day, hour, minute, second, nano⟩ seconds else none

/-- A moment with an offset, or a local date and time in a zone. -/
def readMomentIn? (zone : Offset) (cs : List Char) : Option DateTime :=
  (readMoment? cs).orElse fun _ => (readLocal? cs).bind (DateTime.ofLocal? · zone)

/-! ## The lenient grammar of stored values -/

/-- Blanks may stand before every separator. -/
def spacedDate : List Item :=
  [.year, .blanks, .literal '-', .month, .blanks, .literal '-', .day]

def spacedMinute : List Item := [.hour, .blanks, .literal ':', .minute]

def spacedSecond : List Item := [.blanks, .literal ':', .second, .fraction, .blanks]

def readSpacedDate? (cs : List Char) : Option Date :=
  (readAll? (spacedDate ++ [.blanks]) cs).bind Fields.date?

/-- A time of day; the seconds may be missing. -/
def readSpacedClock? (cs : List Char) : Option Clock := do
  let (f, rest) ← readItems? spacedMinute {} cs
  let (f, rest) := (readItems? spacedSecond f rest).getD (f, rest)
  if Text.trimStart rest = [] then f.clock? else none

def readSpacedLocal? (cs : List Char) : Option LocalDateTime :=
  (readAll? (spacedDate ++ [.blanks, .literal 'T'] ++ spacedMinute ++ spacedSecond) cs).bind
    Fields.local?

/-- A moment: date, `T`, `t` or a space, time with seconds, and an offset, which may also be `UTC`
in any case and may have colons or blanks between hours and minutes. Blanks may follow. -/
def readSpacedMoment? (cs : List Char) : Option DateTime := do
  let (f, cs) ← readItems? spacedDate {} cs
  let cs ← char? (fun c => c = 'T' || c = 't' || c = ' ') cs
  let (f, cs) ← readItems? (spacedMinute ++ spacedSecond) f cs
  let cs := Text.trimStart cs
  let (seconds, cs) ←
    if (cs.take 3).map Char.toLower = "utc".toList then some ((0 : Int), cs.drop 3)
    else offset? (fun cs => some (cs.dropWhile fun c => c = ':' || Text.isBlank c)) cs
  if Text.trimStart cs = [] then moment? f seconds else none

end Recast.Time
