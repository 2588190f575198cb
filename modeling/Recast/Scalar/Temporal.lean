/-
Conversions into dates, times, moments, durations and offsets, and from them
into text and milliseconds. Values without an offset are placed in the zone of
the environment.
-/
import Recast.Scalar.Number
import Recast.Time.Reading
import Recast.Time.Span.Reading

namespace Recast.Scalar

/-! ## Text -/

/-- The text of a temporal value, as it is read back. -/
def temporalText? : Value → Option (List Char)
  | .date d => some d.toCivil.text
  | .localDateTime m => some (m.toWall.text 'T')
  | .dateTime m => some (m.text false)
  | .time t => some t.text
  | .instant m => some ((DateTime.mk m .utc).text true)
  | .duration s => some s.text
  | .zoneOffset o => some o.text
  | _ => none

def temporalToString : Conversion := .ofPure fun v call => do
  return .string (String.ofList (← expect (temporalText? v) v call.target))

/-- The value of a temporal type that a trimmed text stands for. The outer option tells whether
the type is read from text at all. -/
def readTemporal (zone : Offset) (cs : List Char) : Ty → Option (Option Value)
  | .date => some <|
    ((Time.readDate? cs).orElse fun _ =>
      (Time.readMomentIn? zone cs).bind fun m => Date.ofCivil? m.wall.date).map .date
  | .localDateTime => some <|
    ((Time.readLocal? cs).orElse fun _ =>
      (Time.readMoment? cs).bind DateTime.local?).map .localDateTime
  | .dateTime => some ((Time.readMomentIn? zone cs).map .dateTime)
  | .instant => some ((Time.readMomentIn? zone cs).map fun m => .instant m.utc)
  | .time => some ((Time.readClock? cs).map .time)
  | .duration => some ((Span.read? cs).map .duration)
  | .zoneOffset => some ((Offset.read? cs).map .zoneOffset)
  | _ => none

def textToTemporal : Conversion := .ofPure fun v call => do
  let text ← expect v.text? v call.target
  match ← expect (readTemporal call.env.zone (Text.trim text.toList) call.target) v call.target with
  | some value => pure value
  | none => throw (.invalidFormat call.target text .isoText)

/-! ## Moments -/

/-- The local time of a moment. One that leaves the calendar is out of range. -/
def localOf (m : DateTime) (target : Ty) : Except ConversionError LocalDateTime :=
  match m.local? with
  | some local_ => .ok local_
  | none => .error (.outOfRange (.moment m.utc) target)

/-- The local time and the moment of a temporal value in a zone. -/
def placed (zone : Offset) (v : Value) (target : Ty) :
    Except ConversionError (LocalDateTime × DateTime) :=
  let placeLocal (m : LocalDateTime) : Except ConversionError (LocalDateTime × DateTime) := do
    return (m, ← expect (DateTime.ofLocal? m zone) v target)
  let placeMoment (m : DateTime) : Except ConversionError (LocalDateTime × DateTime) := do
    return (← localOf m target, m)
  match v with
  | .date d => placeLocal ⟨d, .midnight⟩
  | .localDateTime m => placeLocal m
  | .dateTime m => placeMoment m
  | .instant m => placeMoment ⟨m, zone⟩
  | _ => .error (unsupported v target)

/-- A temporal value as another temporal type. A date has no time of day. -/
def moveTemporal (zone : Offset) (v : Value) (target : Ty) : Except ConversionError Value := do
  let (local_, moment) ← placed zone v target
  match target, v with
  | .date, _ => return .date local_.date
  | .localDateTime, _ => return .localDateTime local_
  | .dateTime, _ => return .dateTime moment
  | .instant, _ => return .instant moment.utc
  | .time, .date _ => throw (unsupported v target)
  | .time, _ => return .time local_.time
  | _, _ => throw (unsupported v target)

def temporalToTemporal : Conversion := .ofPure fun v call =>
  moveTemporal call.env.zone v call.target

/-! ## Milliseconds -/

/-- A number of milliseconds, within 64 bits. -/
def millisOf (v : Value) (target : Ty) : Except ConversionError Int := do
  let millis ← (← expect (Numeric.of? v) v target).truncated target
  if Width.long.Holds millis then pure millis else throw (.outOfRange (.integer millis) target)

/-- Milliseconds as a duration, or since 1970 as a point in time. -/
def millisToTemporal : Conversion := .ofPure fun v call => do
  let target := call.target
  let millis ← millisOf v target
  let outOfRange := ConversionError.outOfRange (.integer millis) target
  if target = .duration then
    match Span.of? (millis * 1000000) with
    | some s => pure (.duration s)
    | none => throw outOfRange
  else
    match LocalDateTime.ofMillis? millis with
    | some m => moveTemporal call.env.zone (.instant m) target
    | none => throw outOfRange

/-- Milliseconds since 1970, since midnight, or in a duration. -/
def millis? (zone : Offset) : Value → Option Int
  | .date d => (DateTime.ofLocal? ⟨d, .midnight⟩ zone).map (·.utc.millis)
  | .localDateTime m => (DateTime.ofLocal? m zone).map (·.utc.millis)
  | .dateTime m => some m.utc.millis
  | .instant m => some m.millis
  | .time t => some (t.seconds * 1000 + t.nano / 1000000 : Nat)
  | .duration s => some s.millis
  | _ => none

def temporalToMillis : Conversion := .ofPure fun v call => do
  let millis ← expect (millis? call.env.zone v) v call.target
  Numeric.integralValue .long millis

/-! ## Offsets -/

def offsetOf : Conversion := .ofPure fun v call =>
  match v with
  | .dateTime m => .ok (.zoneOffset m.offset)
  | v => .error (unsupported v call.target)

end Recast.Scalar
