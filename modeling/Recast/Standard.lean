/-
The standard registry: the conversions between scalars, and between text and
arrays of bytes or characters. Containers need no entries, they are reshaped.

The conversions are listed in the order they are registered: into and from
enums, numbers, text, times, and from null. Within a family narrower sources
come first.
-/
import Recast.Scalar.Enum
import Recast.Scalar.Null
import Recast.Scalar.Temporal
import Recast.Scalar.Text

namespace Recast.Standard

open Scalar

/-- A conversion and the pair it is registered for. -/
structure Item where
  source : Ty
  target : Ty
  conversion : Conversion

def integralTypes : List Ty := Width.all.map .integral

/-- The numeric types in the order their conversions are registered. -/
def numericTypes : List Ty :=
  [.integral .byte, .integral .short, .integral .integer, .integral .long, .float, .double,
   .integral .bigInteger, .decimal]

def temporalTypes : List Ty := [.date, .localDateTime, .dateTime, .time, .instant]

/-- Types that null is a value of. -/
def nullableTypes : List Ty :=
  [.any, .string, .stringBuilder, .date, .localDateTime, .dateTime, .time, .instant, .duration,
   .typeRef, .anyEnum, .number]

def enumItems : List Item :=
  [⟨.anyEnum, .anyEnum, enumToEnum⟩, ⟨.charSequence, .anyEnum, nameToEnum⟩,
   ⟨.number, .anyEnum, ordinalToEnum⟩, ⟨.anyEnum, .string, enumToName⟩,
   ⟨.anyEnum, .typeRef, enumToType⟩] ++
  integralTypes.map fun t => ⟨.anyEnum, t, enumToOrdinal⟩

def numberItems : List Item :=
  numericTypes.flatMap fun t =>
    [⟨.boolean, t, booleanToNumber⟩, ⟨.char, t, charToNumber⟩, ⟨.charSequence, t, textToNumber⟩,
     ⟨.number, t, numberToNumber⟩]

def textItems : List Item :=
  [⟨.boolean, .string, scalarToString⟩, ⟨.char, .string, scalarToString⟩,
   ⟨.number, .string, scalarToString⟩, ⟨.stringBuilder, .string, scalarToString⟩,
   ⟨.locale, .string, scalarToString⟩, ⟨.typeRef, .string, scalarToString⟩,
   ⟨.array (.integral .byte), .string, bytesToString⟩, ⟨.array .char, .string, charsToString⟩,
   ⟨.charSequence, .stringBuilder, textToBuilder⟩,
   ⟨.charSequence, .array (.integral .byte), textToBytes⟩,
   ⟨.charSequence, .array .char, textToChars⟩,
   ⟨.char, .boolean, charToBoolean⟩, ⟨.charSequence, .boolean, textToBoolean⟩,
   ⟨.number, .boolean, numberToBoolean⟩,
   ⟨.boolean, .char, booleanToChar⟩, ⟨.charSequence, .char, textToChar⟩,
   ⟨.number, .char, numberToChar⟩,
   ⟨.charSequence, .locale, textToLocale⟩, ⟨.charSequence, .typeRef, textToType⟩]

def temporalItems : List Item :=
  (temporalTypes.flatMap fun t =>
    [⟨.temporal, t, temporalToTemporal⟩, ⟨.charSequence, t, textToTemporal⟩] ++
      if t = .time then [] else [⟨.number, t, millisToTemporal⟩]) ++
  [⟨.charSequence, .duration, textToTemporal⟩, ⟨.number, .duration, millisToTemporal⟩,
   ⟨.dateTime, .zoneOffset, offsetOf⟩, ⟨.charSequence, .zoneOffset, textToTemporal⟩,
   ⟨.temporal, .integral .long, temporalToMillis⟩, ⟨.duration, .integral .long, temporalToMillis⟩,
   ⟨.temporal, .string, temporalToString⟩, ⟨.duration, .string, temporalToString⟩,
   ⟨.zoneOffset, .string, temporalToString⟩]

def nullItems : List Item :=
  numericTypes.map (fun t => ⟨.null, t, nullToZero⟩) ++
  [⟨.null, .boolean, nullToZero⟩, ⟨.null, .char, nullToZero⟩, ⟨.null, .zoneOffset, nullToZone⟩,
   ⟨.null, .locale, nullToLocale⟩] ++
  nullableTypes.map fun t => ⟨.null, t, nullToNull⟩

/-- Every standard conversion, in the order of registration. -/
def items : List Item := enumItems ++ numberItems ++ textItems ++ temporalItems ++ nullItems

/-- Registers conversions one after the other, up to the first that is refused; the draft holds
those before it. -/
def registerItems : List Item → Draft → Draft × Option RegistryError
  | [], d => (d, none)
  | i :: is, d =>
    match d.register i.source i.target i.conversion with
    | .ok d => registerItems is d
    | .error e => (d, some e)

/-- Registers the standard conversions. -/
def registerAll (d : Draft) : Draft × Option RegistryError := registerItems items d

/-- A draft with the standard conversions. -/
def draft : Draft := (registerAll .empty).1

/-- The standard conversions can be registered together. -/
theorem registerAll_empty : (registerAll .empty).2 = none := by decide +kernel

theorem fault?_draft : draft.fault? = none := by decide +kernel

/-- The standard registry. -/
def registry : Registry := ⟨draft, fault?_draft⟩

end Recast.Standard
