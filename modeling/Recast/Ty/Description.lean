/-
The description of a type: how it is built, constructor by constructor.

Unlike its name, the description of a type tells it from every other type.
`Ty.tag` is the constructor alone, which is also how stored values name their
types.
-/
import Recast.Text.Quoted
import Recast.Ty

namespace Recast

namespace Ty

/-- The constructor of a type. -/
def tag : Ty → String
  | .any => "Any"
  | .null => "Null"
  | .number => "Number"
  | .anyEnum => "AnyEnum"
  | .comparable => "Comparable"
  | .charSequence => "CharSequence"
  | .temporal => "Temporal"
  | .boolean => "Boolean"
  | .char => "Char"
  | .integral w => w.name
  | .float => "Float"
  | .double => "Double"
  | .decimal => "BigDecimal"
  | .string => "String"
  | .stringBuilder => "StringBuilder"
  | .date => "Date"
  | .localDateTime => "LocalDateTime"
  | .dateTime => "DateTime"
  | .time => "Time"
  | .instant => "Instant"
  | .duration => "Duration"
  | .zoneOffset => "ZoneOffset"
  | .locale => "Locale"
  | .typeRef => "TypeRef"
  | .enum _ => "Enum"
  | .array _ => "Array"
  | .collection _ => "Collection"
  | .enumSet _ => "EnumSet"
  | .named _ => "Named"

/-- The types that have no parts. -/
def simple : List Ty :=
  [.any, .null, .number, .anyEnum, .comparable, .charSequence, .temporal, .boolean, .char] ++
    Width.all.map .integral ++
    [.float, .double, .decimal, .string, .stringBuilder, .date, .localDateTime, .dateTime, .time,
     .instant, .duration, .zoneOffset, .locale, .typeRef]

/-- The type without parts of a tag. -/
def ofTag? (tag : String) : Option Ty := simple.find? fun t => t.tag = tag

theorem ofTag?_tag : ∀ t ∈ simple, ofTag? t.tag = some t := by decide

end Ty

/-- A list in brackets. -/
def bracketed (parts : List String) : String := "[" ++ ", ".intercalate parts ++ "]"

/-- A constructor with its arguments. -/
def applied (constructor : String) (arguments : List String) : String :=
  constructor ++ "(" ++ ", ".intercalate arguments ++ ")"

/-- A constructor with named arguments; an `open_` one has others that are not shown. -/
def withFields (constructor : String) (fields : List (String × String)) (open_ : Bool) : String :=
  let shown := fields.map fun (name, value) => name ++ ": " ++ value
  constructor ++ " \x7b " ++ ", ".intercalate (if open_ then shown ++ [".."] else shown) ++ " \x7d"

def EnumType.description (E : EnumType) : String :=
  applied "EnumType"
    [withFields "EnumDef"
      [("name", Text.quoted E.name), ("constants", bracketed (E.constants.map Text.quoted))] false]

mutual

/-- How a type is built. -/
def Ty.description : Ty → String
  | .enum E => applied "Enum" [E.description]
  | .enumSet E => applied "EnumSet" [E.description]
  | .array component => applied "Array" [component.description]
  | .collection k => applied "Collection" [k.description]
  | .named name => applied "Named" [Text.quoted name]
  | t => t.tag

/-- How a collection type is built. -/
def CollectionTy.description : CollectionTy → String
  | .interface s => applied "Interface" [s.name]
  | .concrete c => applied "Concrete" [c.name]
  | .wrapped w s => applied "Wrapped" [w.description, s.name]

/-- How a wrapper is built. -/
def Wrapper.description : Wrapper → String
  | .unmodifiable => "Unmodifiable"
  | .synchronized => "Synchronized"
  | .checked element => applied "Checked" [element.description]
  | .empty => "Empty"

end

end Recast
