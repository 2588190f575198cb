/-
The types of runtime values: scalars, enums, arrays, collections, enum sets
and the object types a caller names.

Two types are the same exactly when they are built the same way; an enum type
is its definition, name and constants together. `Ty.name` is what error
messages and the text of a type reference show. It does not tell every two
types apart: an enum type and a named type may share a name.
-/
import Recast.Number.Integral

namespace Recast

/-! ## Enum types -/

/-- An enum type: its name, and its constants in ordinal order. -/
structure EnumType where
  name : String
  constants : List String
deriving DecidableEq, Repr

namespace EnumType

/-- The ordinal of the first constant of that name. -/
def ordinal? (E : EnumType) (name : String) : Option Nat := E.constants.idxOf? name

/-- The name of the constant at an ordinal. -/
def constant? (E : EnumType) (ordinal : Nat) : Option String := E.constants[ordinal]?

end EnumType

/-! ## Collection types -/

/-- The interfaces of collections. -/
inductive Shape
  | collection | list | set | sortedSet
deriving DecidableEq, Repr

namespace Shape

/-- All shapes, the most general first. -/
def all : List Shape := [.collection, .list, .set, .sortedSet]

def name : Shape → String
  | .collection => "Collection"
  | .list => "List"
  | .set => "Set"
  | .sortedSet => "SortedSet"

/-- The shape that a shape directly extends. -/
def parent? : Shape → Option Shape
  | .collection => none
  | .list | .set => some .collection
  | .sortedSet => some .set

/-- `s.Accepts t`: a collection of shape `t` may stand where one of shape `s` is asked for. -/
def accepts : Shape → Shape → Bool
  | .collection, _ => true
  | .list, t => t = .list
  | .set, t => t = .set || t = .sortedSet
  | .sortedSet, t => t = .sortedSet

end Shape

/-- The collection implementations. -/
inductive Concrete
  | arrayList | hashSet | linkedHashSet | treeSet | caseInsensitiveSet | concurrentList
  | concurrentSet
deriving DecidableEq, Repr

namespace Concrete

def all : List Concrete :=
  [.arrayList, .hashSet, .linkedHashSet, .treeSet, .caseInsensitiveSet, .concurrentList,
   .concurrentSet]

def name : Concrete → String
  | .arrayList => "ArrayList"
  | .hashSet => "HashSet"
  | .linkedHashSet => "LinkedHashSet"
  | .treeSet => "TreeSet"
  | .caseInsensitiveSet => "CaseInsensitiveSet"
  | .concurrentList => "ConcurrentList"
  | .concurrentSet => "ConcurrentSet"

/-- The shape that an implementation provides. -/
def shape : Concrete → Shape
  | .arrayList | .concurrentList => .list
  | .hashSet | .linkedHashSet | .caseInsensitiveSet | .concurrentSet => .set
  | .treeSet => .sortedSet

/-- The implementations made for use by several threads. -/
def isConcurrent : Concrete → Bool
  | .concurrentList | .concurrentSet => true
  | _ => false

end Concrete

/-- The implementation used where only a shape is asked for. -/
def Shape.default : Shape → Concrete
  | .collection | .list => .arrayList
  | .set => .linkedHashSet
  | .sortedSet => .treeSet

/-! ## Types -/

mutual

/-- The type of a runtime value, or a type that only stands above others. -/
inductive Ty
  /-- The type above every type but that of null. -/
  | any
  /-- The type of null. -/
  | null
  /-- The type above every numeric type. -/
  | number
  /-- The type above every enum type. -/
  | anyEnum
  /-- Capability: values have a natural order. -/
  | comparable
  /-- Capability: values are readable text. -/
  | charSequence
  /-- Capability: values lie on the time line. -/
  | temporal
  | boolean
  | char
  | integral (width : Width)
  | float
  | double
  | decimal
  | string
  /-- Text that can be edited. -/
  | stringBuilder
  | date
  /-- Date and time of day, with no zone. -/
  | localDateTime
  /-- Date and time of day at an offset. -/
  | dateTime
  | time
  | instant
  | duration
  | zoneOffset
  | locale
  /-- The type of values that refer to a type. -/
  | typeRef
  | enum (type : EnumType)
  | array (component : Ty)
  | collection (type : CollectionTy)
  | enumSet (type : EnumType)
  /-- An object type known by its name. -/
  | named (name : String)

/-- The type of a collection. -/
inductive CollectionTy
  /-- An interface; no value has it as its own type. -/
  | interface (shape : Shape)
  | concrete (kind : Concrete)
  /-- A wrapper around a collection of a shape. -/
  | wrapped (wrapper : Wrapper) (shape : Shape)

/-- What a wrapper adds to the collection it holds. -/
inductive Wrapper
  /-- Refuses every change. -/
  | unmodifiable
  | synchronized
  /-- Refuses elements that are not instances of the element type. -/
  | checked (element : Ty)
  /-- Holds nothing, and refuses every change. -/
  | empty

end

deriving instance DecidableEq, Repr for Ty, CollectionTy, Wrapper

/-- A wrapper that refuses every change. -/
def Wrapper.isReadOnly : Wrapper → Bool
  | .unmodifiable | .empty => true
  | _ => false

namespace CollectionTy

/-- The shape of the collections of a type. -/
def shape : CollectionTy → Shape
  | .interface s | .wrapped _ s => s
  | .concrete c => c.shape

def wrapper? : CollectionTy → Option Wrapper
  | .wrapped w _ => some w
  | _ => none

/-- The element type that a checked wrapper asks for. -/
def checked? : CollectionTy → Option Ty
  | .wrapped (.checked element) _ => some element
  | _ => none

def isInterface : CollectionTy → Bool
  | .interface _ => true
  | _ => false

/-- Collections of the type refuse every change. -/
def isReadOnly (k : CollectionTy) : Bool := k.wrapper?.any Wrapper.isReadOnly

/-- The type that holds the values asked for at a type: for an interface its default
implementation, for anything else the type itself. -/
def instantiable : CollectionTy → CollectionTy
  | .interface s => .concrete s.default
  | k => k

@[simp] theorem instantiable_instantiable (k : CollectionTy) :
    k.instantiable.instantiable = k.instantiable := by
  cases k <;> rfl

@[simp] theorem shape_instantiable_collection :
    (interface .collection).instantiable.shape = .list := rfl

theorem isInterface_instantiable (k : CollectionTy) : k.instantiable.isInterface = false := by
  cases k <;> rfl

end CollectionTy

namespace Ty

/-! ## Names -/

/-- The name of a type. -/
def name : Ty → String
  | .any => "Any"
  | .null => "Null"
  | .number => "Number"
  | .anyEnum => "Enum"
  | .comparable => "Comparable"
  | .charSequence => "CharSequence"
  | .temporal => "Temporal"
  | .boolean => "Boolean"
  | .char => "Char"
  | .integral w => w.name
  | .float => "Float"
  | .double => "Double"
  | .decimal => "BigDecimal"
  | .string => "String"
  | .stringBuilder => "StringBuilder"
  | .date => "Date"
  | .localDateTime => "LocalDateTime"
  | .dateTime => "DateTime"
  | .time => "Time"
  | .instant => "Instant"
  | .duration => "Duration"
  | .zoneOffset => "ZoneOffset"
  | .locale => "Locale"
  | .typeRef => "Type"
  | .enum E => E.name
  | .array component => component.name ++ "[]"
  | .collection (.interface s) => s.name
  | .collection (.concrete c) => c.name
  | .collection (.wrapped .unmodifiable s) => "Unmodifiable<" ++ s.name ++ ">"
  | .collection (.wrapped .synchronized s) => "Synchronized<" ++ s.name ++ ">"
  | .collection (.wrapped (.checked element) s) =>
    "Checked<" ++ s.name ++ ", " ++ element.name ++ ">"
  | .collection (.wrapped .empty s) => "Empty<" ++ s.name ++ ">"
  | .enumSet E => "EnumSet<" ++ E.name ++ ">"
  | .named n => n

/-! ## Classes of types -/

def isIntegral : Ty → Bool
  | .integral _ => true
  | _ => false

/-- The numeric types, the one above them included. -/
def isNumeric : Ty → Bool
  | .integral _ | .float | .double | .decimal | .number => true
  | _ => false

/-- The types of points on the time line and of times of day. -/
def isTemporal : Ty → Bool
  | .date | .localDateTime | .dateTime | .time | .instant => true
  | _ => false

/-- The types of values that hold elements. -/
def isContainer : Ty → Bool
  | .array _ | .collection _ | .enumSet _ => true
  | _ => false

def component? : Ty → Option Ty
  | .array component => some component
  | _ => none

/-- The type whose conversions serve a type that has none of its own: every enum type shares
those into `anyEnum`. -/
def family? : Ty → Option Ty
  | .enum _ => some .anyEnum
  | _ => none

/-- The array type with `depth` levels over a component. -/
def arrayOf (component : Ty) : (depth : Nat) → Ty
  | 0 => component
  | depth + 1 => .array (arrayOf component depth)

end Ty

/-- The name of a collection type. -/
def CollectionTy.name (k : CollectionTy) : String := (Ty.collection k).name

end Recast
