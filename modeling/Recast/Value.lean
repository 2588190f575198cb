/-
Runtime values, and the type of each.

An array has a declared component type, which its elements need not respect. A
collection has its own type and its elements in iteration order. An object has
a type name and named fields in order.
-/
import Recast.EnumSet
import Recast.Number.Binary
import Recast.Number.Decimal
import Recast.Time.Moment
import Recast.Time.Span

namespace Recast

/-- A runtime value. -/
inductive Value
  | null
  | boolean (b : Bool)
  | char (c : Char)
  | integral (n : Integral)
  | float (x : Binary .single)
  | double (x : Binary .double)
  | decimal (d : Decimal)
  | string (s : String)
  | stringBuilder (s : String)
  | date (d : Date)
  | localDateTime (m : LocalDateTime)
  | dateTime (m : DateTime)
  | time (t : Clock)
  /-- A moment in UTC. -/
  | instant (m : LocalDateTime)
  | duration (s : Span)
  | zoneOffset (o : Offset)
  /-- A language tag. -/
  | locale (tag : String)
  | typeRef (t : Ty)
  | enum (c : Constant)
  | enumSet (s : EnumSet)
  | array (component : Ty) (elements : List Value)
  | collection (type : CollectionTy) (elements : List Value)
  | object (typeName : String) (fields : List (String × Value))

namespace Value

/-- The type of a value. -/
def ty : Value → Ty
  | .null => .null
  | .boolean _ => .boolean
  | .char _ => .char
  | .integral n => .integral n.width
  | .float _ => .float
  | .double _ => .double
  | .decimal _ => .decimal
  | .string _ => .string
  | .stringBuilder _ => .stringBuilder
  | .date _ => .date
  | .localDateTime _ => .localDateTime
  | .dateTime _ => .dateTime
  | .time _ => .time
  | .instant _ => .instant
  | .duration _ => .duration
  | .zoneOffset _ => .zoneOffset
  | .locale _ => .locale
  | .typeRef _ => .typeRef
  | .enum c => .enum c.type
  | .enumSet s => .enumSet s.type
  | .array component _ => .array component
  | .collection type _ => .collection type
  | .object typeName _ => .named typeName

def isNull : Value → Bool
  | .null => true
  | _ => false

/-- Values that can be edited in place, and are therefore copied where others are shared. -/
def isMutable : Value → Bool
  | .stringBuilder _ | .array _ _ | .enumSet _ | .object _ _ => true
  | .collection type _ => !type.isReadOnly
  | _ => false

/-- Values that hold elements. -/
def isContainer : Value → Bool
  | .array _ _ | .collection _ _ | .enumSet _ => true
  | _ => false

/-- The text of a string or a string builder. -/
def text? : Value → Option String
  | .string s | .stringBuilder s => some s
  | _ => none

/-- The elements of a container in iteration order; an enum set holds its constants. -/
def elements? : Value → Option (List Value)
  | .array _ es | .collection _ es => some es
  | .enumSet s => some (s.constants.map .enum)
  | _ => none

/-- The field of an object. -/
def field? (name : String) : Value → Option Value
  | .object _ fields => fields.lookup name
  | _ => none

/-- The growable list of some elements. -/
def list (elements : List Value) : Value := .collection (.concrete .arrayList) elements

@[simp] theorem ty_eq_null_iff {v : Value} : v.ty = .null ↔ v = .null := by
  cases v <;> simp [ty]

theorem isNull_iff {v : Value} : v.isNull ↔ v = .null := by
  cases v <;> simp [isNull]

theorem isContainer_ty (v : Value) : v.ty.isContainer = v.isContainer := by
  cases v <;> rfl

end Value

/-! ## Fields -/

/-- Puts a field, in the place of one of that name or at the end. -/
def putField (name : String) (value : Value) : List (String × Value) → List (String × Value)
  | [] => [(name, value)]
  | (n, v) :: fields =>
    if n = name then (n, value) :: fields else (n, v) :: putField name value fields

/-- The fields of a list of names and values: a repeated name keeps its first place and takes its
last value. -/
def fieldsOf (pairs : List (String × Value)) : List (String × Value) :=
  pairs.foldl (fun fields (name, value) => putField name value fields) []

end Recast
