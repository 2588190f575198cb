/-
Values as JSON.

A value is an object of its tag, `type`, and its content, `value`, which is
missing for null. Reading takes the two in either order, or as an array, and
skips other members. A content that stands before its tag is read late, when
the tag is known; then no part of it may be unreadable, it cannot hold integers
of 128 bits, and an array in it may name a tag by its place among the tags.
-/
import Recast.Collection
import Recast.Json
import Recast.Number.Binary.Shortest
import Recast.Number.Decimal.Reading
import Recast.Stored.Ty
import Recast.Time.Reading

namespace Recast

/-! ## Writing -/

def Constant.toJson (c : Constant) : Json :=
  .object [("enum_type", c.type.toJson), ("ordinal", .ofInt c.ordinal)]

def EnumSet.toJson (s : EnumSet) : Json :=
  let members := s.members.map fun n : Nat => Json.ofInt n
  .object [("enum_type", s.type.toJson), ("members", .array members)]

/-- A span as whole seconds and nanoseconds of one sign. -/
def Span.toJson (s : Span) : Json := .array [.ofInt s.wholeSeconds, .ofInt s.subNanos]

/-- Characters as a JSON string. -/
def Json.ofChars (cs : List Char) : Json := .string (String.ofList cs)

namespace Value

/-- The tag of a stored value: that of its type, but all objects have the same. -/
def tag : Value → String
  | .object _ _ => "Object"
  | v => v.ty.tag

/-- The tags of stored values, by the rank of the values. -/
def tags : List String :=
  ["Null", "Boolean", "Char", "Byte", "Short", "Integer", "Long", "Float", "Double", "BigInteger",
   "BigDecimal", "String", "StringBuilder", "Date", "LocalDateTime", "DateTime", "Time", "Instant",
   "Duration", "ZoneOffset", "Locale", "TypeRef", "Enum", "EnumSet", "Array", "Collection",
   "Object"]

theorem tags_rank (v : Value) : tags[v.rank]? = some v.tag := by
  cases v <;> try rfl
  case integral n => obtain ⟨w, x, h⟩ := n; cases w <;> rfl

/-- The content of a value that holds no others. -/
def scalarJson : Value → Json
  | .boolean b => .bool b
  | .char c => .ofChars [c]
  | .integral n => .ofInt n.val
  | .float x => .real .single x
  | .double x => .real .double x
  | .decimal d => .string d.text
  | .string s | .stringBuilder s | .locale s => .string s
  | .date d => .ofChars d.toCivil.text
  | .localDateTime m => .ofChars (m.toWall.text 'T')
  | .dateTime m => .ofChars (m.text true)
  | .time t => .ofChars t.text
  | .instant m => .ofChars ((DateTime.mk m .utc).text true)
  | .duration s => s.toJson
  | .zoneOffset o => .ofInt o.seconds
  | .typeRef t => t.toJson
  | .enum c => c.toJson
  | .enumSet s => s.toJson
  | _ => .null

/-- A tag with the content of a value. -/
def stored (tag : String) (content : Json) : Json :=
  .object [("type", .string tag), ("value", content)]

mutual

def toJson : Value → Json
  | .null => .object [("type", .string "Null")]
  | .array component elements =>
    stored "Array"
      (.object [("component", component.toJson), ("elements", .array (toJsons elements))])
  | .collection type elements =>
    stored "Collection"
      (.object [("kind", type.toJson), ("elements", .array (toJsons elements))])
  | .object typeName fields =>
    stored "Object"
      (.object [("type_name", .string typeName), ("fields", .object (fieldJsons fields))])
  | v => stored v.tag v.scalarJson
termination_by structural v => v

def toJsons : List Value → List Json
  | [] => []
  | v :: vs => toJson v :: toJsons vs
termination_by structural vs => vs

def fieldJsons : List (String × Value) → List (String × Json)
  | [] => []
  | (name, v) :: fields => (name, toJson v) :: fieldJsons fields
termination_by structural fields => fields

end

end Value

/-! ## Reading scalars -/

/-- An integer of at most 32 bits without a sign. -/
def Json.ordinal? (j : Json) : Option Nat :=
  j.int?.bind fun n => if 0 ≤ n ∧ n < 2 ^ 32 then some n.toNat else none

/-- An integer that a width holds. -/
def Integral.ofJson? (late : Bool) (w : Width) (j : Json) : Option Integral :=
  if w = .bigInteger then if late then none else j.wide?.bind (ofInt? w)
  else j.int?.bind (ofInt? w)

/-- A decimal from its text, or from a number by the text of that number. -/
def Decimal.ofJson? (j : Json) : Option Decimal :=
  match j.text? with
  | some s => (readAny s.toList).toOption
  | none =>
    match j.int? with
    | some n => ofInt? n
    | none => (j.binary? .double).bind fun x => (read (FloatStyle.plain.render x).toList).toOption

/-- A span from whole seconds and nanoseconds. The seconds alone must be a span too. -/
def Span.ofJson? (j : Json) : Option Span := do
  let [seconds, nanos] ← j.items? | none
  let seconds ← Integral.ofJson? false .long seconds
  let nanos ← Integral.ofJson? false .integer nanos
  let whole ← of? (seconds.val * 1000000000)
  of? (whole.nanos + nanos.val)

def Offset.ofJson? (j : Json) : Option Offset := j.int?.bind of?

def Constant.ofJson? (j : Json) : Option Constant := do
  let [type, ordinal] ← j.fields? ["enum_type", "ordinal"] | none
  pure ⟨← EnumType.ofJson? type, ← ordinal.ordinal?⟩

def EnumSet.ofJson? (j : Json) : Option EnumSet := do
  let [type, members] ← j.fields? ["enum_type", "members"] | none
  let ordinals ← (← members.items?).mapM Json.ordinal?
  pure (ordinals.foldl insertOrdinal (empty (← EnumType.ofJson? type)))

namespace Value

/-- Reads a value that holds no others, of the type with this tag. -/
def scalarOfJson? (late : Bool) (tag : String) (j : Json) : Option Value :=
  let chars? := j.text?.map String.toList
  match Ty.ofTag? tag with
  | some .boolean => match j with
    | .bool b => some (.boolean b)
    | _ => none
  | some .char => match chars? with
    | some [c] => some (.char c)
    | _ => none
  | some (.integral w) => (Integral.ofJson? late w j).map .integral
  | some .float => (j.binary? .single).map .float
  | some .double => (j.binary? .double).map .double
  | some .decimal => (Decimal.ofJson? j).map .decimal
  | some .string => j.text?.map .string
  | some .stringBuilder => j.text?.map .stringBuilder
  | some .locale => j.text?.map .locale
  | some .date => (chars?.bind Time.readSpacedDate?).map .date
  | some .localDateTime => (chars?.bind Time.readSpacedLocal?).map .localDateTime
  | some .dateTime => (chars?.bind Time.readSpacedMoment?).map .dateTime
  | some .time => (chars?.bind Time.readSpacedClock?).map .time
  | some .instant => (chars?.bind Time.readSpacedMoment?).map fun m => .instant m.utc
  | some .duration => (Span.ofJson? j).map .duration
  | some .zoneOffset => (Offset.ofJson? j).map .zoneOffset
  | some .typeRef => (Ty.ofJson? late j).map .typeRef
  | _ =>
    if tag = "Enum" then (Constant.ofJson? j).map .enum
    else if tag = "EnumSet" then (EnumSet.ofJson? j).map .enumSet
    else none

end Value

/-! ## Reading values -/

/-- A tag, the content if there is one, and whether the content is read late. -/
structure Labelled where
  tag : String
  content : Option Json
  late : Bool

namespace Labelled

/-- The tag at the head of an array: the text itself, or its place among the tags where the
document is read late. -/
def headTag? (late : Bool) : Json → Option String
  | .string tag => some tag
  | .integer false n => if late then Value.tags[n]? else none
  | _ => none

/-- Takes a stored value apart: an object with each of the two members at most once, or an array
of tag and content. -/
def of? (late : Bool) : Json → Option Labelled
  | .array [tag, content] => (headTag? late tag).map (⟨·, some content, late⟩)
  | .object members =>
    match members.filter fun (name, _) => name = "type" || name = "value" with
    | [("type", tag)] => (tag.bareTag? late).map (⟨·, none, late⟩)
    | [("type", tag), ("value", content)] => (tag.bareTag? late).map (⟨·, some content, late⟩)
    | [("value", content), ("type", tag)] =>
      if content.isReadable then (tag.bareTag? late).map (⟨·, some content, true⟩) else none
    | _ => none
  | _ => none

end Labelled

namespace Value

/-- Reads a value that is not nested deeper than the fuel. -/
def read? : (fuel : Nat) → (late : Bool) → Json → Option Value
  | 0, _, _ => none
  | fuel + 1, late, j => do
    let ⟨tag, content, late⟩ ← Labelled.of? late j
    match tag, content with
    | "Null", none | "Null", some .null => pure .null
    | "Null", some _ | _, none => none
    | "Array", some content => do
      let [component, elements] ← content.fields? ["component", "elements"] | none
      pure (.array (← Ty.ofJson? late component)
        (← (← elements.items?).mapM (read? fuel late)))
    | "Collection", some content => do
      let [type, elements] ← content.fields? ["kind", "elements"] | none
      let elements ← (← elements.items?).mapM (read? fuel late)
      let c ← (Collection.ofElements (← CollectionTy.ofJson? late type) elements).toOption
      pure c.toValue
    | "Object", some content => do
      let [typeName, fields] ← content.fields? ["type_name", "fields"] | none
      let fields ← (← fields.members?).mapM fun (name, j) => return (name, ← read? fuel late j)
      pure (.object (← typeName.text?) (fieldsOf fields))
    | tag, some content => scalarOfJson? late tag content

/-- Reads a stored value. -/
def ofJson? (j : Json) : Option Value := read? (j.height + 1) false j

end Value

end Recast
