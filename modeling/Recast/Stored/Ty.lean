/-
Types as JSON.

A type without parts is its tag, any other type an object of its tag and its
parts. Reading also takes a type without parts as an object, whose content is
nothing: null, or an empty object where the document is read `late`, that is
from inside a value that stands before its own tag.
-/
import Recast.Json
import Recast.Ty.Description

namespace Recast

/-! ## Writing -/

/-- A tag with its content. -/
def Json.tagged (tag : String) (content : Json) : Json := .object [(tag, content)]

def EnumType.toJson (E : EnumType) : Json :=
  .object [("name", .string E.name), ("constants", .array (E.constants.map .string))]

mutual

def Ty.toJson : Ty → Json
  | .enum E => .tagged "Enum" E.toJson
  | .array component => .tagged "Array" component.toJson
  | .collection k => .tagged "Collection" k.toJson
  | .enumSet E => .tagged "EnumSet" E.toJson
  | .named name => .tagged "Named" (.string name)
  | t => .string t.tag

def CollectionTy.toJson : CollectionTy → Json
  | .interface s => .tagged "Interface" (.string s.name)
  | .concrete c => .tagged "Concrete" (.string c.name)
  | .wrapped w s => .tagged "Wrapped" (.array [w.toJson, .string s.name])

def Wrapper.toJson : Wrapper → Json
  | .checked element => .tagged "Checked" element.toJson
  | w => .string w.description

end

/-! ## Reading -/

/-- The tag of something without parts. -/
def Json.bareTag? (late : Bool) (j : Json) : Option String :=
  match j.tagged? with
  | some (tag, none) | some (tag, some .null) => some tag
  | some (tag, some (.object [])) => if late then some tag else none
  | _ => none

def EnumType.ofJson? (j : Json) : Option EnumType := do
  let [name, constants] ← j.fields? ["name", "constants"] | none
  let constants ← (← constants.items?).mapM Json.text?
  pure ⟨← name.text?, constants⟩

def Shape.ofJson? (late : Bool) (j : Json) : Option Shape :=
  (j.bareTag? late).bind fun tag => all.find? (·.name = tag)

def Concrete.ofJson? (late : Bool) (j : Json) : Option Concrete :=
  (j.bareTag? late).bind fun tag => all.find? (·.name = tag)

/-- The wrapper without parts of a tag. -/
def Wrapper.ofTag? (tag : String) : Option Wrapper :=
  [unmodifiable, synchronized, empty].find? (·.description = tag)

mutual

/-- Reads a type. -/
def Ty.ofJson? (late : Bool) : Json → Option Ty
  | .object [(tag, content)] =>
    if tag = "Array" then (Ty.ofJson? late content).map .array
    else if tag = "Collection" then (CollectionTy.ofJson? late content).map .collection
    else if tag = "Enum" then (EnumType.ofJson? content).map .enum
    else if tag = "EnumSet" then (EnumType.ofJson? content).map .enumSet
    else if tag = "Named" then content.text?.map .named
    else ((Json.object [(tag, content)]).bareTag? late).bind Ty.ofTag?
  | j => (j.bareTag? late).bind Ty.ofTag?
termination_by structural j => j

/-- Reads a collection type. -/
def CollectionTy.ofJson? (late : Bool) : Json → Option CollectionTy
  | .object [(tag, .array [w, s])] =>
    if tag = "Wrapped" then do
      pure (.wrapped (← Wrapper.ofJson? late w) (← Shape.ofJson? late s))
    else none
  | .object [(tag, content)] =>
    if tag = "Interface" then (Shape.ofJson? late content).map .interface
    else if tag = "Concrete" then (Concrete.ofJson? late content).map .concrete
    else none
  | _ => none
termination_by structural j => j

/-- Reads a wrapper. -/
def Wrapper.ofJson? (late : Bool) : Json → Option Wrapper
  | .object [(tag, content)] =>
    if tag = "Checked" then (Ty.ofJson? late content).map .checked
    else ((Json.object [(tag, content)]).bareTag? late).bind Wrapper.ofTag?
  | j => (j.bareTag? late).bind Wrapper.ofTag?
termination_by structural j => j

end

end Recast
