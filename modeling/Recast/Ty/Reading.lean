/-
Types by name.

A name is trimmed; an ending `[]` asks for an array of what stands before it,
trimmed again. What is left is looked up among the built-in names, or first
in a catalog of names that a caller has registered.
-/
import Recast.Text.Blank
import Recast.Ty

namespace Recast

namespace Ty

/-- The types that have a built-in name. -/
def builtins : List Ty :=
  [.any, .number, .anyEnum, .comparable, .charSequence, .temporal, .boolean, .char] ++
    Width.all.map .integral ++
    [.float, .double, .decimal, .string, .stringBuilder, .date, .localDateTime, .dateTime, .time,
     .instant, .duration, .zoneOffset, .locale, .typeRef] ++
    Shape.all.map (fun s => .collection (.interface s)) ++
    Concrete.all.map (fun c => .collection (.concrete c))

/-- Other names of built-in types. -/
def aliases : List (String × Ty) :=
  [("Object", .any), ("boolean", .boolean), ("char", .char), ("Character", .char),
   ("byte", .integral .byte), ("short", .integral .short), ("int", .integral .integer),
   ("long", .integral .long), ("float", .float), ("double", .double)]

/-- The built-in type of exactly this name. -/
def builtin? (name : String) : Option Ty :=
  (builtins.find? fun t => t.name = name).orElse fun _ => aliases.lookup name

/-- Reads a name with any number of array suffixes over the names that `base` knows. -/
def readWith (base : String → Option Ty) (cs : List Char) : Option Ty :=
  match _h : Text.dropEnding? ['[', ']'] (Text.trim cs) with
  | some rest => (readWith base rest).map .array
  | none => base (String.ofList (Text.trim cs))
termination_by cs.length
decreasing_by
  have h₁ := congrArg List.length (Text.dropEnding?_eq_some _h)
  have h₂ := Text.length_trim_le cs
  simp at h₁
  omega

/-- The built-in type of a name, array suffixes included. -/
def ofName? (name : String) : Option Ty := readWith builtin? name.toList

end Ty

/-- Names that a caller has registered, the latest first. -/
structure Catalog where
  entries : List (String × Ty)

namespace Catalog

def empty : Catalog := ⟨[]⟩

/-- Registers a type under a name, in place of any earlier one. -/
def withAlias (c : Catalog) (name : String) (t : Ty) : Catalog := ⟨(name, t) :: c.entries⟩

/-- Registers a type under its own name. -/
def withType (c : Catalog) (t : Ty) : Catalog := c.withAlias t.name t

def withEnum (c : Catalog) (E : EnumType) : Catalog := c.withType (.enum E)

/-- The type of a name, registered names before built-in ones. Array suffixes are taken off
first, so a name that ends in one is never looked up itself. -/
def lookup (c : Catalog) (name : String) : Option Ty :=
  Ty.readWith (fun n => (c.entries.lookup n).orElse fun _ => Ty.ofName? n) name.toList

end Catalog

/-- How type names are looked up. A caller may bring a way of their own. -/
structure TypeLookup where
  find? : String → Option Ty

namespace TypeLookup

/-- Among the built-in names alone. -/
def builtin : TypeLookup := ⟨Ty.ofName?⟩

/-- Through a catalog. -/
def catalog (c : Catalog) : TypeLookup := ⟨c.lookup⟩

end TypeLookup

end Recast
