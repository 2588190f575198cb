/-
Settings as JSON. Every field may be missing and then has its default; an
unknown field is an error.
-/
import Recast.Conversion.Context
import Recast.Stored.Ty

namespace Recast

def Charset.toJson (c : Charset) : Json := .string c.setting

def Charset.ofJson? (j : Json) : Option Charset := (j.bareTag? false).bind ofSetting?

namespace Settings

def fieldNames : List String := ["zoneOffsetSeconds", "locale", "charset", "maxEnumNameLength"]

def toJson (s : Settings) : Json :=
  .object (fieldNames.zip
    [.ofInt s.zoneSeconds, .string s.locale, s.charset.toJson, .ofInt s.maxNameLength])

/-- A part that may be missing. -/
def part? (default : α) (read? : Json → Option α) : Option Json → Option α
  | some j => read? j
  | none => some default

def zoneSeconds? (j : Json) : Option Int :=
  j.int?.bind fun n => if Width.integer.Holds n then some n else none

def maxNameLength? (j : Json) : Option Nat :=
  j.int?.bind fun n => if 0 ≤ n then some n.toNat else none

/-- Reads settings. -/
def ofJson? (j : Json) : Option Settings := do
  if (j.members?.getD []).any fun (name, _) => !fieldNames.contains name then failure
  let [zone, locale, charset, length] ← j.parts? fieldNames | none
  pure
    { zoneSeconds := ← part? default.zoneSeconds zoneSeconds? zone
      locale := ← part? default.locale Json.text? locale
      charset := ← part? default.charset Charset.ofJson? charset
      maxNameLength := ← part? default.maxNameLength maxNameLength? length }

end Settings

end Recast
