/-
The text that shows a value: to people in error messages, and as the text of a
collection. It does not read back; a string shows between quotes as it is.
-/
import Recast.Number.Binary.Shortest
import Recast.Value

namespace Recast

/-- Text shown with separators. -/
def commaSeparated (parts : List String) : String := ", ".intercalate parts

namespace Value

/-- The text of a value that holds no others. -/
def scalarText : Value → String
  | .null => "null"
  | .boolean b => if b then "true" else "false"
  | .char c => "'" ++ String.singleton c ++ "'"
  | .integral n => Text.intText n.val ++ match n.width with
    | .long => "L"
    | .bigInteger => "n"
    | _ => ""
  | .float x => FloatStyle.general.render x ++ "f"
  | .double x => FloatStyle.general.render x
  | .decimal d => d.text ++ "m"
  | .string s | .stringBuilder s => "\"" ++ s ++ "\""
  | .date d => String.ofList d.toCivil.text
  | .localDateTime m => String.ofList (m.toWall.text ' ')
  | .dateTime m => String.ofList (m.text false)
  | .time t => String.ofList t.text
  | .instant m => String.ofList ((DateTime.mk m .utc).text false)
  | .duration s => String.ofList s.text
  | .zoneOffset o => String.ofList o.text
  | .locale tag => tag
  | .typeRef t => t.name
  | .enum c => c.text
  | .enumSet s => s.text
  | _ => ""

mutual

/-- The text that shows a value. -/
def text : Value → String
  | .array component elements => component.name ++ "[" ++ commaSeparated (texts elements) ++ "]"
  | .collection type elements => type.name ++ "[" ++ commaSeparated (texts elements) ++ "]"
  | .object typeName fields =>
    typeName ++ " \x7b " ++ commaSeparated (fieldTexts fields) ++ " \x7d"
  | v => v.scalarText
termination_by structural v => v

def texts : List Value → List String
  | [] => []
  | v :: vs => text v :: texts vs
termination_by structural vs => vs

def fieldTexts : List (String × Value) → List String
  | [] => []
  | (name, v) :: fields => (name ++ ": " ++ text v) :: fieldTexts fields
termination_by structural fields => fields

end

end Value

end Recast
