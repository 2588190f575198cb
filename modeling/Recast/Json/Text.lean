/-
The compact text of a JSON document: no blanks, and nothing escaped but
quotes, backslashes and control characters. Numbers that are not finite have
no JSON text and are written as null, and so is what is unreadable.
-/
import Recast.Json
import Recast.Number.Binary.Shortest

namespace Recast.Json

/-- One character inside a string. -/
def escape (c : Char) : List Char :=
  if c = '"' then ['\\', '"']
  else if c = '\\' then ['\\', '\\']
  else if c = '\n' then ['\\', 'n']
  else if c = '\r' then ['\\', 'r']
  else if c = '\t' then ['\\', 't']
  else if c = '\x08' then ['\\', 'b']
  else if c = '\x0c' then ['\\', 'f']
  else if c.toNat < 32 then '\\' :: 'u' :: Text.hexPadded 4 c.toNat
  else [c]

/-- A string between quotes. -/
def quoted (s : String) : String := String.ofList ('"' :: s.toList.flatMap escape ++ ['"'])

/-- Numbers are written as the shortest decimal that reads back, a tie going to the even digit.
How far they are written without an exponent depends on the format; an exponent has its sign,
plus or minus. -/
def style (f : Format) : FloatStyle :=
  ⟨.even, fun e => if f = .single then -6 ≤ e && e < 13 else -5 ≤ e && e < 16, ".0", "+"⟩

mutual

/-- The text of a document. -/
def text : Json → String
  | .null | .unreadable => "null"
  | .bool b => if b then "true" else "false"
  | .integer negative m => (if negative then "-" else "") ++ String.ofList (Text.digitsOf m)
  | .real f x => if x.isFinite then (style f).render x else "null"
  | .string s => quoted s
  | .array items => "[" ++ ",".intercalate (itemTexts items) ++ "]"
  | .object members => "\x7b" ++ ",".intercalate (memberTexts members) ++ "\x7d"
termination_by structural j => j

def itemTexts : List Json → List String
  | [] => []
  | j :: js => text j :: itemTexts js
termination_by structural js => js

def memberTexts : List (String × Json) → List String
  | [] => []
  | (name, j) :: members => (quoted name ++ ":" ++ text j) :: memberTexts members
termination_by structural members => members

end

end Recast.Json
