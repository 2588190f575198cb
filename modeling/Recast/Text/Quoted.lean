/-
Quoted text, as it stands in the written form of a type or a context: between
double quotes, with a backslash before quotes and backslashes, short escapes
for the common controls, and the code point of any other character that could
not be seen.
-/
import Recast.Text.Quoted.Table

namespace Recast.Text.Quoted

/-- The character is shown by its number. -/
def isHidden (c : Char) : Bool :=
  hiddenRanges.any fun (first, last) => first ≤ c.toNat && c.toNat ≤ last

/-- One character inside quotes. -/
def escape (c : Char) : List Char :=
  if c = '"' || c = '\\' then ['\\', c]
  else if c = '\t' then ['\\', 't']
  else if c = '\r' then ['\\', 'r']
  else if c = '\n' then ['\\', 'n']
  else if c.toNat = 0 then ['\\', '0']
  else if isHidden c then '\\' :: 'u' :: '\x7b' :: Nat.toDigits 16 c.toNat ++ ['\x7d']
  else [c]

/-- The text between quotes. -/
def encode (cs : List Char) : List Char := '"' :: cs.flatMap escape ++ ['"']

end Recast.Text.Quoted

namespace Recast.Text

/-- `Quoted.encode` on strings. -/
def quoted (s : String) : String := String.ofList (Quoted.encode s.toList)

end Recast.Text
