/-
Lower case of characters and of texts.

A text is lowered character by character, with two exceptions: capital I with
a dot above becomes two characters, and capital sigma becomes the final form
at the end of a word, that is, after a cased character and not before one,
where case-ignorable characters in between do not count.
-/
import Recast.Text.Lowercase.Table

namespace Recast.Text.Lowercase

def inRanges (ranges : List (Nat × Nat)) (c : Char) : Bool :=
  ranges.any fun (first, last) => first ≤ c.toNat && c.toNat ≤ last

/-- Lower case of one character; only the first of the two characters of dotted capital I. -/
def char (c : Char) : Char :=
  if c.toNat < 128 then c.toLower
  else if c = 'İ' then 'i'
  else
    let n := c.toNat
    match runs.find? fun (first, last, step, _) =>
        first ≤ n && n ≤ last && (n - first) % step = 0 with
    | some (_, _, _, shift) => Char.ofNat ((n : Int) + shift).toNat
    | none => c

/-- The nearest character that is not case-ignorable is cased. -/
def meetsCased (cs : List Char) : Bool :=
  match cs.dropWhile (inRanges ignorableRanges) with
  | c :: _ => inRanges casedRanges c
  | [] => false

/-- Lower case of the text `cs` that follows the characters `before`, last character first. -/
def textAfter (before : List Char) : List Char → List Char
  | [] => []
  | c :: cs =>
    let lowered :=
      if c = 'Σ' then [if meetsCased before && !meetsCased cs then 'ς' else 'σ']
      else if c = 'İ' then ['i', '\u0307']
      else [char c]
    lowered ++ textAfter (c :: before) cs

end Recast.Text.Lowercase

namespace Recast.Text

/-- Lower case of a text. -/
def lowercase (s : String) : String := String.ofList (Lowercase.textAfter [] s.toList)

end Recast.Text
