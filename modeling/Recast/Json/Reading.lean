/-
Reading JSON text.

Blanks are the space, the tab, the line feed and the carriage return. A text
holds one document and nothing else. Whatever breaks the grammar makes the
whole text unreadable as JSON; what keeps to it and has no meaning is an
`unreadable` part.
-/
import Recast.Json

namespace Recast.Json

def isSpace (c : Char) : Bool := c = ' ' || c = '\t' || c = '\n' || c = '\r'

def skipSpace (cs : List Char) : List Char := cs.dropWhile isSpace

/-! ## Strings -/

/-- The value of a hexadecimal digit. -/
def hexValue? (c : Char) : Option Nat :=
  if Text.isDigit c then some (Text.digitValue c)
  else if 'a' ≤ c && c ≤ 'f' then some (c.toNat - 87)
  else if 'A' ≤ c && c ≤ 'F' then some (c.toNat - 55)
  else none

/-- The number of four hexadecimal digits. -/
def hexQuad? (a b c d : Char) : Option Nat := do
  let a ← hexValue? a
  let b ← hexValue? b
  let c ← hexValue? c
  let d ← hexValue? d
  pure (((a * 16 + b) * 16 + c) * 16 + d)

/-- What a backslash and one character stand for. -/
def shortEscape? : Char → Option Nat
  | '"' => some 34
  | '\\' => some 92
  | '/' => some 47
  | 'b' => some 8
  | 'f' => some 12
  | 'n' => some 10
  | 'r' => some 13
  | 't' => some 9
  | _ => none

/-- The code points of a string up to the closing quote, halves of surrogate pairs apart, and the
text after the quote. -/
def readUnits? : List Char → Option (List Nat × List Char)
  | [] => none
  | '\\' :: 'u' :: a :: b :: c :: d :: cs => do
    let n ← hexQuad? a b c d
    let (units, rest) ← readUnits? cs
    pure (n :: units, rest)
  | '\\' :: c :: cs => do
    let n ← shortEscape? c
    let (units, rest) ← readUnits? cs
    pure (n :: units, rest)
  | c :: cs =>
    if c = '"' then some ([], cs)
    else if c = '\\' || c.toNat < 32 then none
    else (readUnits? cs).map fun (units, rest) => (c.toNat :: units, rest)

/-- Joins the halves of surrogate pairs; one that stands alone has no character. -/
def joinPairs? : List Nat → Option (List Char)
  | [] => some []
  | high :: low :: units =>
    if 0xD800 ≤ high && high < 0xDC00 && 0xDC00 ≤ low && low < 0xE000 then
      (joinPairs? units).map
        (Char.ofNat (0x10000 + (high - 0xD800) * 0x400 + (low - 0xDC00)) :: ·)
    else if 0xD800 ≤ high && high < 0xE000 then none
    else (joinPairs? (low :: units)).map (Char.ofNat high :: ·)
  | [unit] => if 0xD800 ≤ unit && unit < 0xE000 then none else some [Char.ofNat unit]

/-- A string after its opening quote: its text, when it has one, and what follows. -/
def readString? (cs : List Char) : Option (Option String × List Char) :=
  (readUnits? cs).map fun (units, rest) => ((joinPairs? units).map String.ofList, rest)

/-! ## Numbers -/

/-- At least one digit. -/
def readDigits? (cs : List Char) : Option (List Char × List Char) :=
  let (digits, rest) := Text.spanDigits cs
  if digits = [] then none else some (digits, rest)

/-- An exponent with its mark, if there is one. -/
def readExponent? : List Char → Option (Option Int × List Char)
  | c :: cs =>
    if c = 'e' || c = 'E' then
      let (negative, cs) := Text.spanSign cs
      (readDigits? cs).map fun (digits, rest) =>
        let n : Int := Text.natOfDigits digits
        (some (if negative then -n else n), rest)
    else some (none, c :: cs)
  | [] => some (none, [])

/-- A number: no zero in front of other digits, and digits on both sides of a point. -/
def readNumber? (cs : List Char) : Option (Json × List Char) := do
  let (negative, cs) := if cs.head? = some '-' then (true, cs.drop 1) else (false, cs)
  let (whole, cs) ← readDigits? cs
  if whole.length ≠ 1 && whole.head? = some '0' then none
  else
    let (fraction, cs) ← match cs with
      | '.' :: cs => (readDigits? cs).map fun (digits, rest) => (some digits, rest)
      | cs => some (none, cs)
    let (exp, cs) ← readExponent? cs
    let number := match double? negative whole (fraction.getD []) (exp.getD 0) with
      | none => .unreadable
      | some x =>
        if fraction = none && exp = none then .integer negative (Text.natOfDigits whole)
        else .real .double x
    pure (number, cs)

/-! ## Documents -/

/-- An object from its members; a name without text spoils it. -/
def ofMembers (members : List (Option String × Json)) : Json :=
  match members.mapM fun (name, j) => name.map (·, j) with
  | some members => .object members
  | none => .unreadable

/-- The literal names. -/
def readName? : List Char → Option (Json × List Char)
  | 'n' :: 'u' :: 'l' :: 'l' :: cs => some (.null, cs)
  | 't' :: 'r' :: 'u' :: 'e' :: cs => some (.bool true, cs)
  | 'f' :: 'a' :: 'l' :: 's' :: 'e' :: cs => some (.bool false, cs)
  | _ => none

mutual

/-- A value after blanks; `depth` more containers may open around a readable one. -/
def readValue? : (fuel depth : Nat) → List Char → Option (Json × List Char)
  | 0, _, _ => none
  | fuel + 1, depth, cs =>
    match skipSpace cs with
    | '[' :: cs => (readItems? fuel (depth - 1) true cs).map fun (items, rest) =>
      (if depth = 0 then .unreadable else .array items, rest)
    | '\x7b' :: cs => (readMembers? fuel (depth - 1) true cs).map fun (members, rest) =>
      (if depth = 0 then .unreadable else ofMembers members, rest)
    | '"' :: cs => (readString? cs).map fun (s, rest) =>
      (match s with | some s => .string s | none => .unreadable, rest)
    | cs => (readName? cs).orElse fun _ => readNumber? cs

/-- The items of an array after the bracket that opens it, or after a comma. -/
def readItems? : (fuel depth : Nat) → (first : Bool) → List Char → Option (List Json × List Char)
  | 0, _, _, _ => none
  | fuel + 1, depth, first, cs =>
    match skipSpace cs with
    | ']' :: cs => if first then some ([], cs) else none
    | cs => do
      let (item, cs) ← readValue? fuel depth cs
      match skipSpace cs with
      | ',' :: cs =>
        let (items, cs) ← readItems? fuel depth false cs
        pure (item :: items, cs)
      | ']' :: cs => pure ([item], cs)
      | _ => none

/-- The members of an object after the brace that opens it, or after a comma. -/
def readMembers? : (fuel depth : Nat) → (first : Bool) → List Char →
    Option (List (Option String × Json) × List Char)
  | 0, _, _, _ => none
  | fuel + 1, depth, first, cs =>
    match skipSpace cs with
    | '\x7d' :: cs => if first then some ([], cs) else none
    | '"' :: cs => do
      let (name, cs) ← readString? cs
      match skipSpace cs with
      | ':' :: cs =>
        let (item, cs) ← readValue? fuel depth cs
        match skipSpace cs with
        | ',' :: cs =>
          let (members, cs) ← readMembers? fuel depth false cs
          pure ((name, item) :: members, cs)
        | '\x7d' :: cs => pure ([(name, item)], cs)
        | _ => none
      | _ => none
    | _ => none

end

/-- Reads a document. Of nested calls, every two in a row take at least one character, so two steps
for each character are enough. -/
def read? (cs : List Char) : Option Json :=
  match readValue? (2 * cs.length + 2) nesting cs with
  | some (j, rest) => if skipSpace rest = [] then some j else none
  | none => none

end Recast.Json
