/-
JSON documents.

An object has its members in the order of the text, repeated names included.
An integer keeps its sign apart: `-0` is a floating-point zero wherever a
number is asked for, but the integer 0 where any integer will do.

What is well formed and still stands for nothing is `unreadable`: text with
half a surrogate pair, an object with such a name, a number too large for a
double, and a container inside `nesting` others. Such a part may be skipped.
-/
import Recast.Json.Number

namespace Recast

inductive Json
  | null
  | bool (b : Bool)
  /-- A number without a point and without an exponent. -/
  | integer (negative : Bool) (magnitude : Nat)
  | real (f : Format) (x : Binary f)
  | string (s : String)
  | array (items : List Json)
  | object (members : List (String × Json))
  | unreadable
deriving Inhabited

namespace Json

/-- How many containers a part of a document may stand in. -/
def nesting : Nat := 127

def ofInt (n : Int) : Json := .integer (n < 0) n.natAbs

mutual

/-- No part is unreadable. -/
def isReadable : Json → Bool
  | .unreadable => false
  | .array items => areReadable items
  | .object members => haveReadable members
  | _ => true
termination_by structural j => j

def areReadable : List Json → Bool
  | [] => true
  | j :: js => isReadable j && areReadable js
termination_by structural js => js

def haveReadable : List (String × Json) → Bool
  | [] => true
  | (_, j) :: members => isReadable j && haveReadable members
termination_by structural members => members

end

mutual

/-- How deep containers are nested. -/
def height : Json → Nat
  | .array items => heightOfItems items + 1
  | .object members => heightOfMembers members + 1
  | _ => 0
termination_by structural j => j

def heightOfItems : List Json → Nat
  | [] => 0
  | j :: js => max (height j) (heightOfItems js)
termination_by structural js => js

def heightOfMembers : List (String × Json) → Nat
  | [] => 0
  | (_, j) :: members => max (height j) (heightOfMembers members)
termination_by structural members => members

end

/-! ## Numbers -/

/-- An integer of any size. -/
def wide? : Json → Option Int
  | .integer negative m => some (if negative then -(m : Int) else m)
  | _ => none

/-- An integer of 64 bits, signed or not. `-0` is none. -/
def int? : Json → Option Int
  | .integer false m => if m < 2 ^ 64 then some m else none
  | .integer true m => if 0 < m && m ≤ 2 ^ 63 then some (-(m : Int)) else none
  | _ => none

/-- A number in a floating-point format. -/
def binary? (f : Format) : Json → Option (Binary f)
  | .integer negative m =>
    match int? (.integer negative m) with
    | some n => some (Binary.ofInt f n)
    | none => (double? negative (Text.digitsOf m) [] 0).map (Binary.convert f)
  | .real _ x => some (x.convert f)
  | _ => none

def text? : Json → Option String
  | .string s => some s
  | _ => none

def items? : Json → Option (List Json)
  | .array items => some items
  | _ => none

def members? : Json → Option (List (String × Json))
  | .object members => some members
  | _ => none

/-! ## Records and tags -/

/-- The parts of a record by the names of its fields. In an object no field may stand twice, and
other members are skipped; in an array the parts stand in the order of the names, and the last
ones may be missing. -/
def parts? (names : List String) : Json → Option (List (Option Json))
  | .object members =>
    if names.all fun n => (members.filter (·.1 = n)).length ≤ 1 then
      some (names.map (members.lookup ·))
    else none
  | .array items =>
    if items.length ≤ names.length then
      some (items.map some ++ List.replicate (names.length - items.length) none)
    else none
  | _ => none

/-- The parts of a record that has them all. -/
def fields? (names : List String) (j : Json) : Option (List Json) :=
  (j.parts? names).bind fun parts => parts.mapM id

/-- A tag alone, or an object whose one member is a tag with its content. -/
def tagged? : Json → Option (String × Option Json)
  | .string tag => some (tag, none)
  | .object [(tag, content)] => some (tag, some content)
  | _ => none

end Json

end Recast
