/-
Any JSON document as a value: an integer has the narrowest of the types
`Integer`, `Long` and `BigInteger` that holds it, other numbers are doubles,
arrays are growable lists, and an object has the members sorted by name, the
last of each name.
-/
import Recast.Json
import Recast.Sorting
import Recast.Value

namespace Recast

/-- An integer at the narrowest width of some that holds it. -/
def Integral.narrowest? (widths : List Width) (n : Int) : Option Integral :=
  widths.findSome? fun w => ofInt? w n

namespace Json

/-- The name of the type of objects read from JSON. -/
def objectName : String := "Object"

/-- The members sorted by name, the last of each name. -/
def sortedFields (members : List (String × Value)) : List (String × Value) :=
  sortBy (fun a b => decide (a.1 < b.1)) (fieldsOf members)

def numberValue? (j : Json) : Option Value :=
  match j.int?.bind (Integral.narrowest? [.integer, .long, .bigInteger]) with
  | some n => some (.integral n)
  | none => (j.binary? .double).map .double

mutual

/-- The value of a document; an unreadable part leaves none. -/
def value? : Json → Option Value
  | .null => some .null
  | .bool b => some (.boolean b)
  | .string s => some (.string s)
  | .array items => (values? items).map Value.list
  | .object members => (memberValues? members).map fun ms => .object objectName (sortedFields ms)
  | .unreadable => none
  | j => j.numberValue?
termination_by structural j => j

def values? : List Json → Option (List Value)
  | [] => some []
  | j :: js => do
    let v ← value? j
    pure (v :: (← values? js))
termination_by structural js => js

def memberValues? : List (String × Json) → Option (List (String × Value))
  | [] => some []
  | (name, j) :: members => do
    let v ← value? j
    pure ((name, v) :: (← memberValues? members))
termination_by structural members => members

end

end Json

end Recast
