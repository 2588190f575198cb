/-
Collections: elements kept by the discipline of the collection's type.

A collection never has an interface as its type. Unmodifiable and empty
wrappers refuse every change, and a checked wrapper refuses elements that are
neither null nor instances of its element type, by the built-in hierarchy. A
refused or failed change leaves the collection as it was: operations return
the new collection, or an error. They answer as they say where the comparisons
that they make are settled (`Discipline.Settles`).
-/
import Recast.Hierarchy
import Recast.Value.Equality

namespace Recast

/-- Why a collection refuses an operation. -/
inductive CollectionError
  | readOnly (type : CollectionTy)
  | elementType (expected found : Ty)
  | capacity (type : CollectionTy) (size : Nat)
deriving DecidableEq

namespace CollectionError

def message : CollectionError → String
  | .readOnly type => type.name ++ " does not support modification"
  | .elementType expected found =>
    "Element of type " ++ found.name ++ " is not allowed, expected " ++ expected.name
  | .capacity type size => type.name ++ " cannot hold " ++ Text.intText size ++ " elements"

def ofForeign (e : ForeignConstant) : CollectionError :=
  .elementType (.enum e.expected) (.enum e.found)

end CollectionError

/-! ## Elements by discipline -/

namespace Discipline

/-- A stored element answers a query. -/
def answers : Discipline → (query stored : Value) → Bool
  | .sequence, query, stored => stored == query
  | .hashed, query, stored => query == stored
  | .caseless, query, stored => query.equalFolded stored
  | .sorted, query, stored => query.compare stored == .eq

/-- Puts a value in its place among sorted elements, unless the place is taken. -/
def insertSorted (v : Value) : List Value → Bool × List Value
  | [] => (true, [v])
  | e :: es => match v.compare e with
    | .gt => let (added, es) := insertSorted v es; (added, e :: es)
    | .eq => (false, e :: es)
    | .lt => (true, v :: e :: es)

/-- The place of the element at a value's place among sorted elements. -/
def findSorted? (v : Value) : List Value → Option Nat
  | [] => none
  | e :: es => match v.compare e with
    | .gt => (findSorted? v es).map (· + 1)
    | .eq => some 0
    | .lt => none

/-- The place of the element that is met first of those with a property, which is the one with the
lowest slot. -/
def firstMet? (p : α → Bool) : (slots : List Nat) → List α → Option Nat
  | _, [] => none
  | slots, e :: es =>
    match firstMet? p slots.tail es with
    | some i =>
      if p e ∧ slots.headD 0 ≤ slots.tail.getD i 0 then some 0 else some (i + 1)
    | none => if p e then some 0 else none

/-- The place of the element that a removal takes. -/
def find? : Discipline → Value → (slots : List Nat) → List Value → Option Nat
  | .sorted, v, _, es => findSorted? v es
  | .sequence, v, _, es => es.findIdx? (Discipline.sequence.answers v)
  | d, v, slots, es => firstMet? (d.answers v) slots es

def contains : Discipline → Value → List Value → Bool
  | .sorted, v, es => Value.searchSorted v.orderKey es
  | d, v, es => es.any (d.answers v)

/-- Adds an element, and says whether that changed anything. -/
def insert : Discipline → Value → List Value → Bool × List Value
  | .sequence, v, es => (true, es ++ [v])
  | .sorted, v, es => insertSorted v es
  | d, v, es => if d.contains v es then (false, es) else (true, es ++ [v])

/-- Elements are hashed, and two of them alike. -/
def hashesAlike : Discipline → Value → Value → Bool
  | .hashed, v, w => v.hashesAlike w
  | .caseless, v, w => v.foldCase.hashesAlike w.foldCase
  | .sequence, _, _ | .sorted, _, _ => false

/-- The lowest number that is not among some. -/
def freeSlot (taken : List Nat) : Nat :=
  ((List.range (taken.length + 1)).find? fun n => !taken.contains n).getD 0

/-- The slot of a new element: the lowest that is free of elements with the same hash. -/
def slot (d : Discipline) (v : Value) (slots : List Nat) (es : List Value) : Nat :=
  freeSlot ((slots.zip es).filterMap fun (slot, e) => if d.hashesAlike v e then some slot else none)

end Discipline

/-- A collection: its type, and its elements in iteration order.

Where elements are hashed they also have slots, by which those of one hash are met one after the
other. An element gets the lowest free slot, and leaves it when it is removed; so the slots tell of
the history. They only decide which element a removal takes, and only when several answer. -/
structure Collection where
  type : CollectionTy
  elements : List Value
  /-- The slot of each element, where elements are hashed. -/
  slots : List Nat

namespace Collection

/-- The empty collection of a type, an interface standing for its default implementation. -/
def new (type : CollectionTy) : Collection := ⟨type.instantiable, [], []⟩

/-- The growable list of some elements. -/
def list (elements : List Value) : Collection := ⟨.concrete .arrayList, elements, []⟩

def toValue (c : Collection) : Value := .collection c.type c.elements

def discipline (c : Collection) : Discipline := c.type.discipline

def isReadOnly (c : Collection) : Bool := c.type.isReadOnly

/-- A checked collection takes null and the instances of its element type. -/
def checkElement (type : CollectionTy) (v : Value) : Except CollectionError Unit :=
  match type.checked? with
  | some element =>
    if v.isNull || Hierarchy.empty.isInstance v element then .ok ()
    else .error (.elementType element v.ty)
  | none => .ok ()

/-- Read-only collections take no change. -/
def checkWritable (c : Collection) : Except CollectionError Unit :=
  if c.isReadOnly then .error (.readOnly c.type) else .ok ()

def contains (c : Collection) (v : Value) : Bool := c.discipline.contains v c.elements

/-- Stores an element, and says whether that changed anything. -/
def store (c : Collection) (v : Value) : Bool × Collection :=
  let (added, elements) := c.discipline.insert v c.elements
  let slots := match c.discipline, added with
    | .hashed, true | .caseless, true => c.slots ++ [c.discipline.slot v c.slots c.elements]
    | _, _ => c.slots
  (added, { c with elements, slots })

/-- Takes one occurrence of an element out, and says whether there was one. -/
def take (c : Collection) (v : Value) : Bool × Collection :=
  match c.discipline.find? v c.slots c.elements with
  | some i => (true, { c with elements := c.elements.eraseIdx i, slots := c.slots.eraseIdx i })
  | none => (false, c)

/-- Puts an element that the type takes, whether or not the collection is read-only. -/
def put (c : Collection) (v : Value) : Except CollectionError Collection := do
  checkElement c.type v
  pure (c.store v).2

/-- Adds an element; the flag says whether the collection changed. -/
def insert (c : Collection) (v : Value) : Except CollectionError (Bool × Collection) := do
  c.checkWritable
  checkElement c.type v
  pure (c.store v)

/-- Removes one occurrence of an element; the flag says whether there was one. -/
def remove (c : Collection) (v : Value) : Except CollectionError (Bool × Collection) := do
  c.checkWritable
  pure (c.take v)

/-- Removes every element. -/
def clear (c : Collection) : Except CollectionError Collection := do
  c.checkWritable
  pure { c with elements := [], slots := [] }

/-- Lays the slots out anew, as a table does that grows. -/
def rearrange (c : Collection) (slots : List Nat) : Except CollectionError Collection := do
  c.checkWritable
  pure { c with slots }

/-- The collection of a type with some elements, put in one by one. This is also how a read-only
collection comes by its elements; an empty one takes none. -/
def ofElements (type : CollectionTy) (elements : List Value) :
    Except CollectionError Collection := do
  let c ← elements.foldlM put (new type)
  if c.type.wrapper? = some .empty && !c.elements.isEmpty then
    throw (.capacity c.type c.elements.length)
  pure c

end Collection

end Recast
