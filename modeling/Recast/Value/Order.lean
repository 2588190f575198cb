/-
The order of values.

Every value has an order key, a tree of numbers and texts, and values are
ordered as their keys are: lexicographically, values of different kinds by
rank. In the key of a set the elements are sorted, and in the key of an object
the fields; so the order of two sets does not depend on how they were built.
Arrays of different component types are ordered by the names of those types
alone. That is an order only where names tell them apart (`Value.Settled`);
elsewhere a set has the key that sorting by insertion gives it.
-/
import Recast.Sorting
import Recast.Value

namespace Recast

/-- What the order of a value looks at. -/
inductive OrderKey
  | number (n : Int)
  | text (s : String)
  | tuple (parts : List OrderKey)
  | array (component : Ty) (elements : List OrderKey)

namespace OrderKey

/-- Texts are ordered by code points. -/
def compareText (a b : String) : Ordering := compareOfLessAndEq a b

/-- The place of a key's form among the forms. -/
def form : OrderKey → Nat
  | .number _ => 0
  | .text _ => 1
  | .tuple _ => 2
  | .array _ _ => 3

mutual

/-- The order of keys. -/
def compare : OrderKey → OrderKey → Ordering
  | .tuple as, key => match key with
    | .tuple bs => compareLists as bs
    | key => Ord.compare 2 key.form
  | .array c as, key => match key with
    | .array d bs => if c = d then compareLists as bs else compareText c.name d.name
    | key => Ord.compare 3 key.form
  | .number a, .number b => Ord.compare a b
  | .text a, .text b => compareText a b
  | a, b => Ord.compare a.form b.form
termination_by structural a => a

/-- Lists are ordered by the first place where they differ; a list comes before its extensions. -/
def compareLists : List OrderKey → List OrderKey → Ordering
  | [], [] => .eq
  | [], _ :: _ => .lt
  | _ :: _, [] => .gt
  | a :: as, b :: bs => (compare a b).then (compareLists as bs)
termination_by structural as => as

end

def less (a b : OrderKey) : Bool := (compare a b).isLT

end OrderKey

/-- How the collections of a type keep their elements. -/
inductive Discipline
  /-- In the order of insertion, with duplicates. -/
  | sequence
  /-- In the order of insertion, no two equal. -/
  | hashed
  /-- In the order of values, no two of the same place. -/
  | sorted
  /-- In the order of insertion, no two equal up to the case of text. -/
  | caseless
deriving DecidableEq, Repr

def CollectionTy.discipline : CollectionTy → Discipline
  | .concrete .caseInsensitiveSet => .caseless
  | k => match k.shape with
    | .collection | .list => .sequence
    | .set => .hashed
    | .sortedSet => .sorted

namespace Value

/-- Values of different kinds are ordered by rank. -/
def rank : Value → Nat
  | .null => 0
  | .boolean _ => 1
  | .char _ => 2
  | .integral n => match n.width with
    | .byte => 3
    | .short => 4
    | .integer => 5
    | .long => 6
    | .bigInteger => 9
  | .float _ => 7
  | .double _ => 8
  | .decimal _ => 10
  | .string _ => 11
  | .stringBuilder _ => 12
  | .date _ => 13
  | .localDateTime _ => 14
  | .dateTime _ => 15
  | .time _ => 16
  | .instant _ => 17
  | .duration _ => 18
  | .zoneOffset _ => 19
  | .locale _ => 20
  | .typeRef _ => 21
  | .enum _ => 22
  | .enumSet _ => 23
  | .array _ _ => 24
  | .collection _ _ => 25
  | .object _ _ => 26

/-- The key of a value that holds no others, without its rank. A type reference counts by name,
and a constant by the name of its type and its ordinal. -/
def scalarKey : Value → OrderKey
  | .boolean b => .number b.toNat
  | .char c => .number c.toNat
  | .integral n => .number n.val
  | .float x => .number x.orderKey
  | .double x => .number x.orderKey
  | .decimal d => .tuple [.number d.units, .number d.scale]
  | .string s | .stringBuilder s | .locale s => .text s
  | .date d => .tuple (d.key.map .number)
  | .localDateTime m | .instant m => .tuple (m.key.map .number)
  | .dateTime m => .tuple (m.utc.key.map .number ++ [.number m.offset.seconds])
  | .time t => .tuple (t.key.map .number)
  | .duration s => .number s.nanos
  | .zoneOffset o => .number o.seconds
  | .typeRef t => .text t.name
  | .enum c => .tuple [.text c.type.name, .number c.ordinal]
  | .enumSet s => .tuple [.text s.type.name, .tuple (s.members.map fun n : Nat => .number n)]
  | _ => .tuple []

mutual

/-- The key of a value. -/
def orderKey : Value → OrderKey
  | .array component elements => .tuple [.number 24, .array component (orderKeys elements)]
  | .collection type elements =>
    let keys := orderKeys elements
    .tuple [.number 25, .text type.name,
      .tuple (if type.discipline = .sequence then keys else sortBy OrderKey.less keys)]
  | .object typeName fields =>
    .tuple [.number 26, .text typeName, .tuple (sortBy OrderKey.less (fieldKeys fields))]
  | v => .tuple [.number v.rank, v.scalarKey]
termination_by structural v => v

def orderKeys : List Value → List OrderKey
  | [] => []
  | v :: vs => orderKey v :: orderKeys vs
termination_by structural vs => vs

def fieldKeys : List (String × Value) → List OrderKey
  | [] => []
  | (name, v) :: fields => .tuple [.text name, orderKey v] :: fieldKeys fields
termination_by structural fields => fields

end

/-- The order of values. -/
def compare (a b : Value) : Ordering := OrderKey.compare a.orderKey b.orderKey

/-- The values in ascending order, those of the same place in their order of before. -/
def sort (vs : List Value) : List Value :=
  (sortBy (fun a b => OrderKey.less a.2 b.2) (vs.map fun v => (v, v.orderKey))).map (·.1)

theorem orderKeys_eq_map (vs : List Value) : orderKeys vs = vs.map orderKey := by
  induction vs with
  | nil => rfl
  | cons v vs ih => rw [orderKeys, ih]; rfl

end Value

end Recast
