/-
Resolving a pair of types to something that converts.

An entry of exactly the pair comes first. Then the levels of the source are
searched, and on each level the target before its family. Without an entry, a
container becomes another container element by element; any other source of a
container is ambiguous, and the rest is unsupported.
-/
import Recast.Registry

namespace Recast

/-- Which of several entries on one level is taken. -/
inductive TieBreak
  /-- The one registered first in its family. -/
  | registryOrder
  /-- The one whose source stands first on the level. -/
  | declarationOrder
deriving DecidableEq, Repr

/-- How a container is rebuilt as another kind of container. -/
inductive Reshape
  | toArray (component : Ty)
  | toCollection (type : CollectionTy)
  | toEnumSet (type : EnumType)
deriving DecidableEq

/-- The reshaping between two container types. -/
def Reshape.between? (source target : Ty) : Option Reshape :=
  if !source.isContainer then none
  else
    match target with
    | .array component => some (.toArray component)
    | .collection type => some (.toCollection type)
    | .enumSet E => some (.toEnumSet E)
    | _ => none

/-- What a pair of types resolves to. -/
inductive Resolution
  | direct (conversion : Conversion)
  | reshape (plan : Reshape)
  /-- A container is asked for, and the source is none. -/
  | ambiguous
  | unsupported

def Resolution.isSupported : Resolution → Bool
  | .direct _ | .reshape _ => true
  | _ => false

namespace Registry

/-- The entries into `target` whose sources stand on a level, in the order of the level. -/
def candidates (r : Registry) (level : List Ty) (target : Ty) : List Entry :=
  level.filterMap fun member => r.lookup? member target

/-- The entry with the least index. -/
def leastIndex : List Entry → Option Entry
  | [] => none
  | e :: rest => some (go e rest)
where
  go (e : Entry) : List Entry → Entry
    | [] => e
    | f :: rest => if f.index < e.index then go f rest else go e rest

/-- The candidate that a policy takes. -/
def choose : TieBreak → List Entry → Option Entry
  | .registryOrder, found => leastIndex found
  | .declarationOrder, found => found.head?

/-- The entry found on the first level that has one, the target before its family. -/
def walk (r : Registry) (tie : TieBreak) (source target : Ty) : Option Entry :=
  (r.hierarchy.levels source).findSome? fun level =>
    (target :: target.family?.toList).findSome? fun t => choose tie (r.candidates level t)

/-- What a pair resolves to. -/
def resolve (r : Registry) (tie : TieBreak) (source target : Ty) : Resolution :=
  match r.lookup? source target with
  | some e => .direct e.conversion
  | none =>
    match r.walk tie source target with
    | some e => .direct e.conversion
    | none =>
      match Reshape.between? source target with
      | some plan => .reshape plan
      | none => if target.isContainer && source ≠ .null then .ambiguous else .unsupported

end Registry

end Recast
