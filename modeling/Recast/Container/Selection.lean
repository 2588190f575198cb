/-
Which type a new collection gets.

A concrete or wrapped type is used as it is asked for. Where an interface is
asked for, a characteristic of the source collection carries over when it fits
the interface: any wrapper, case-insensitivity into sets, concurrency into
lists and sets. Otherwise the interface's default is used.
-/
import Recast.Ty

namespace Recast

/-- The type chosen for a new collection, and why. -/
inductive Selection
  | requested (type : CollectionTy)
  | carriedOver (type : CollectionTy)
  | default (shape : Shape)
deriving DecidableEq

namespace Selection

/-- The element type that the chosen type checks. -/
def elementType? : Selection → Option Ty
  | .requested type | .carriedOver type => type.checked?
  | .default _ => none

/-- What carries over from a source of some type into an interface. -/
def carried? (shape : Shape) : CollectionTy → Option CollectionTy
  | .wrapped w _ => some (.wrapped w shape)
  | .concrete .caseInsensitiveSet =>
    if shape = .set || shape = .collection then some (.concrete .caseInsensitiveSet) else none
  | .concrete c =>
    if c.isConcurrent then
      match shape with
      | .list => some (.concrete .concurrentList)
      | .set => some (.concrete .concurrentSet)
      | .collection => some (.concrete c)
      | .sortedSet => none
    else none
  | .interface _ => none

/-- The type for a new collection of type `target` made from a source, whose type is given when
it is a collection. -/
def of (target : CollectionTy) (source : Option CollectionTy) : Selection :=
  match target with
  | .interface shape =>
    match source.bind (carried? shape) with
    | some type => .carriedOver type
    | none => .default shape
  | type => .requested type

/-- The type that the new collection has. -/
def type : Selection → CollectionTy
  | .requested type | .carriedOver type => type.instantiable
  | .default shape => (CollectionTy.interface shape).instantiable

end Selection

end Recast
