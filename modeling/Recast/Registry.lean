/-
The registry of conversions.

Conversions are registered for pairs of a source and a target type and kept in
families by target, in the order of registration. A family finds an entry by
an index of sources beside its entries. In a family a more specific source comes
before its supertypes: a draft refuses a source that stands below an earlier
one, and building checks every family again, since types declared later may put
an old source below an earlier one. A registry is a draft that has passed those
checks.
-/
import Recast.Conversion.Context

namespace Recast

/-- Why a conversion cannot be registered, or a draft not built. -/
inductive RegistryError
  /-- In the family, `earlier` stands before its subtype `later`. -/
  | misordered (family earlier later : Ty)
  | duplicate (source target : Ty)
  | cyclic (type : Ty)
deriving DecidableEq

def RegistryError.message : RegistryError → String
  | .misordered family earlier later =>
    "Registry family " ++ family.name ++ ": " ++ earlier.name ++
      " is registered before its subtype " ++ later.name ++ "; register specific sources first"
  | .duplicate source target =>
    "Conversion from " ++ source.name ++ " to " ++ target.name ++ " is already registered"
  | .cyclic type => "Type hierarchy of " ++ type.name ++ " is cyclic"

/-- A registered conversion. -/
structure Entry where
  /-- The place in the family that the entry was given. -/
  index : Nat
  source : Ty
  conversion : Conversion

/-- The conversions of one target, in the order of registration. -/
structure Family where
  target : Ty
  entries : List Entry
  /-- The place of each source among the entries, the latest source first. -/
  places : List (Ty × Nat)

namespace Family

/-- The family of a target before anything is registered. -/
def empty (target : Ty) : Family := ⟨target, [], []⟩

/-- The entry at the place noted for a source. -/
def lookup? (f : Family) (source : Ty) : Option Entry :=
  (f.places.lookup source).bind fun place => f.entries[place]?

/-- Adds a conversion behind the others, and notes its place. -/
def push (f : Family) (source : Ty) (conversion : Conversion) : Family :=
  { f with
    entries := f.entries ++ [⟨f.entries.length, source, conversion⟩]
    places := (source, f.entries.length) :: f.places }

/-- The first entry whose source stands strictly above `source`. -/
def above? (f : Family) (h : Hierarchy) (source : Ty) : Option Entry :=
  f.entries.find? fun e => h.isStrictSupertype e.source source

/-- The first two sources of which the earlier stands above the later. -/
def misordered? (h : Hierarchy) : List Entry → Option (Ty × Ty)
  | [] => none
  | e :: es =>
    match es.find? fun later => h.isStrictSupertype e.source later.source with
    | some later => some (e.source, later.source)
    | none => misordered? h es

end Family

/-- Makes an empty collection for an expected number of elements. -/
abbrev Factory := Nat → Collection

/-- Declarations, conversions and factories as they are put together. -/
structure Draft where
  hierarchy : Hierarchy
  /-- One family for each target, in the order of the first registration. -/
  families : List Family
  factories : List (CollectionTy × Factory)

namespace Draft

def empty : Draft := ⟨.empty, [], []⟩

/-- Declares the supertypes of a type. -/
def declare (d : Draft) (t : Ty) (s : Supertypes) : Draft :=
  { d with hierarchy := d.hierarchy.declare t s }

def family? (d : Draft) (target : Ty) : Option Family :=
  d.families.find? fun f => f.target = target

/-- The entries of a target, in the order of registration. -/
def entries (d : Draft) (target : Ty) : List Entry :=
  match d.family? target with
  | some f => f.entries
  | none => []

/-- The entry of exactly this pair. -/
def lookup? (d : Draft) (source target : Ty) : Option Entry :=
  (d.family? target).bind fun f => f.lookup? source

/-- Adds a conversion to the family of its target, a new family at the end. -/
def push (source target : Ty) (conversion : Conversion) : List Family → List Family
  | [] => [(Family.empty target).push source conversion]
  | f :: fs =>
    if f.target = target then f.push source conversion :: fs
    else f :: push source target conversion fs

/-- Registers a conversion. The pair must be new, and no earlier source of the family may stand
strictly above this one. -/
def register (d : Draft) (source target : Ty) (f : Conversion) : Except RegistryError Draft :=
  match d.family? target with
  | none => .ok { d with families := push source target f d.families }
  | some family =>
    if (family.lookup? source).isSome then .error (.duplicate source target)
    else
      match family.above? d.hierarchy source with
      | some earlier => .error (.misordered target earlier.source source)
      | none => .ok { d with families := push source target f d.families }

/-- Uses a factory for the collections of a type, in place of any earlier one. -/
def withFactory (d : Draft) (type : CollectionTy) (factory : Factory) : Draft :=
  if d.factories.any (·.1 = type) then
    { d with factories := d.factories.map fun p => if p.1 = type then (type, factory) else p }
  else { d with factories := d.factories ++ [(type, factory)] }

def factory? (d : Draft) (type : CollectionTy) : Option Factory := d.factories.lookup type

/-- The number of registered conversions. -/
def size (d : Draft) : Nat := (d.families.flatMap (·.entries)).length

/-- What keeps a draft from being a registry: a cycle of superclasses first, and then the first
family with a source above a later one. -/
def fault? (d : Draft) : Option RegistryError :=
  match d.hierarchy.validate with
  | .error ⟨t⟩ => some (.cyclic t)
  | .ok () => d.families.findSome? fun f =>
    (Family.misordered? d.hierarchy f.entries).map fun (earlier, later) =>
      .misordered f.target earlier later

end Draft

/-- A draft without fault. -/
structure Registry extends Draft where
  sound : toDraft.fault? = none

namespace Registry

def empty : Registry := ⟨.empty, rfl⟩

end Registry

/-- Checks a draft and makes it a registry. -/
def Draft.build (d : Draft) : Except RegistryError Registry :=
  match h : d.fault? with
  | none => .ok ⟨d, h⟩
  | some e => .error e

end Recast
