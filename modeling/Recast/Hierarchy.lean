/-
The hierarchy of types.

Every type has at most one superclass and a list of interfaces: those that a
caller has declared for it, or else the built-in ones. `any` stands above
every type without being named. The levels of a type are the type itself, each
superclass of its chain, then everything that can still be reached, nearest
first, and `any` last.

Declared types may lie on a cycle. Every walk stops at what it has seen, and
its fuel is the number of types that it can meet.
-/
import Recast.Value

namespace Recast

/-- The direct supertypes of a type. -/
structure Supertypes where
  superclass : Option Ty := none
  interfaces : List Ty := []
deriving DecidableEq

namespace Supertypes

/-- The superclass and then the interfaces. -/
def all (s : Supertypes) : List Ty := s.superclass.toList ++ s.interfaces

/-- The built-in supertypes of a type. -/
def builtin : Ty → Supertypes
  | .anyEnum | .boolean | .char | .duration | .zoneOffset => { interfaces := [.comparable] }
  | .integral _ | .float | .double | .decimal =>
    { superclass := some .number, interfaces := [.comparable] }
  | .string | .stringBuilder => { interfaces := [.charSequence, .comparable] }
  | .date | .localDateTime | .dateTime | .time | .instant =>
    { interfaces := [.temporal, .comparable] }
  | .enum _ => { superclass := some .anyEnum, interfaces := [.comparable] }
  | .enumSet _ => { interfaces := [.collection (.interface .set)] }
  | .collection (.interface s) => match s.parent? with
    | some parent => { interfaces := [.collection (.interface parent)] }
    | none => {}
  | .collection (.concrete .linkedHashSet) =>
    { superclass := some (.collection (.concrete .hashSet)),
      interfaces := [.collection (.interface .set)] }
  | .collection (.concrete c) => { interfaces := [.collection (.interface c.shape)] }
  | .collection (.wrapped _ s) => { interfaces := [.collection (.interface s)] }
  | _ => {}

/-- The types that are built-in supertypes of some type. -/
def builtinTypes : List Ty :=
  [.comparable, .number, .charSequence, .temporal, .anyEnum,
   .collection (.interface .collection), .collection (.interface .list),
   .collection (.interface .set), .collection (.interface .sortedSet),
   .collection (.concrete .hashSet)]

end Supertypes

/-- The supertypes that a caller has declared, the latest declaration first. -/
structure Hierarchy where
  declared : List (Ty × Supertypes)

/-- The superclass links from a type lead back to a type already met. -/
structure CyclicSuperclasses where
  type : Ty
deriving DecidableEq

def CyclicSuperclasses.message (e : CyclicSuperclasses) : String :=
  "Superclass chain of " ++ e.type.name ++ " is cyclic"

namespace Hierarchy

/-- No declarations. -/
def empty : Hierarchy := ⟨[]⟩

/-- Declares the supertypes of a type, in place of any earlier or built-in ones. -/
def declare (h : Hierarchy) (t : Ty) (s : Supertypes) : Hierarchy := ⟨(t, s) :: h.declared⟩

def isDeclared (h : Hierarchy) (t : Ty) : Bool := (h.declared.lookup t).isSome

/-- The direct supertypes of a type. -/
def node (h : Hierarchy) (t : Ty) : Supertypes :=
  (h.declared.lookup t).getD (Supertypes.builtin t)

/-- Every type that can be met above a type, other than the type itself. -/
def known (h : Hierarchy) : List Ty :=
  h.declared.flatMap (fun (t, s) => t :: s.all) ++ Supertypes.builtinTypes

/-- More steps than a walk that meets no type twice can take. -/
def fuel (h : Hierarchy) : Nat := h.known.length + 2

/-! ## Superclasses -/

/-- Follows superclass links from `next`, up to `any` or to a type already seen. -/
def chainFrom (h : Hierarchy) : (fuel : Nat) → (seen : List Ty) → (next : Option Ty) → List Ty
  | 0, _, _ => []
  | _, _, none => []
  | fuel + 1, seen, some t =>
    if t = .any || seen.contains t then []
    else t :: chainFrom h fuel (t :: seen) (h.node t).superclass

/-- The superclasses of a type, nearest first, without the type and without `any`. -/
def superclassChain (h : Hierarchy) (t : Ty) : List Ty :=
  h.chainFrom h.fuel [t] (h.node t).superclass

/-- Whether the superclass links from `next` come back to a type already seen. -/
def returns (h : Hierarchy) : (fuel : Nat) → (seen : List Ty) → (next : Option Ty) → Bool
  | _, _, none => false
  | 0, _, some _ => true
  | fuel + 1, seen, some t =>
    seen.contains t || returns h fuel (t :: seen) (h.node t).superclass

/-- Checks that the superclass links from every declared type come to an end. -/
def validate (h : Hierarchy) : Except CyclicSuperclasses Unit :=
  match h.declared.find? fun (t, _) => h.returns h.fuel [] (some t) with
  | some (t, _) => .error ⟨t⟩
  | none => .ok ()

/-! ## Levels -/

/-- The types of a list that have not been seen, each once. -/
def fresh (seen : List Ty) : List Ty → List Ty
  | [] => []
  | t :: ts => if seen.contains t then fresh seen ts else t :: fresh (t :: seen) ts

/-- The layers from a frontier on: what is new in it, then what is new right above that. -/
def layers (h : Hierarchy) : (fuel : Nat) → (seen frontier : List Ty) → List (List Ty)
  | 0, _, _ => []
  | fuel + 1, seen, frontier =>
    match fresh seen frontier with
    | [] => []
    | level =>
      level :: layers h fuel (level ++ seen) (level.flatMap fun t => (h.node t).all)

/-- The supertypes of a type by specificity. -/
def levels (h : Hierarchy) (t : Ty) : List (List Ty) :=
  if t = .null || t = .any then [[t]]
  else
    let line := t :: h.superclassChain t
    line.map ([·]) ++
      h.layers h.fuel (.any :: line) (line.flatMap fun t => (h.node t).interfaces) ++ [[.any]]

/-- The supertypes of a type in the order of its levels, the type itself first. -/
def ancestors (h : Hierarchy) (t : Ty) : List Ty := (h.levels t).flatten

/-! ## Assignability -/

/-- A value of type `source` may stand where one of type `target` is asked for. Arrays are
covariant in their component. -/
def isAssignable (h : Hierarchy) (source target : Ty) : Bool :=
  source = target ||
    match source, target with
    | .null, _ => false
    | _, .any => true
    | .array c, .array d => isAssignable h c d
    | _, _ => (h.ancestors source).contains target
termination_by structural source

/-- `general` is a supertype of `specific`, and another type. -/
def isStrictSupertype (h : Hierarchy) (general specific : Ty) : Bool :=
  general ≠ specific && h.isAssignable specific general

/-- A value other than null whose type is assignable to the target. -/
def isInstance (h : Hierarchy) (v : Value) (target : Ty) : Bool :=
  !v.isNull && h.isAssignable v.ty target

end Hierarchy

end Recast
