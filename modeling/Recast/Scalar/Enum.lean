/-
Conversions into enum types and from constants. The target of a conversion
into an enum type is the concrete type that was asked for.
-/
import Recast.Container.Reshape
import Recast.Scalar.Number

namespace Recast.Scalar

/-- The enum type that is asked for. -/
def targetEnum? : Ty → Option EnumType
  | .enum E => some E
  | _ => none

/-- The constant that a value is. -/
def constant? : Value → Option Constant
  | .enum c => some c
  | _ => none

def nameToEnum : Conversion := .ofPure fun v call => do
  let E ← expect (targetEnum? call.target) v call.target
  let name ← expect v.text? v call.target
  return .enum (← Constant.find E call.env.maxNameLength name)

/-- Only integers are ordinals. -/
def ordinalToEnum : Conversion := .ofPure fun v call => do
  let E ← expect (targetEnum? call.target) v call.target
  match Numeric.of? v with
  | some (.integer n) => return .enum (← Constant.findOrdinal E n)
  | _ => throw (.ambiguous v.ty call.target)

/-- The constant of the same name in another enum type. -/
def enumToEnum : Conversion := .ofPure fun v call => do
  let E ← expect (targetEnum? call.target) v call.target
  let c ← expect (constant? v) v call.target
  return .enum (← Constant.find E call.env.maxNameLength c.name)

def enumToName : Conversion := .ofPure fun v call => do
  return .string (← expect (constant? v) v call.target).name

def enumToOrdinal : Conversion := .ofPure fun v call => do
  let c ← expect (constant? v) v call.target
  match call.target with
  | .integral w => Numeric.integralValue w c.ordinal
  | target => throw (.unsupported (.integral .bigInteger) target)

def enumToType : Conversion := .ofPure fun v call => do
  return .typeRef (.enum (← expect (constant? v) v call.target).type)

end Recast.Scalar
