/-
What a conversion may consult, and what a conversion is.

A conversion maps a value and a call to a procedure: a result, or a request to
the converter first, with the rest of the work waiting for the answer. It may
ask for conversions of other values, in its own context or another one, and
for what is supported and replaced. The environment of a call holds the
settings and the lookup of type names. A context adds conversions that take
the place of the registered ones for single pairs of types.
-/
import Recast.Conversion.Error
import Recast.Ty.Reading

namespace Recast

/-- The settings of conversions, as they are stored. -/
structure Settings where
  zoneSeconds : Int
  locale : String
  charset : Charset
  maxNameLength : Nat
deriving DecidableEq

def Settings.default : Settings := ⟨0, "en-US", .utf8, 256⟩

/-- What every conversion of a call may consult. -/
structure Environment where
  zone : Offset
  locale : String
  charset : Charset
  /-- The longest name of a constant that is looked up. -/
  maxNameLength : Nat
  types : TypeLookup

namespace Environment

def default : Environment :=
  ⟨.utc, Settings.default.locale, Settings.default.charset, Settings.default.maxNameLength,
   .builtin⟩

/-- The environment of stored settings, with the built-in type names. -/
def ofSettings (s : Settings) : Except ConversionError Environment :=
  match Offset.of? s.zoneSeconds with
  | some zone => .ok ⟨zone, s.locale, s.charset, s.maxNameLength, .builtin⟩
  | none => .error (.outOfRange (.integer s.zoneSeconds) .zoneOffset)

def settings (e : Environment) : Settings :=
  ⟨e.zone.seconds, e.locale, e.charset, e.maxNameLength⟩

end Environment

/-- What a conversion is called with. More of its context, and of the converter that runs it, it
learns by requests. -/
structure Call where
  target : Ty
  env : Environment
  /-- The context replaces some conversions. -/
  hasOverrides : Bool

/-- What a conversion may ask of the converter that runs it. -/
inductive Request
  /-- To convert a value in the same context. -/
  | convert (value : Value) (target : Ty)
  /-- To convert a value in another context, by its place among those at hand. -/
  | convertIn (other : Nat) (value : Value) (target : Ty)
  /-- Whether values of one type can be converted to another. -/
  | isSupported (source target : Ty)
  /-- Whether the context replaces the conversion of a pair. -/
  | isOverridden (source target : Ty)
  /-- For the pairs whose conversion the context replaces. -/
  | overridden
  /-- To call what the context puts in the place of a pair's conversion, if anything. -/
  | override (source target : Ty) (value : Value)

namespace Request

@[reducible] def Answer : Request → Type
  | .convert _ _ | .convertIn _ _ _ => Except ConversionError Value
  | .isSupported _ _ | .isOverridden _ _ => Bool
  | .overridden => List (Ty × Ty)
  | .override _ _ _ => Option (Except ConversionError Value)

/-- Nothing is promised of what was asked for, and so nothing of what asked for it. -/
def isUnsettled : (q : Request) → q.Answer → Bool
  | .convert _ _, .error e | .convertIn _ _ _, .error e | .override _ _ _, some (.error e) =>
    e.isUnsettled
  | _, _ => false

end Request

/-- A computation that may make requests on its way. -/
inductive Procedure (α : Type) where
  | done (result : α)
  | fail (error : ConversionError)
  | request (q : Request) (next : q.Answer → Procedure α)

namespace Procedure

def bind (p : Procedure α) (f : α → Procedure β) : Procedure β :=
  match p with
  | .done a => f a
  | .fail e => .fail e
  | .request q next => .request q fun a => (next a).bind f

instance : Monad Procedure where
  pure := .done
  bind := bind

def ofExcept : Except ConversionError α → Procedure α
  | .ok a => .done a
  | .error e => .fail e

/-- Converts another value; its error is passed on. -/
def ask (value : Value) (target : Ty) : Procedure Value :=
  .request (.convert value target) ofExcept

/-- Runs a procedure with answers to its requests. No answer at all ends the run, and so does one of
which nothing is promised. -/
def run [Monad m] (answer : (q : Request) → m (Option q.Answer)) :
    Procedure α → m (Option (Except ConversionError α))
  | .done a => pure (some (.ok a))
  | .fail e => pure (some (.error e))
  | .request q next => do
    match ← answer q with
    | some a =>
      if q.isUnsettled a then pure (some (.error .unsettled)) else (next a).run answer
    | none => pure none

theorem bind_done (p : Procedure α) : p.bind .done = p := by
  induction p with
  | done | fail => rfl
  | request q next ih => exact congrArg (Procedure.request q) (funext ih)

theorem bind_assoc (p : Procedure α) (f : α → Procedure β) (g : β → Procedure γ) :
    (p.bind f).bind g = p.bind fun a => (f a).bind g := by
  induction p with
  | done | fail => rfl
  | request q next ih => exact congrArg (Procedure.request q) (funext ih)

instance : LawfulMonad Procedure :=
  .mk' Procedure bind_done (fun _ _ => rfl) bind_assoc

end Procedure

/-- A conversion: what to do with a value when a call asks for another type. -/
abbrev Conversion := Value → Call → Procedure Value

/-- A conversion that asks for no other. -/
def Conversion.ofPure (f : Value → Call → Except ConversionError Value) : Conversion :=
  fun v call => .ofExcept (f v call)

/-- An environment, and conversions that take precedence in it. -/
structure Context where
  env : Environment
  /-- Pairs of source and target type in the order they were first given. -/
  overrides : List ((Ty × Ty) × Conversion)
  /-- Other contexts that the conversions have at hand. -/
  others : List Context

namespace Context

def default : Context := ⟨.default, [], []⟩

/-- Uses a conversion for exactly one pair of types, in place of any earlier one. -/
def withOverride (c : Context) (source target : Ty) (f : Conversion) : Context :=
  let pair := (source, target)
  if c.overrides.any (·.1 = pair) then
    { c with overrides := c.overrides.map fun o => if o.1 = pair then (pair, f) else o }
  else { c with overrides := c.overrides ++ [(pair, f)] }

def override? (c : Context) (source target : Ty) : Option Conversion :=
  c.overrides.lookup (source, target)

/-- Another context by its place; there is the default one in any other place. -/
def other (c : Context) (place : Nat) : Context := c.others.getD place default

def call (c : Context) (target : Ty) : Call := ⟨target, c.env, !c.overrides.isEmpty⟩

end Context

end Recast
