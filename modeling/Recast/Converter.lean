/-
Converting values.

An override of the context for exactly the pair of types comes first. A value
that already has the requested type, or a subtype, is returned as it is. All
else is resolved, and run: what is asked for on the way is answered, and other
values are dispatched the same way, one level deeper. The depth of this nesting
is limited, and a run that would go deeper has no result.

Dispatching asks two questions of a registry, whether a type is assignable to
another and what a pair resolves to. It is written once for every way of
answering them: `Registry.convert` asks the registry itself, and a `Converter`
remembers the answers.
-/
import Recast.Container.Reshape
import Recast.Standard

namespace Recast

/-- How the two questions of dispatching are answered. -/
structure Oracle (m : Type → Type) where
  isAssignable : Ty → Ty → m Bool
  resolve : Ty → Ty → m Resolution

/-- A converted value; `shared` when it is the input itself, and that cannot change. -/
structure Converted where
  value : Value
  shared : Bool

/-- The result of a dispatch: nothing when it went too deep. -/
abbrev Outcome (α : Type) := Option (Except ConversionError α)

/-- The outcome of a conversion by a function, which makes its value anew. -/
def Outcome.made (r : Outcome Value) : Outcome Converted := r.map (·.map (⟨·, false⟩))

/-- What an outcome holds, without the sharing. -/
def Outcome.value (r : Outcome Converted) : Outcome Value := r.map (·.map (·.value))

/-- The type has conversions into another, or is assignable to it. -/
def supports [Monad m] (oracle : Oracle m) (source target : Ty) : m Bool := do
  if ← oracle.isAssignable source target then pure true
  else return (← oracle.resolve source target).isSupported

/-- Converts a value, with answers to the requests that are made on the way. -/
def dispatchBy [Monad m] (oracle : Oracle m) (factory? : CollectionTy → Option Factory)
    (ctx : Context) (answer : (q : Request) → m (Option q.Answer)) (v : Value) (target : Ty) :
    m (Outcome Converted) := do
  let run (p : Procedure Value) : m (Outcome Converted) := Outcome.made <$> p.run answer
  match ctx.override? v.ty target with
  | some f => run (f v (ctx.call target))
  | none =>
    if ← (if v.isNull then pure false else oracle.isAssignable v.ty target) then
      pure (some (.ok ⟨v, !v.isMutable⟩))
    else
      match ← oracle.resolve v.ty target with
      | .direct f => run (f v (ctx.call target))
      | .reshape plan => run (plan.procedure factory? v (ctx.call target))
      | .ambiguous => pure (some (.error (.ambiguous v.ty target)))
      | .unsupported => pure (some (.error (.unsupported v.ty target)))

/-- Answers a request of a conversion that was called in a context for a target. Conversions are
answered with at most `depth` dispatches, or calls of overrides, inside each other. -/
def answer [Monad m] (oracle : Oracle m) (factory? : CollectionTy → Option Factory) :
    (depth : Nat) → (ctx : Context) → (target : Ty) → (q : Request) → m (Option q.Answer)
  | _, _, _, .isSupported s t => some <$> supports oracle s t
  | _, ctx, _, .isOverridden s t => pure (some (ctx.override? s t).isSome)
  | _, ctx, _, .overridden => pure (some (ctx.overrides.map (·.1)))
  | 0, _, _, _ => pure none
  | depth + 1, ctx, _, .convert v t =>
    Outcome.value <$> dispatchBy oracle factory? ctx (answer oracle factory? depth ctx t) v t
  | depth + 1, ctx, _, .convertIn place v t =>
    let other := ctx.other place
    Outcome.value <$> dispatchBy oracle factory? other (answer oracle factory? depth other t) v t
  | depth + 1, ctx, target, .override s t v =>
    match ctx.override? s t with
    | some f => Option.map some <$>
        (f v (ctx.call target)).run (answer oracle factory? depth ctx target)
    | none => pure (some none)

/-- Converts a value, with at most `depth` dispatches inside each other. -/
def dispatch [Monad m] (oracle : Oracle m) (factory? : CollectionTy → Option Factory)
    (ctx : Context) : (depth : Nat) → Value → Ty → m (Outcome Converted)
  | 0, _, _ => pure none
  | depth + 1, v, target =>
    dispatchBy oracle factory? ctx (answer oracle factory? depth ctx target) v target

namespace Registry

/-- The registry's own answers. -/
def oracle (r : Registry) (tie : TieBreak) : Oracle Id where
  isAssignable := r.hierarchy.isAssignable
  resolve := r.resolve tie

/-- Converts a value by a registry. -/
def convert (r : Registry) (tie : TieBreak) (ctx : Context) (depth : Nat) (v : Value)
    (target : Ty) : Outcome Converted :=
  dispatch (m := Id) (r.oracle tie) r.factory? ctx depth v target

/-- The registry converts values of a type into another. -/
def isSupported (r : Registry) (tie : TieBreak) (source target : Ty) : Bool :=
  supports (m := Id) (r.oracle tie) source target

end Registry

/-! ## Remembered answers -/

/-- Answers already given, for pairs of source and target. -/
structure Memo where
  resolutions : List ((Ty × Ty) × Resolution)
  assignable : List ((Ty × Ty) × Bool)

namespace Memo

def empty : Memo := ⟨[], []⟩

/-- The answer to the question of assignability, remembered unless the two types alone settle
it. -/
def askAssignable (r : Registry) (source target : Ty) : StateM Memo Bool := do
  if source = target then return true
  if source = .null then return false
  if target = .any then return true
  let memo ← get
  match memo.assignable.lookup (source, target) with
  | some answer => return answer
  | none =>
    let answer := r.hierarchy.isAssignable source target
    set { memo with assignable := ((source, target), answer) :: memo.assignable }
    return answer

/-- What a pair resolves to, remembered whatever it is. -/
def askResolution (r : Registry) (tie : TieBreak) (source target : Ty) :
    StateM Memo Resolution := do
  let memo ← get
  match memo.resolutions.lookup (source, target) with
  | some answer => return answer
  | none =>
    let answer := r.resolve tie source target
    set { memo with resolutions := ((source, target), answer) :: memo.resolutions }
    return answer

/-- Answers that are remembered. -/
def oracle (r : Registry) (tie : TieBreak) : Oracle (StateM Memo) where
  isAssignable := askAssignable r
  resolve := askResolution r tie

end Memo

/-- A registry with a policy, a context to use where none is given, and remembered answers. -/
structure Converter where
  registry : Registry
  tie : TieBreak
  context : Context
  memo : Memo

namespace Converter

/-- A converter with the default policy and context. -/
def new (registry : Registry) : Converter := ⟨registry, .registryOrder, .default, .empty⟩

/-- The converter of the standard registry. -/
def standard : Converter := new Standard.registry

/-- Another policy; what was remembered is forgotten. -/
def withTieBreak (c : Converter) (tie : TieBreak) : Converter := { c with tie, memo := .empty }

/-- Another context; what was remembered stays. -/
def withContext (c : Converter) (context : Context) : Converter := { c with context }

/-- Runs with the converter's memory. -/
def remembering (c : Converter) (x : StateM Memo α) : α × Converter :=
  let (a, memo) := x.run c.memo
  (a, { c with memo })

/-- Converts a value in a context. -/
def convertIn (c : Converter) (ctx : Context) (depth : Nat) (v : Value) (target : Ty) :
    Outcome Converted × Converter :=
  c.remembering (dispatch (Memo.oracle c.registry c.tie) c.registry.factory? ctx depth v target)

/-- Converts a value in the converter's own context. -/
def convert (c : Converter) (depth : Nat) (v : Value) (target : Ty) :
    Outcome Converted × Converter := c.convertIn c.context depth v target

def isSupported (c : Converter) (source target : Ty) : Bool × Converter :=
  c.remembering (supports (Memo.oracle c.registry c.tie) source target)

def resolve (c : Converter) (source target : Ty) : Resolution × Converter :=
  c.remembering (Memo.askResolution c.registry c.tie source target)

def isAssignable (c : Converter) (source target : Ty) : Bool × Converter :=
  c.remembering (Memo.askAssignable c.registry source target)

/-- How many pairs have been resolved. -/
def resolvedPairs (c : Converter) : Nat := c.memo.resolutions.length

/-- How many questions of assignability are remembered. -/
def assignablePairs (c : Converter) : Nat := c.memo.assignable.length

/-- The sources of each target, in the order of registration. -/
def supportedConversions (c : Converter) : List (Ty × List Ty) :=
  c.registry.families.map fun f => (f.target, f.entries.map (·.source))

end Converter

end Recast
