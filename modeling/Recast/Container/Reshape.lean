/-
Rebuilding a container as another kind of container, element by element.

Elements keep their order. Null stays null; any other element is converted to
the element type of the result, when it has one. Constants of an enum set are
looked up directly, from constants, names and ordinals.
-/
import Recast.Container.Selection
import Recast.Resolution
import Recast.Value.Settled

namespace Recast

/-- Converts each element in turn, null staying null. -/
def convertEach (target : Ty) : List Value → Procedure (List Value)
  | [] => pure []
  | e :: es => do
    let converted ← if e.isNull then pure .null else Procedure.ask e target
    let rest ← convertEach target es
    pure (converted :: rest)

/-- The elements of a container; anything else cannot be read as one. -/
def elementsFor (v : Value) (target : Ty) : Procedure (List Value) :=
  match v.elements? with
  | some es => pure es
  | none => .fail (.ambiguous v.ty target)

/-- The constant of a name, which may have `limit` characters. -/
def Constant.find (E : EnumType) (limit : Nat) (name : String) :
    Except ConversionError Constant :=
  let chars := name.toList
  if limit < chars.length then
    .error (.invalidFormat (.enum E) (String.ofList (chars.take 32) ++ "...") (.longName limit))
  else
    match Constant.ofName? E name with
    | some c => .ok c
    | none => .error (.invalidFormat (.enum E) name (.noConstant name))

/-- The constant of an ordinal. -/
def Constant.findOrdinal (E : EnumType) (ordinal : Int) : Except ConversionError Constant :=
  let found := if 0 ≤ ordinal then Constant.ofOrdinal? E ordinal.toNat else none
  match found with
  | some c => .ok c
  | none => .error (.outOfRange (.integer ordinal) (.enum E))

namespace Reshape

/-- The constant that an element of a container stands for. -/
def constantOf (E : EnumType) (limit : Nat) : Value → Except ConversionError Constant
  | .string name | .stringBuilder name => Constant.find E limit name
  | .integral n => Constant.findOrdinal E n.val
  | .enum c => if c.type = E then .ok c else .error (.ambiguous (.enum c.type) (.enum E))
  | v => .error (.ambiguous v.ty (.enum E))

/-- The set of the constants that elements stand for. -/
def enumSetOf (E : EnumType) (limit : Nat) (es : List Value) : Except ConversionError EnumSet :=
  es.foldlM (fun s e => do
    let c ← constantOf E limit e
    pure (s.insertOrdinal c.ordinal)) (.empty E)

def intoArray (component : Ty) (v : Value) : Procedure Value := do
  let es ← elementsFor v (.array component)
  return .array component (← convertEach component es)

/-- Puts elements into a collection that a factory has made. -/
def fill (start : Collection) (es : List Value) : Except CollectionError Collection :=
  es.foldlM (fun c e => (c.insert e).map (·.2)) start

/-- The elements that a type takes before the first that it does not. -/
def accepted (type : CollectionTy) (es : List Value) : List Value :=
  es.takeWhile fun e => (Collection.checkElement type e).isOk

/-- The collection of a type, when its elements are put together in settled ways. -/
def make (type : CollectionTy) (es : List Value) : Except ConversionError Collection :=
  if type.instantiable.discipline.Settles (accepted type.instantiable es) then
    (Collection.ofElements type es).mapError .ofCollection
  else .error .unsettled

/-- The collection of the chosen type. The default of an interface comes from the factory of that
interface, when there is one. -/
def build (factory? : CollectionTy → Option Factory) (choice : Selection) (es : List Value) :
    Except ConversionError Collection :=
  match choice with
  | .requested type | .carriedOver type => make type es
  | .default shape =>
    match factory? (.interface shape) with
    | some factory =>
      let start := factory es.length
      if start.isReadOnly ∨ start.discipline.Settles (start.elements ++ accepted start.type es) then
        (fill start es).mapError .ofCollection
      else .error .unsettled
    | none => make (.interface shape) es

/-- The type of a collection; other values have none. -/
def sourceType? : Value → Option CollectionTy
  | .collection type _ => some type
  | _ => none

def intoCollection (factory? : CollectionTy → Option Factory) (type : CollectionTy) (v : Value) :
    Procedure Value := do
  let es ← elementsFor v (.collection type)
  let choice := Selection.of type (sourceType? v)
  let es ← match choice.elementType? with
    | some element => convertEach element es
    | none => pure es
  match build factory? choice es with
  | .ok c => pure c.toValue
  | .error e => .fail e

def intoEnumSet (E : EnumType) (limit : Nat) (v : Value) : Procedure Value := do
  let es ← elementsFor v (.enumSet E)
  match enumSetOf E limit es with
  | .ok s => pure (.enumSet s)
  | .error e => .fail e

/-- Carries a reshaping out. -/
def procedure (factory? : CollectionTy → Option Factory) (plan : Reshape) (v : Value)
    (call : Call) : Procedure Value :=
  match plan with
  | .toArray component => intoArray component v
  | .toCollection type => intoCollection factory? type v
  | .toEnumSet E => intoEnumSet E call.env.maxNameLength v

end Reshape

end Recast
