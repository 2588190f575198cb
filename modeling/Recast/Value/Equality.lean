/-
Equality of values.

Scalars are equal when they are the same, floats bit for bit; only decimals
look past something, the sign of zero. Containers are equal when their types
are, and sequences then compare place by place. A set is equal to another of
its size when the other contains each of its elements, which the other decides
in its own way: by equality, by order, or by equality up to case.
-/
import Recast.Text.Lowercase
import Recast.Value.Order

namespace Recast

/-- The text of a value up to case. -/
inductive FoldedText
  | char (c : Char)
  | text (s : String)
deriving DecidableEq

namespace Value

/-- The text up to case of a value that has one: strings and string builders alike, and
characters apart from both. -/
def folded? : Value → Option FoldedText
  | .string s | .stringBuilder s => some (.text (Text.lowercase s))
  | .char c => some (.char (Text.Lowercase.char c))
  | _ => none

/-- The key that a case-insensitive set keeps an element under. -/
def foldCase : Value → Value
  | .string s | .stringBuilder s => .string (Text.lowercase s)
  | .char c => .char (Text.Lowercase.char c)
  | v => v

/-- Equality of values that hold no others. -/
def scalarEqual : Value → Value → Bool
  | .null, .null => true
  | .boolean a, .boolean b => a = b
  | .char a, .char b => a = b
  | .integral a, .integral b => a = b
  | .float a, .float b => a = b
  | .double a, .double b => a = b
  | .decimal a, .decimal b => a.same b
  | .string a, .string b => a = b
  | .stringBuilder a, .stringBuilder b => a = b
  | .date a, .date b => a = b
  | .localDateTime a, .localDateTime b => a = b
  | .dateTime a, .dateTime b => a = b
  | .time a, .time b => a = b
  | .instant a, .instant b => a = b
  | .duration a, .duration b => a = b
  | .zoneOffset a, .zoneOffset b => a = b
  | .locale a, .locale b => a = b
  | .typeRef a, .typeRef b => a = b
  | .enum a, .enum b => a = b
  | .enumSet a, .enumSet b => a = b
  | _, _ => false

/-- Whether a sorted list has an element at the place of a key. The search stops at the first
element past that place. -/
def searchSorted (key : OrderKey) : List Value → Bool
  | [] => false
  | v :: vs => match OrderKey.compare key v.orderKey with
    | .gt => searchSorted key vs
    | .eq => true
    | .lt => false

mutual

/-- Equality of values. -/
def equal : Value → Value → Bool
  | .array c as, w => match w with
    | .array d bs => c = d && equalLists as bs
    | _ => false
  | .collection k as, w => match w with
    | .collection l bs =>
      k = l && as.length = bs.length && match k.discipline with
        | .sequence => equalLists as bs
        | .hashed => allIn as bs
        | .caseless => allFoldedIn as bs
        | .sorted => as.all fun a => searchSorted a.orderKey bs
    | _ => false
  | .object t fs, w => match w with
    | .object u gs => t = u && fs.length = gs.length && fieldsIn fs gs
    | _ => false
  | v, w => scalarEqual v w
termination_by structural v => v

/-- Equality place by place. -/
def equalLists : List Value → List Value → Bool
  | [], [] => true
  | a :: as, b :: bs => equal a b && equalLists as bs
  | _, _ => false
termination_by structural as => as

/-- Each of the first values equals one of the second. -/
def allIn : List Value → List Value → Bool
  | [], _ => true
  | a :: as, bs => bs.any (fun b => equal a b) && allIn as bs
termination_by structural as => as

/-- Each of the first values equals one of the second, up to the case of text. -/
def allFoldedIn : List Value → List Value → Bool
  | [], _ => true
  | a :: as, bs =>
    bs.any (fun b =>
      if a.folded?.isSome || b.folded?.isSome then a.folded? = b.folded? else equal a b)
      && allFoldedIn as bs
termination_by structural as => as

/-- Each of the first fields is among the second. -/
def fieldsIn : List (String × Value) → List (String × Value) → Bool
  | [], _ => true
  | (name, v) :: fs, gs =>
    (match gs.lookup name with
      | some w => equal v w
      | none => false) && fieldsIn fs gs
termination_by structural fs => fs

end

instance : BEq Value := ⟨equal⟩

/-- Equality up to the case of text. -/
def equalFolded (a b : Value) : Bool :=
  if a.folded?.isSome || b.folded?.isSome then a.folded? = b.folded? else a == b

mutual

/-- Two values have one hash. Of a collection only its type and size are hashed, and of an object
only its type and the number of its fields. -/
def hashesAlike : Value → Value → Bool
  | .array c as, w => match w with
    | .array d bs => c = d && hashAlike as bs
    | _ => false
  | .collection k as, w => match w with
    | .collection l bs => k = l && as.length = bs.length
    | _ => false
  | .object t fs, w => match w with
    | .object u gs => t = u && fs.length = gs.length
    | _ => false
  | v, w => scalarEqual v w
termination_by structural v => v

def hashAlike : List Value → List Value → Bool
  | [], [] => true
  | a :: as, b :: bs => hashesAlike a b && hashAlike as bs
  | _, _ => false
termination_by structural as => as

end

theorem allIn_iff {as bs : List Value} :
    allIn as bs = true ↔ ∀ a ∈ as, ∃ b ∈ bs, (a == b) = true := by
  induction as with
  | nil => simp [allIn]
  | cons a as ih => simp [allIn, ih]; exact fun _ => Iff.rfl

theorem allFoldedIn_iff {as bs : List Value} :
    allFoldedIn as bs = true ↔ ∀ a ∈ as, ∃ b ∈ bs, equalFolded a b = true := by
  induction as with
  | nil => simp [allFoldedIn]
  | cons a as ih => simp [allFoldedIn, ih, equalFolded]; exact fun _ => Iff.rfl

end Value

end Recast
