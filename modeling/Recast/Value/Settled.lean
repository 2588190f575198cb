/-
Where the order of values settles what is made of it.

The order is none among arrays of different component types of one name, and so
among what holds such arrays. A sort that is given an order that is none may
put its elements anywhere, or stop; only up to twenty elements does it go by
insertion, whatever the order. A search in a sorted set may then miss an
element, or find another; only up to ten elements are they all in one row. A
comparison of values is settled when it meets nothing of the kind.
-/
import Recast.Value.Equality

namespace Recast

/-- The two ways values are compared. -/
inductive Comparison
  | equality
  | order
deriving DecidableEq

namespace Value

/-- The keys of some values, each with the number of those before it. -/
def ranks (vs : List Value) : List (OrderKey × Nat) :=
  let keys := vs.map orderKey
  keys.map fun k => (k, keys.countP (OrderKey.less · k))

/-- The order puts some values in a row, some of them perhaps at one place: it compares any two of
them as it compares the numbers of those before each. -/
def Ranked (vs : List Value) : Prop :=
  ∀ a ∈ ranks vs, ∀ b ∈ ranks vs, OrderKey.compare a.1 b.1 = Ord.compare a.2 b.2

instance (vs : List Value) : Decidable (Ranked vs) :=
  inferInstanceAs (Decidable (∀ a ∈ ranks vs, ∀ b ∈ ranks vs, _ = _))

/-- The elements of a set have one sorted order. -/
def Sortable (vs : List Value) : Prop := vs.length ≤ 20 ∨ Ranked vs

instance (vs : List Value) : Decidable (Sortable vs) :=
  inferInstanceAs (Decidable (_ ∨ _))

/-- A search among sorted elements finds what there is. -/
def Searchable (vs : List Value) : Prop := vs.length ≤ 10 ∨ Ranked vs

instance (vs : List Value) : Decidable (Searchable vs) :=
  inferInstanceAs (Decidable (_ ∨ _))

mutual

/-- Comparing a value with another meets no set inside the first whose elements are not settled. -/
def settledWith (m : Comparison) : Value → Value → Bool
  | .array c as, w => match w with
    | .array d bs =>
      c ≠ d || (m = .equality && as.length ≠ bs.length) || settledPlaces m as bs
    | _ => true
  | .collection k as, w => match w with
    | .collection l bs => match m with
      | .equality =>
        k ≠ l || as.length ≠ bs.length || match k.discipline with
          | .sequence => settledPlaces .equality as bs
          | .hashed | .caseless => settledAll .equality as bs
          | .sorted => settledAll .order as bs && Searchable as
      | .order =>
        k.name ≠ l.name ||
          if k.discipline = .sequence then
            if l.discipline = .sequence then settledPlaces .order as bs
            else settledAll .order as bs
          else settledAll .order as as && Sortable as && settledAll .order as bs
    | _ => true
  | .object t fs, w => match w with
    | .object u gs => t ≠ u || settledFields m fs gs
    | _ => true
  | _, _ => true
termination_by structural v => v

/-- Comparing place by place, up to the first difference. -/
def settledPlaces (m : Comparison) : List Value → List Value → Bool
  | a :: as, b :: bs =>
    settledWith m a b &&
      ((match m with
        | .equality => !equal a b
        | .order => a.compare b ≠ .eq) || settledPlaces m as bs)
  | _, _ => true
termination_by structural as => as

/-- Comparing each of the first with each of the second. -/
def settledAll (m : Comparison) : List Value → List Value → Bool
  | [], _ => true
  | a :: as, bs => bs.all (fun b => settledWith m a b) && settledAll m as bs
termination_by structural as => as

/-- Comparing the fields of one name. -/
def settledFields (m : Comparison) :
    List (String × Value) → List (String × Value) → Bool
  | [], _ => true
  | (name, v) :: fs, gs =>
    (match gs.lookup name with
      | some w => settledWith m v w
      | none => true) && settledFields m fs gs
termination_by structural fs => fs

end

/-- The comparison of two values meets no set whose elements are not settled. -/
def Settled (m : Comparison) (a b : Value) : Prop := settledWith m a b ∧ settledWith m b a

instance (m : Comparison) (a b : Value) : Decidable (Settled m a b) :=
  inferInstanceAs (Decidable (_ ∧ _))

end Value

/-- Elements are compared in settled ways when they are put together by a discipline. -/
def Discipline.Settles : Discipline → List Value → Prop
  | .sequence, _ => True
  | .hashed, es | .caseless, es => es.Pairwise (Value.Settled .equality)
  | .sorted, es => es.Pairwise (Value.Settled .order) ∧ Value.Searchable es

instance : (d : Discipline) → (es : List Value) → Decidable (d.Settles es)
  | .sequence, _ => inferInstanceAs (Decidable True)
  | .hashed, es | .caseless, es =>
    inferInstanceAs (Decidable (es.Pairwise (Value.Settled .equality)))
  | .sorted, es =>
    inferInstanceAs (Decidable (es.Pairwise (Value.Settled .order) ∧ Value.Searchable es))

end Recast
