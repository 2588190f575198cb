/-
Reshaping, run.

Elements are converted in order, each by one request (`run_convertEach_ok`),
and the first error ends the run (`run_convertEach_error`). A collection is
built from them when it checks its elements (`run_intoCollection_checked`), and
else from the elements as they are (`run_intoCollection_unchecked`); nothing
is promised of it where its elements do not settle (`make_unsettled`). The
constants that elements stand for are collected in order too: all of them, or
else the first error is that of the collection (`enumSetOf_eq_ok`,
`enumSetOf_eq_error`).
-/
import Recast.Container.Reshape
import Recast.Proofs.Collection.Reachable
import Recast.Proofs.Conversion.Procedure
import Mathlib.Data.List.Forall2
import Mathlib.Data.List.TakeWhile

namespace Recast

open Procedure

variable {answer : (q : Request) → Option q.Answer}
variable {convert : Value → Ty → Option (Except ConversionError Value)} {t : Ty}
variable {e w v : Value} {es ws before : List Value} {err : ConversionError}

/-! ## Member by member -/

/-- What is there for each of some values makes a list. -/
theorem exists_forall₂ {α β : Type} {R : α → β → Prop} {as : List α} (h : ∀ a ∈ as, ∃ b, R a b) :
    ∃ bs, List.Forall₂ R as bs := by
  induction as with
  | nil => exact ⟨[], .nil⟩
  | cons a as ih =>
    obtain ⟨⟨b, hb⟩, has⟩ := List.forall_mem_cons.1 h
    obtain ⟨bs, hbs⟩ := ih has
    exact ⟨b :: bs, .cons hb hbs⟩

/-- Of two things of which one holds of each value, one holds of all, or the other of the first of
which that one does not. -/
theorem forall_or_first {α : Type} {P Q : α → Prop} {as : List α} (h : ∀ a ∈ as, P a ∨ Q a) :
    (∀ a ∈ as, P a) ∨
      ∃ before a after, as = before ++ a :: after ∧ (∀ b ∈ before, P b) ∧ Q a := by
  induction as with
  | nil => exact .inl nofun
  | cons a as ih =>
    obtain ⟨hp | hq, has⟩ := List.forall_mem_cons.1 h
    · rcases ih has with hall | ⟨before, b, after, rfl, hbefore, hb⟩
      · exact .inl (List.forall_mem_cons.2 ⟨hp, hall⟩)
      · exact .inr ⟨a :: before, b, after, rfl, List.forall_mem_cons.2 ⟨hp, hbefore⟩, hb⟩
    · exact .inr ⟨[], a, as, rfl, nofun, hq⟩

theorem forall_ok_or_first_error {ε α β : Type} (f : α → Except ε β) (as : List α) :
    (∀ a ∈ as, ∃ b, f a = .ok b) ∨
      ∃ before a after err, as = before ++ a :: after ∧ (∀ b ∈ before, ∃ c, f b = .ok c) ∧
        f a = .error err := by
  have heach : ∀ a ∈ as, (∃ b, f a = .ok b) ∨ ∃ err, f a = .error err := by
    intro a _
    cases f a with
    | ok b => exact .inl ⟨b, rfl⟩
    | error err => exact .inr ⟨err, rfl⟩
  rcases forall_or_first heach with hall | ⟨before, a, after, rfl, hbefore, err, herr⟩
  · exact .inl hall
  · exact .inr ⟨before, a, after, err, rfl, hbefore, herr⟩

/-! ## Arrays -/

/-- What an element becomes: null stays null, and any other is converted. -/
inductive Becomes (convert : Value → Ty → Option (Except ConversionError Value)) (t : Ty) :
    Value → Value → Prop
  | null : Becomes convert t .null .null
  | converted {e w : Value} (value : e ≠ .null) (result : convert e t = some (.ok w)) :
      Becomes convert t e w

/-- An element becomes one thing. -/
theorem Becomes.unique {w' : Value} (h : Becomes convert t e w) (h' : Becomes convert t e w') :
    w = w' := by
  cases h with
  | null =>
    cases h' with
    | null => rfl
    | converted hnull => exact absurd rfl hnull
  | converted hnull hw =>
    cases h' with
    | null => exact absurd rfl hnull
    | converted _ hw' =>
      cases hw.symm.trans hw'
      rfl

theorem convertEach_cons (he : e ≠ .null) (es : List Value) :
    convertEach t (e :: es) =
      ask e t >>= fun w => convertEach t es >>= fun ws => pure (w :: ws) := by
  have hnull : e.isNull = false := by simpa [← Value.isNull_iff] using he
  rw [convertEach, hnull]
  rfl

section

variable (hanswer : ∀ v t, answer (.convert v t) = convert v t)

include hanswer

theorem Becomes.run_cons (h : Becomes convert t e w) (es : List Value) :
    (convertEach t (e :: es)).run (m := Id) answer =
      Option.map (Except.map (w :: ·)) ((convertEach t es).run (m := Id) answer) := by
  cases h with
  | null => exact run_bind_pure (convertEach t es) (.null :: ·)
  | converted he hw =>
    rw [convertEach_cons he, run_bind, run_ask, hanswer, hw]
    exact run_bind_pure (convertEach t es) (w :: ·)

/-- Elements that all become something are converted one by one. -/
theorem run_convertEach_ok (h : List.Forall₂ (Becomes convert t) es ws) :
    (convertEach t es).run (m := Id) answer = some (.ok ws) := by
  induction h with
  | nil => rfl
  | cons he _ ih =>
    rw [he.run_cons hanswer, ih]
    rfl

/-- The first element that fails ends the run with its error. -/
theorem run_convertEach_error (h : List.Forall₂ (Becomes convert t) before ws) (he : e ≠ .null)
    (herr : convert e t = some (.error err)) (after : List Value) :
    (convertEach t (before ++ e :: after)).run (m := Id) answer = some (.error err) := by
  induction h with
  | nil => simp only [List.nil_append, convertEach_cons he, run_bind, run_ask, hanswer, herr]
  | cons hb _ ih =>
    rw [List.cons_append, hb.run_cons hanswer, ih]
    rfl

end

/-- A container becomes an array of what its elements become. -/
theorem run_intoArray (hv : v.elements? = some es) (component : Ty) :
    (Reshape.intoArray component v).run (m := Id) answer =
      Option.map (Except.map (.array component))
        ((convertEach component es).run (m := Id) answer) := by
  simp only [Reshape.intoArray, elementsFor, hv, pure_bind, run_bind_pure]

/-! ## Collections -/

namespace Selection

variable {target type : CollectionTy} {source : Option CollectionTy} {element : Ty}

/-- A type is chosen as it can be instantiated. -/
theorem type_instantiable (choice : Selection) : choice.type.instantiable = choice.type := by
  cases choice with
  | requested type | carriedOver type => exact CollectionTy.instantiable_instantiable type
  | default shape => exact CollectionTy.instantiable_instantiable (.interface shape)

theorem elementType?_eq (choice : Selection) : choice.elementType? = choice.type.checked? := by
  have hinstantiable (type : CollectionTy) : type.checked? = type.instantiable.checked? := by
    cases type <;> rfl
  cases choice with
  | requested type | carriedOver type => exact hinstantiable type
  | default shape => rfl

theorem checked?_of_carriedOver (h : Selection.of target source = .carriedOver type)
    (helement : type.checked? = some element) :
    ∃ k, source = some k ∧ k.checked? = some element := by
  cases target with
  | concrete | wrapped => cases h
  | interface shape =>
    simp only [Selection.of] at h
    cases hcarried : source.bind (carried? shape) with
    | none =>
      rw [hcarried] at h
      cases h
    | some carried =>
      rw [hcarried] at h
      cases h
      obtain ⟨k, rfl, hk⟩ := Option.bind_eq_some_iff.1 hcarried
      cases k with
      | interface => cases hk
      | wrapped w s =>
        cases hk
        have hshapes : (CollectionTy.wrapped w s).checked? =
            (CollectionTy.wrapped w shape).checked? := by cases w <;> rfl
        exact ⟨_, rfl, hshapes.trans helement⟩
      | concrete k => cases k <;> cases shape <;> cases hk <;> cases helement

end Selection

namespace Reshape

variable {factory? : CollectionTy → Option Factory} {type : CollectionTy} {choice : Selection}

theorem accepted_eq_self {type : CollectionTy}
    (hes : ∀ e ∈ es, Collection.checkElement type e = .ok ()) : accepted type es = es := by
  refine List.takeWhile_eq_self_iff.2 fun e he => ?_
  rw [hes e he]
  rfl

theorem make_instantiable (type : CollectionTy) (es : List Value) :
    make type.instantiable es = make type es := by
  simp only [make, CollectionTy.instantiable_instantiable, Collection.ofElements_instantiable]

/-- Elements that the type takes, and that are put together in settled ways, make a collection of
what its discipline leaves of them. -/
theorem make_eq (hes : ∀ e ∈ es, Collection.checkElement type.instantiable e = .ok ())
    (hsettles : type.instantiable.discipline.Settles es)
    (hroom : type.instantiable.wrapper? = some .empty → es = []) :
    make type es = .ok (Collection.filled type es) := by
  rw [make, accepted_eq_self hes, if_pos hsettles, Collection.ofElements_eq hes hroom]
  rfl

/-- Of elements that are put together in ways that are not settled, nothing is promised. -/
theorem make_unsettled (hes : ∀ e ∈ es, Collection.checkElement type.instantiable e = .ok ())
    (hsettles : ¬ type.instantiable.discipline.Settles es) :
    make type es = .error .unsettled := by
  rw [make, accepted_eq_self hes, if_neg hsettles]

theorem make_of_empty (hes : ∀ e ∈ es, Collection.checkElement type.instantiable e = .ok ())
    (hsettles : type.instantiable.discipline.Settles es)
    (hempty : type.instantiable.wrapper? = some .empty) (hne : es ≠ []) :
    make type es = .error (.outOfRange
      (.elements (type.instantiable.discipline.gather es).length)
      (.collection type.instantiable)) := by
  rw [make, accepted_eq_self hes, if_pos hsettles, Collection.ofElements_of_empty hempty hne]
  rfl

theorem build_eq (hf : ∀ type, factory? type = none) (choice : Selection) (es : List Value) :
    build factory? choice es = make choice.type es := by
  cases choice with
  | requested type | carriedOver type => exact (make_instantiable type es).symm
  | default shape =>
    simp only [build, hf]
    exact (make_instantiable (.interface shape) es).symm

theorem run_build (hf : ∀ type, factory? type = none) (choice : Selection) (es : List Value) :
    (match build factory? choice es with
      | .ok c => (pure c.toValue : Procedure Value)
      | .error e => .fail e).run (m := Id) answer =
      some ((make choice.type es).map Collection.toValue) := by
  rw [build_eq hf]
  cases make choice.type es <;> rfl

/-- Where the type chosen checks nothing, a container becomes a collection of its elements. -/
theorem run_intoCollection_unchecked (hf : ∀ type, factory? type = none)
    (hv : v.elements? = some es) (hchoice : Selection.of type (sourceType? v) = choice)
    (helement : choice.elementType? = none) :
    (intoCollection factory? type v).run (m := Id) answer =
      some ((make choice.type es).map Collection.toValue) := by
  simp only [intoCollection, elementsFor, hv, pure_bind, hchoice, helement]
  exact run_build hf choice es

/-- Where it checks its elements, they are converted first. -/
theorem run_intoCollection_checked (hf : ∀ type, factory? type = none)
    (hv : v.elements? = some es) (hchoice : Selection.of type (sourceType? v) = choice)
    (helement : choice.elementType? = some t) :
    (intoCollection factory? type v).run (m := Id) answer =
      match (convertEach t es).run (m := Id) answer with
      | some (.ok ws) => some ((make choice.type ws).map Collection.toValue)
      | some (.error e) => some (.error e)
      | none => none := by
  simp only [intoCollection, elementsFor, hv, pure_bind, hchoice, helement, run_bind]
  rcases (convertEach t es).run (m := Id) answer with _ | _ | ws
  · rfl
  · rfl
  · exact run_build hf choice ws

end Reshape

/-! ## Enum sets -/

namespace Reshape

variable {E : EnumType} {limit : Nat} {s : EnumSet}

/-- Adds the constant that an element stands for. -/
def collect (E : EnumType) (limit : Nat) (s : EnumSet) (e : Value) :
    Except ConversionError EnumSet := do
  let c ← constantOf E limit e
  pure (s.insertOrdinal c.ordinal)

theorem enumSetOf_eq (E : EnumType) (limit : Nat) (es : List Value) :
    enumSetOf E limit es = es.foldlM (collect E limit) (.empty E) := rfl

theorem collect_eq {c : Constant} (h : constantOf E limit e = .ok c) (s : EnumSet) :
    collect E limit s e = .ok (s.insertOrdinal c.ordinal) := by
  rw [collect, h]
  rfl

theorem foldlM_collect_eq_ok (h : ∀ e ∈ es, ∃ c, constantOf E limit e = .ok c) (s : EnumSet) :
    ∃ s', es.foldlM (collect E limit) s = .ok s' ∧ s'.type = s.type ∧
      ∀ k, k ∈ s'.members ↔
        k ∈ s.members ∨ ∃ e ∈ es, ∃ c, constantOf E limit e = .ok c ∧ c.ordinal = k := by
  induction es generalizing s with
  | nil => exact ⟨s, rfl, rfl, by simp⟩
  | cons e es ih =>
    obtain ⟨⟨c, hc⟩, hes⟩ := List.forall_mem_cons.1 h
    obtain ⟨s', hs', htype, hmembers⟩ := ih hes (s.insertOrdinal c.ordinal)
    refine ⟨s', ?_, htype, fun k => ?_⟩
    · rw [List.foldlM_cons, collect_eq hc]
      exact hs'
    · simp only [hmembers k, EnumSet.mem_insertOrdinal, List.exists_mem_cons_iff, hc,
        Except.ok.injEq, exists_eq_left', or_assoc, or_left_comm, eq_comm]

theorem enumSetOf_eq_ok (h : ∀ e ∈ es, ∃ c, constantOf E limit e = .ok c) :
    ∃ s, enumSetOf E limit es = .ok s ∧ s.type = E ∧
      ∀ k, k ∈ s.members ↔ ∃ e ∈ es, ∃ c, constantOf E limit e = .ok c ∧ c.ordinal = k := by
  obtain ⟨s, hs, htype, hmembers⟩ := foldlM_collect_eq_ok h (.empty E)
  exact ⟨s, hs, htype, fun k => by simpa [EnumSet.empty] using hmembers k⟩

/-- The first element that stands for no constant is the error of the set. -/
theorem enumSetOf_eq_error (h : ∀ b ∈ before, ∃ c, constantOf E limit b = .ok c)
    (he : constantOf E limit e = .error err) (after : List Value) :
    enumSetOf E limit (before ++ e :: after) = .error err := by
  obtain ⟨s, hs, -⟩ := foldlM_collect_eq_ok h (.empty E)
  rw [enumSetOf_eq, List.foldlM_append, hs]
  show (collect E limit s e >>= _) = _
  rw [collect, he]
  rfl

theorem run_intoEnumSet (hv : v.elements? = some es) (E : EnumType) (limit : Nat) :
    (intoEnumSet E limit v).run (m := Id) answer = some ((enumSetOf E limit es).map .enumSet) := by
  simp only [intoEnumSet, elementsFor, hv, pure_bind]
  cases enumSetOf E limit es <;> rfl

end Reshape

end Recast
