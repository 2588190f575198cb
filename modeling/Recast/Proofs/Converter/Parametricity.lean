/-
Dispatching does not look into its monad: two ways of answering the questions
of dispatching, related answer by answer, give related conversions.

A relation between the computations of two monads is closed when returning one
value and continuing alike from related computations are related. What a
procedure does, the question of support and a dispatch are then related as
soon as the oracles are (`run_related`, `supports_related`,
`dispatch_related`).
-/
import Recast.Converter

namespace Recast

/-- A relation between the computations of two monads, closed under returning and binding. -/
structure MonadRelation (m n : Type → Type) [Monad m] [Monad n] where
  Rel : {α : Type} → m α → n α → Prop
  rel_pure : ∀ {α : Type} (a : α), Rel (pure a : m α) (pure a : n α)
  rel_bind : ∀ {α β : Type} {x : m α} {y : n α} {f : α → m β} {g : α → n β},
    Rel x y → (∀ a, Rel (f a) (g a)) → Rel (x >>= f) (y >>= g)

/-- The answers of two oracles are related. -/
structure Oracle.Related {m n : Type → Type} [Monad m] [Monad n] (R : MonadRelation m n)
    (o : Oracle m) (o' : Oracle n) : Prop where
  isAssignable : ∀ source target,
    R.Rel (o.isAssignable source target) (o'.isAssignable source target)
  resolve : ∀ source target, R.Rel (o.resolve source target) (o'.resolve source target)

namespace MonadRelation

variable {m n : Type → Type} [Monad m] [Monad n] (R : MonadRelation m n) {α β : Type}

/-- A procedure runs alike on related answers to its requests. -/
theorem run_related {answer : (q : Request) → m (Option q.Answer)}
    {answer' : (q : Request) → n (Option q.Answer)}
    (h : ∀ q, R.Rel (answer q) (answer' q)) (p : Procedure α) :
    R.Rel (p.run answer) (p.run answer') := by
  induction p with
  | done a => exact R.rel_pure _
  | fail e => exact R.rel_pure _
  | request q next ih =>
    simp only [Procedure.run]
    refine R.rel_bind (h q) fun a => ?_
    cases a with
    | none => exact R.rel_pure _
    | some a =>
      by_cases hu : q.isUnsettled a
      · simp only [if_pos hu]
        exact R.rel_pure _
      · simp only [if_neg hu]
        exact ih a

/-- The question of support is answered alike. -/
theorem supports_related {o : Oracle m} {o' : Oracle n} (ho : o.Related R o')
    (source target : Ty) : R.Rel (supports o source target) (supports o' source target) := by
  refine R.rel_bind (ho.isAssignable _ _) fun assignable => ?_
  cases assignable with
  | true => exact R.rel_pure _
  | false => exact R.rel_bind (ho.resolve _ _) fun resolution => R.rel_pure _

variable [LawfulMonad m] [LawfulMonad n]

theorem rel_map {x : m α} {y : n α} (f : α → β) (h : R.Rel x y) : R.Rel (f <$> x) (f <$> y) := by
  rw [map_eq_pure_bind, map_eq_pure_bind]
  exact R.rel_bind h fun a => R.rel_pure (f a)

variable {o : Oracle m} {o' : Oracle n}

theorem dispatchBy_related (ho : o.Related R o') (factory? : CollectionTy → Option Factory)
    (ctx : Context) {answer : (q : Request) → m (Option q.Answer)}
    {answer' : (q : Request) → n (Option q.Answer)}
    (h : ∀ q, R.Rel (answer q) (answer' q)) (v : Value) (target : Ty) :
    R.Rel (dispatchBy o factory? ctx answer v target)
      (dispatchBy o' factory? ctx answer' v target) := by
  have hrun (p : Procedure Value) :
      R.Rel (Outcome.made <$> p.run answer) (Outcome.made <$> p.run answer') :=
    R.rel_map _ (R.run_related h p)
  simp only [dispatchBy]
  cases ctx.override? v.ty target with
  | some f => exact hrun _
  | none =>
    refine R.rel_bind ?_ fun assignable => ?_
    · cases v.isNull with
      | true => exact R.rel_pure _
      | false => exact ho.isAssignable _ _
    cases assignable with
    | true => exact R.rel_pure _
    | false =>
      refine R.rel_bind (ho.resolve _ _) fun resolution => ?_
      cases resolution with
      | direct f => exact hrun _
      | reshape plan => exact hrun _
      | ambiguous | unsupported => exact R.rel_pure _

theorem answer_related (ho : o.Related R o') (factory? : CollectionTy → Option Factory)
    (depth : Nat) (ctx : Context) (target : Ty) (q : Request) :
    R.Rel (answer o factory? depth ctx target q) (answer o' factory? depth ctx target q) := by
  -- Conversions and overrides are answered one level deeper, questions at any depth.
  induction depth generalizing ctx target q with
  | zero =>
    cases q with
    | isSupported s t => exact R.rel_map _ (R.supports_related ho s t)
    | isOverridden | overridden | convert | convertIn | override => exact R.rel_pure _
  | succ depth ih =>
    cases q with
    | convert v t => exact R.rel_map _ (R.dispatchBy_related ho factory? ctx (ih ctx t) v t)
    | convertIn place v t =>
      exact R.rel_map _ (R.dispatchBy_related ho factory? _ (ih (ctx.other place) t) v t)
    | isSupported s t => exact R.rel_map _ (R.supports_related ho s t)
    | isOverridden | overridden => exact R.rel_pure _
    | override s t v =>
      simp only [answer]
      cases ctx.override? s t with
      | some f => exact R.rel_map _ (R.run_related (ih ctx target) _)
      | none => exact R.rel_pure _

/-- Dispatches by related oracles are related, at every depth. -/
theorem dispatch_related (ho : o.Related R o') (factory? : CollectionTy → Option Factory)
    (ctx : Context) (depth : Nat) (v : Value) (target : Ty) :
    R.Rel (dispatch o factory? ctx depth v target) (dispatch o' factory? ctx depth v target) := by
  cases depth with
  | zero => exact R.rel_pure _
  | succ depth =>
    exact R.dispatchBy_related ho factory? ctx (R.answer_related ho factory? depth ctx target) v
      target

end MonadRelation

end Recast
