/-
What a converter remembers does not show in its answers.

A computation with memory is compared with one that has none and lists the
pairs it asks the registry to resolve (`Recorded`). Whatever is remembered is
what the registry says, so the two give the same value, and the pairs
remembered are those listed (`Memo.Remembers`, kept by both oracles and so by
every dispatch). Steps of any kind in any order keep it, and each answers as it
would without memory (`answers_without_memory`).
-/
import Recast.Proofs.Converter.Parametricity
import Recast.Proofs.Hierarchy.Assignability
import Mathlib.Data.Finset.Card

namespace Recast

/-! ## Recorded computations -/

/-- A value, and the pairs that were resolved on the way to it. -/
structure Recorded (α : Type) where
  value : α
  asked : List (Ty × Ty)

namespace Recorded

variable {α β : Type}

instance : Monad Recorded where
  pure a := ⟨a, []⟩
  bind x f := ⟨(f x.value).value, x.asked ++ (f x.value).asked⟩

@[simp] theorem bind_value (x : Recorded α) (f : α → Recorded β) :
    (x >>= f).value = (f x.value).value := rfl
@[simp] theorem bind_asked (x : Recorded α) (f : α → Recorded β) :
    (x >>= f).asked = x.asked ++ (f x.value).asked := rfl

instance : LawfulMonad Recorded :=
  .mk' Recorded (fun x => by cases x; simp [Functor.map]) (fun _ _ => rfl)
    (fun x f g => by simp only [Bind.bind, List.append_assoc])

/-- The registry's own answers, with the pairs that were resolved. -/
def oracle (r : Registry) (tie : TieBreak) : Oracle Recorded where
  isAssignable source target := ⟨r.hierarchy.isAssignable source target, []⟩
  resolve source target := ⟨r.resolve tie source target, [(source, target)]⟩

/-- Recording changes no value. -/
def forget : MonadRelation Recorded Id where
  Rel x y := x.value = y.run
  rel_pure _ := rfl
  rel_bind hx hf := by
    rw [bind_value, hx]
    exact hf _

theorem forget_oracle (r : Registry) (tie : TieBreak) :
    (oracle r tie).Related forget (r.oracle tie) where
  isAssignable _ _ := rfl
  resolve _ _ := rfl

end Recorded

/-! ## Memory -/

namespace Memo

variable {r : Registry} {tie : TieBreak} {asked : List (Ty × Ty)} {memo : Memo}

/-- What is remembered are the registry's own answers, for resolutions exactly those of the pairs
asked, each once. -/
structure Remembers (r : Registry) (tie : TieBreak) (asked : List (Ty × Ty)) (memo : Memo) :
    Prop where
  resolutions : ∀ p answer, (p, answer) ∈ memo.resolutions → answer = r.resolve tie p.1 p.2
  assignable : ∀ p answer, (p, answer) ∈ memo.assignable →
    answer = r.hierarchy.isAssignable p.1 p.2
  mem_asked : ∀ p, p ∈ memo.resolutions.map (·.1) ↔ p ∈ asked
  nodup : (memo.resolutions.map (·.1)).Nodup

theorem remembers_empty (r : Registry) (tie : TieBreak) : empty.Remembers r tie [] where
  resolutions _ _ h := nomatch h
  assignable _ _ h := nomatch h
  mem_asked _ := .rfl
  nodup := .nil

theorem Remembers.length_resolutions (h : memo.Remembers r tie asked) :
    memo.resolutions.length = asked.toFinset.card := by
  have heq : (memo.resolutions.map (·.1)).toFinset = asked.toFinset := by
    ext p
    simp only [List.mem_toFinset, h.mem_asked]
  rw [← heq, List.toFinset_card_of_nodup h.nodup, List.length_map]

theorem mem_of_lookup {α β : Type} [BEq α] [LawfulBEq α] {k : α} {v : β} {l : List (α × β)}
    (h : l.lookup k = some v) : (k, v) ∈ l := by
  obtain ⟨l₁, l₂, rfl, -⟩ := List.lookup_eq_some_iff.1 h
  simp

/-- Remembering related to recording: the same value, and the pairs asked are remembered. -/
def remembering (r : Registry) (tie : TieBreak) : MonadRelation (StateM Memo) Recorded where
  Rel x y := ∀ memo asked, memo.Remembers r tie asked →
    (x.run memo).1 = y.value ∧ (x.run memo).2.Remembers r tie (asked ++ y.asked)
  rel_pure a memo asked h := ⟨rfl, (List.append_nil asked).symm ▸ h⟩
  rel_bind {α β x y f g} hx hf memo asked h := by
    obtain ⟨hvalue, hmemo⟩ := hx memo asked h
    have hnext := hf (x.run memo).1 (x.run memo).2 (asked ++ y.asked) hmemo
    rw [hvalue, List.append_assoc] at hnext
    rw [Recorded.bind_value, Recorded.bind_asked, ← hvalue]
    rw [← hvalue] at hnext
    exact hnext

theorem run_askAssignable (r : Registry) (source target : Ty) (memo : Memo) :
    (askAssignable r source target).run memo =
      if source = target then (true, memo)
      else if source = .null then (false, memo)
      else if target = .any then (true, memo)
      else match memo.assignable.lookup (source, target) with
        | some answer => (answer, memo)
        | none => (r.hierarchy.isAssignable source target,
            { memo with assignable :=
                ((source, target), r.hierarchy.isAssignable source target) :: memo.assignable }) := by
  by_cases hself : source = target
  · simp [askAssignable, hself]
    rfl
  by_cases hnull : source = .null
  · subst hnull
    simp [askAssignable, hself]
    rfl
  by_cases hany : target = .any
  · subst hany
    simp [askAssignable, hself, hnull]
    rfl
  cases hl : memo.assignable.lookup (source, target) <;>
    simp [askAssignable, hself, hnull, hany, hl] <;> rfl

theorem run_askResolution (r : Registry) (tie : TieBreak) (source target : Ty) (memo : Memo) :
    (askResolution r tie source target).run memo =
      match memo.resolutions.lookup (source, target) with
      | some answer => (answer, memo)
      | none => (r.resolve tie source target,
          { memo with resolutions :=
              ((source, target), r.resolve tie source target) :: memo.resolutions }) := by
  cases hl : memo.resolutions.lookup (source, target) <;> simp [askResolution, hl] <;> rfl

theorem remembering_askAssignable (r : Registry) (tie : TieBreak) (source target : Ty) :
    (remembering r tie).Rel (askAssignable r source target)
      ⟨r.hierarchy.isAssignable source target, []⟩ := by
  intro memo asked h
  rw [List.append_nil, run_askAssignable]
  split
  · next hself => exact ⟨by rw [hself, Hierarchy.isAssignable_refl], h⟩
  next hself =>
  split
  · next hnull => exact ⟨by rw [hnull, Hierarchy.isAssignable_null (hnull ▸ Ne.symm hself)], h⟩
  next hnull =>
  split
  · next hany => exact ⟨by rw [hany, Hierarchy.isAssignable_any hnull], h⟩
  split
  · next answer hl => exact ⟨h.assignable _ _ (mem_of_lookup hl), h⟩
  · refine ⟨rfl, h.resolutions, fun p answer hmem => ?_, h.mem_asked, h.nodup⟩
    rcases List.mem_cons.1 hmem with heq | hmem
    · cases heq
      rfl
    · exact h.assignable p answer hmem

theorem remembering_askResolution (r : Registry) (tie : TieBreak) (source target : Ty) :
    (remembering r tie).Rel (askResolution r tie source target)
      ⟨r.resolve tie source target, [(source, target)]⟩ := by
  intro memo asked h
  rw [run_askResolution]
  split
  next answer hl =>
    have hmem := mem_of_lookup hl
    have hasked : (source, target) ∈ asked :=
      (h.mem_asked _).1 (List.mem_map.2 ⟨_, hmem, rfl⟩)
    refine ⟨h.resolutions _ _ hmem, h.resolutions, h.assignable, fun p => ?_, h.nodup⟩
    rw [h.mem_asked, List.mem_append, List.mem_singleton]
    exact ⟨.inl, fun hp => hp.elim id (· ▸ hasked)⟩
  next hl =>
    have hnew : (source, target) ∉ memo.resolutions.map (·.1) := by
      intro hmem
      obtain ⟨⟨q, answer⟩, hq, rfl⟩ := List.mem_map.1 hmem
      simpa using List.lookup_eq_none_iff.1 hl _ hq
    refine ⟨rfl, fun p answer hmem => ?_, h.assignable, fun p => ?_,
      List.nodup_cons.2 ⟨hnew, h.nodup⟩⟩
    · rcases List.mem_cons.1 hmem with heq | hmem
      · cases heq
        rfl
      · exact h.resolutions p answer hmem
    · rw [List.map_cons, List.mem_cons, h.mem_asked, List.mem_append, List.mem_singleton, or_comm]

theorem remembering_oracle (r : Registry) (tie : TieBreak) :
    (oracle r tie).Related (remembering r tie) (Recorded.oracle r tie) where
  isAssignable := remembering_askAssignable r tie
  resolve := remembering_askResolution r tie

end Memo

/-! ## Steps -/

namespace Converter

/-- What a converter is asked to do. -/
inductive Step
  | convert (depth : Nat) (v : Value) (target : Ty)
  | convertIn (ctx : Context) (depth : Nat) (v : Value) (target : Ty)
  | isSupported (source target : Ty)
  | resolve (source target : Ty)
  | isAssignable (source target : Ty)
  | withContext (ctx : Context)

/-- What a step answers. -/
inductive Answer
  | converted (outcome : Outcome Converted)
  | truth (b : Bool)
  | resolution (resolution : Resolution)
  | done

/-- One step of a converter. -/
def step (c : Converter) : Step → Answer × Converter
  | .convert depth v target => Prod.map .converted id (c.convert depth v target)
  | .convertIn ctx depth v target => Prod.map .converted id (c.convertIn ctx depth v target)
  | .isSupported source target => Prod.map .truth id (c.isSupported source target)
  | .resolve source target => Prod.map .resolution id (c.resolve source target)
  | .isAssignable source target => Prod.map .truth id (c.isAssignable source target)
  | .withContext ctx => (.done, c.withContext ctx)

/-- The converter after some steps. -/
def after (c : Converter) (steps : List Step) : Converter :=
  steps.foldl (fun c s => (c.step s).2) c

/-- The default context after a step. -/
def Step.context (ctx : Context) : Step → Context
  | .withContext ctx => ctx
  | _ => ctx

/-- The computation that a step runs. -/
def Step.computation {m : Type → Type} [Monad m] (oracle : Oracle m)
    (factory? : CollectionTy → Option Factory) (ctx : Context) : Step → m Answer
  | .convert depth v target => .converted <$> dispatch oracle factory? ctx depth v target
  | .convertIn ctx depth v target => .converted <$> dispatch oracle factory? ctx depth v target
  | .isSupported source target => .truth <$> supports oracle source target
  | .resolve source target => .resolution <$> oracle.resolve source target
  | .isAssignable source target => .truth <$> oracle.isAssignable source target
  | .withContext _ => pure .done

/-- The pairs that reach the registry's resolution in some steps, conversions of nested values
included. -/
def asked (r : Registry) (tie : TieBreak) (ctx : Context) : List Step → List (Ty × Ty)
  | [] => []
  | s :: steps =>
    (s.computation (Recorded.oracle r tie) r.factory? ctx).asked ++
      asked r tie (s.context ctx) steps

theorem step_eq (c : Converter) (s : Step) :
    c.step s =
      let result := (s.computation (Memo.oracle c.registry c.tie) c.registry.factory? c.context).run
        c.memo
      (result.1, { c with context := s.context c.context, memo := result.2 }) := by
  cases s <;> rfl

theorem computation_related {m n : Type → Type} [Monad m] [Monad n] [LawfulMonad m]
    [LawfulMonad n] {R : MonadRelation m n} {o : Oracle m} {o' : Oracle n} (ho : o.Related R o')
    (factory? : CollectionTy → Option Factory) (ctx : Context) (s : Step) :
    R.Rel (s.computation o factory? ctx) (s.computation o' factory? ctx) := by
  cases s with
  | convert depth v target | convertIn _ depth v target =>
    exact R.rel_map _ (R.dispatch_related ho factory? _ depth v target)
  | isSupported source target => exact R.rel_map _ (R.supports_related ho source target)
  | resolve source target => exact R.rel_map _ (ho.resolve source target)
  | isAssignable source target => exact R.rel_map _ (ho.isAssignable source target)
  | withContext ctx => exact R.rel_pure _

/-- What a converter remembers after some steps, and what else it holds. -/
theorem remembers_after {c : Converter} {before : List (Ty × Ty)}
    (h : c.memo.Remembers c.registry c.tie before) (steps : List Step) :
    (c.after steps).memo.Remembers c.registry c.tie
        (before ++ asked c.registry c.tie c.context steps) ∧
      (c.after steps).registry = c.registry ∧ (c.after steps).tie = c.tie ∧
      (c.after steps).context = steps.foldl Step.context c.context := by
  induction steps generalizing c before with
  | nil => simpa [after, asked] using h
  | cons s steps ih =>
    have hstep := (computation_related (Memo.remembering_oracle c.registry c.tie)
      c.registry.factory? c.context s c.memo before h).2
    have hafter : c.after (s :: steps) = (c.step s).2.after steps := rfl
    rw [hafter, step_eq, asked, ← List.append_assoc]
    exact ih (c := { c with context := s.context c.context, memo := _ }) hstep

/-- With right answers remembered, a conversion is the registry's. -/
theorem convertIn_eq {c : Converter} {before : List (Ty × Ty)}
    (h : c.memo.Remembers c.registry c.tie before) (ctx : Context) (depth : Nat) (v : Value)
    (target : Ty) :
    (c.convertIn ctx depth v target).1 = c.registry.convert c.tie ctx depth v target := by
  have hrecorded := ((Memo.remembering c.registry c.tie).dispatch_related
    (Memo.remembering_oracle c.registry c.tie) c.registry.factory? ctx depth v target c.memo before
    h).1
  have hplain := Recorded.forget.dispatch_related (Recorded.forget_oracle c.registry c.tie)
    c.registry.factory? ctx depth v target
  exact hrecorded.trans hplain

/-- A converter that started without memory converts as its registry does. -/
theorem convertIn_after (r : Registry) (tie : TieBreak) (own : Context) (steps : List Step)
    (ctx : Context) (depth : Nat) (v : Value) (target : Ty) :
    (convertIn (.after ⟨r, tie, own, .empty⟩ steps) ctx depth v target).1 =
      r.convert tie ctx depth v target := by
  obtain ⟨hmemo, hregistry, htie, -⟩ :=
    remembers_after (c := ⟨r, tie, own, .empty⟩) (Memo.remembers_empty r tie) steps
  rw [← hregistry, ← htie] at hmemo
  rw [convertIn_eq hmemo, hregistry, htie]

/-- **Memory does not show.** After any steps on a converter that starts without memory, every
further step answers as the registry does, which is what it answers without memory. No override is
remembered: the answers remembered are the registry's, and as many resolutions as distinct pairs
have reached it, nested conversions included. -/
theorem answers_without_memory (r : Registry) (tie : TieBreak) (ctx : Context)
    (steps : List Step) (s : Step) :
    let c : Converter := after ⟨r, tie, ctx, .empty⟩ steps
    ((c.step s).1 = ({ c with memo := .empty }.step s).1 ∧
      (c.step s).1 = s.computation (r.oracle tie) r.factory? c.context) ∧
    (c.registry = r ∧ c.tie = tie ∧ c.context = steps.foldl Step.context ctx) ∧
    (∀ p answer, (p, answer) ∈ c.memo.resolutions → answer = r.resolve tie p.1 p.2) ∧
    (∀ p answer, (p, answer) ∈ c.memo.assignable →
      answer = r.hierarchy.isAssignable p.1 p.2) ∧
    c.resolvedPairs = (asked r tie ctx steps).toFinset.card := by
  intro c
  obtain ⟨hmemo, hregistry, htie, hcontext⟩ :=
    remembers_after (c := ⟨r, tie, ctx, .empty⟩) (Memo.remembers_empty r tie) steps
  rw [List.nil_append] at hmemo
  have hvalue {asked : List (Ty × Ty)} {memo : Memo} (h : memo.Remembers r tie asked) :
      ({ c with memo }.step s).1 = s.computation (r.oracle tie) r.factory? c.context := by
    have hrecorded := (computation_related (Memo.remembering_oracle r tie) r.factory? c.context s
      memo asked h).1
    have hplain := computation_related (Recorded.forget_oracle r tie) r.factory? c.context s
    rw [step_eq]
    simp only [c, hregistry, htie]
    exact hrecorded.trans hplain
  have hc := hvalue hmemo
  exact ⟨⟨hc.trans (hvalue (Memo.remembers_empty r tie)).symm, hc⟩,
    ⟨hregistry, htie, hcontext⟩, hmemo.resolutions, hmemo.assignable, hmemo.length_resolutions⟩

end Converter

end Recast
