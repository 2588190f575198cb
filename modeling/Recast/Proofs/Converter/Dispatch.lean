/-
A conversion by cases.

Dispatching by a registry's own answers needs no monad: a conversion is the
override of its pair, or the value itself, or what the pair resolves to, run
with its requests dispatched one level deeper (`convert_succ`). A conversion
that comes to an end does so at every greater depth (`convert_mono`).
-/
import Recast.Converter
import Recast.Proofs.Conversion.Procedure

namespace Recast

namespace Outcome

variable {c : Converted} {w : Value}

theorem of_made_eq_ok {r : Outcome Value} (h : r.made = some (.ok c)) :
    r = some (.ok c.value) := by
  obtain ⟨r, rfl, hr⟩ := Option.map_eq_some_iff.1 h
  cases r with
  | error e => cases hr
  | ok w =>
    cases hr
    rfl

theorem of_value_eq_ok {r : Outcome Converted} (h : r.value = some (.ok w)) :
    ∃ c, r = some (.ok c) ∧ c.value = w := by
  obtain ⟨r, rfl, hr⟩ := Option.map_eq_some_iff.1 h
  cases r with
  | error e => cases hr
  | ok c =>
    cases hr
    exact ⟨c, rfl, rfl⟩

end Outcome

namespace Registry

variable {r : Registry} {tie : TieBreak} {ctx : Context} {depth : Nat} {v : Value} {target : Ty}
variable {c : Converted}

/-- Answers a request of a conversion that was called in a context for a target. -/
def answer (r : Registry) (tie : TieBreak) (depth : Nat) (ctx : Context) (target : Ty)
    (q : Request) : Option q.Answer :=
  Recast.answer (m := Id) (r.oracle tie) r.factory? depth ctx target q

/-- Runs a procedure of a call for a target, its requests answered at a depth. -/
def execute (r : Registry) (tie : TieBreak) (ctx : Context) (depth : Nat) (target : Ty)
    (p : Procedure Value) : Outcome Value :=
  p.run (m := Id) (r.answer tie depth ctx target)

theorem answer_convert (t : Ty) :
    r.answer tie depth ctx target (.convert v t) = (r.convert tie ctx depth v t).value := by
  cases depth <;> rfl

theorem answer_isOverridden (s t : Ty) :
    r.answer tie depth ctx target (.isOverridden s t) = some (ctx.override? s t).isSome := by
  cases depth <;> rfl

theorem answer_override_succ (s t : Ty) :
    r.answer tie (depth + 1) ctx target (.override s t v) =
      match ctx.override? s t with
      | some f => Option.map some (r.execute tie ctx depth target (f v (ctx.call target)))
      | none => some none := by
  simp only [answer, Recast.answer]
  cases ctx.override? s t <;> rfl

theorem dispatchBy_eq (r : Registry) (tie : TieBreak) (ctx : Context)
    (answer : (q : Request) → Option q.Answer) (v : Value) (target : Ty) :
    dispatchBy (m := Id) (r.oracle tie) r.factory? ctx answer v target =
      match ctx.override? v.ty target with
      | some f => Outcome.made ((f v (ctx.call target)).run (m := Id) answer)
      | none =>
        if v.isNull = false ∧ r.hierarchy.isAssignable v.ty target then
          some (.ok ⟨v, !v.isMutable⟩)
        else
          match r.resolve tie v.ty target with
          | .direct f => Outcome.made ((f v (ctx.call target)).run (m := Id) answer)
          | .reshape plan =>
            Outcome.made ((plan.procedure r.factory? v (ctx.call target)).run (m := Id) answer)
          | .ambiguous => some (.error (.ambiguous v.ty target))
          | .unsupported => some (.error (.unsupported v.ty target)) := by
  simp only [dispatchBy]
  cases ho : ctx.override? v.ty target with
  | some f => rfl
  | none =>
    by_cases hshort : v.isNull = false ∧ r.hierarchy.isAssignable v.ty target
    · simp only [hshort, oracle]
      rfl
    · have hask : (if v.isNull then false else r.hierarchy.isAssignable v.ty target) = false := by
        cases hnull : v.isNull with
        | true => rfl
        | false => simpa [hnull] using hshort
      simp only [oracle, if_neg hshort]
      show (if (if v.isNull then false else r.hierarchy.isAssignable v.ty target) = true then _
        else _) = _
      rw [hask]
      generalize r.resolve tie v.ty target = resolution
      cases resolution <;> rfl

/-- A conversion by cases, its requests answered one level deeper. -/
theorem convert_succ (r : Registry) (tie : TieBreak) (ctx : Context) (depth : Nat) (v : Value)
    (target : Ty) :
    r.convert tie ctx (depth + 1) v target =
      match ctx.override? v.ty target with
      | some f => (r.execute tie ctx depth target (f v (ctx.call target))).made
      | none =>
        if v.isNull = false ∧ r.hierarchy.isAssignable v.ty target then
          some (.ok ⟨v, !v.isMutable⟩)
        else
          match r.resolve tie v.ty target with
          | .direct f => (r.execute tie ctx depth target (f v (ctx.call target))).made
          | .reshape plan =>
            (r.execute tie ctx depth target (plan.procedure r.factory? v (ctx.call target))).made
          | .ambiguous => some (.error (.ambiguous v.ty target))
          | .unsupported => some (.error (.unsupported v.ty target)) :=
  r.dispatchBy_eq tie ctx (r.answer tie depth ctx target) v target

/-! ## Deeper dispatches -/

theorem dispatchBy_mono {answer answer' : (q : Request) → Option q.Answer}
    {result : Except ConversionError Converted}
    (hanswer : ∀ q a, answer q = some a → answer' q = some a)
    (h : dispatchBy (m := Id) (r.oracle tie) r.factory? ctx answer v target = some result) :
    dispatchBy (m := Id) (r.oracle tie) r.factory? ctx answer' v target = some result := by
  have hmade (p : Procedure Value) (h : Outcome.made (p.run (m := Id) answer) = some result) :
      Outcome.made (p.run (m := Id) answer') = some result := by
    obtain ⟨w, hw, rfl⟩ := Option.map_eq_some_iff.1 h
    rw [Procedure.run_mono hanswer hw]
    rfl
  rw [dispatchBy_eq] at h ⊢
  cases ho : ctx.override? v.ty target with
  | some f =>
    simp only [ho] at h ⊢
    exact hmade _ h
  | none =>
    simp only [ho] at h ⊢
    split at h
    next hself => exact (if_pos hself).trans h
    next hself =>
      rw [if_neg hself]
      cases hresolve : r.resolve tie v.ty target with
      | direct f =>
        simp only [hresolve] at h ⊢
        exact hmade _ h
      | reshape plan =>
        simp only [hresolve] at h ⊢
        exact hmade _ h
      | ambiguous | unsupported =>
        simp only [hresolve] at h ⊢
        exact h

theorem answer_mono {depth' : Nat} {q : Request} {a : q.Answer} (hdepth : depth ≤ depth')
    (h : r.answer tie depth ctx target q = some a) :
    r.answer tie depth' ctx target q = some a := by
  induction depth generalizing depth' ctx target q with
  | zero =>
    cases q with
    | isSupported | isOverridden | overridden => cases depth' <;> exact h
    | convert | convertIn | override => cases h
  | succ depth ih =>
    obtain ⟨depth', rfl⟩ := Nat.exists_eq_add_of_le' (Nat.le_of_add_left_le hdepth)
    have hle : depth ≤ depth' := Nat.le_of_succ_le_succ hdepth
    cases q with
    | isSupported | isOverridden | overridden => exact h
    | convert v t =>
      obtain ⟨result, hresult, rfl⟩ := Option.map_eq_some_iff.1 h
      exact congrArg Outcome.value (dispatchBy_mono (fun q a => ih hle) hresult)
    | convertIn place v t =>
      obtain ⟨result, hresult, rfl⟩ := Option.map_eq_some_iff.1 h
      exact congrArg Outcome.value (dispatchBy_mono (fun q a => ih hle) hresult)
    | override s t v =>
      rw [answer_override_succ] at h ⊢
      cases ho : ctx.override? s t with
      | none => simpa only [ho] using h
      | some f =>
        simp only [ho] at h ⊢
        obtain ⟨result, hresult, rfl⟩ := Option.map_eq_some_iff.1 h
        exact congrArg (Option.map some) (Procedure.run_mono (fun q a => ih hle) hresult)

/-- Dispatching as much deeper as wanted does not change what comes of a conversion. -/
theorem convert_mono {depth' : Nat} {result : Except ConversionError Converted}
    (hdepth : depth ≤ depth') (h : r.convert tie ctx depth v target = some result) :
    r.convert tie ctx depth' v target = some result := by
  cases depth with
  | zero => cases h
  | succ depth =>
    obtain ⟨depth', rfl⟩ := Nat.exists_eq_add_of_le' (Nat.le_of_add_left_le hdepth)
    exact dispatchBy_mono (fun q a => answer_mono (Nat.le_of_succ_le_succ hdepth)) h

/-- A conversion that succeeds without an override gives the value itself, or what the pair
resolves to makes of it. -/
theorem convert_eq_ok (ho : ctx.override? v.ty target = none)
    (h : r.convert tie ctx (depth + 1) v target = some (.ok c)) :
    (v ≠ .null ∧ r.hierarchy.isAssignable v.ty target ∧ c.value = v) ∨
      (∃ f, r.resolve tie v.ty target = .direct f ∧
        r.execute tie ctx depth target (f v (ctx.call target)) = some (.ok c.value)) ∨
      ∃ plan, r.resolve tie v.ty target = .reshape plan ∧
        r.execute tie ctx depth target (plan.procedure r.factory? v (ctx.call target)) =
          some (.ok c.value) := by
  simp only [convert_succ, ho] at h
  split at h
  next hself =>
    cases h
    refine .inl ⟨?_, hself.2, rfl⟩
    rintro rfl
    cases hself.1
  next =>
    cases hresolve : r.resolve tie v.ty target with
    | direct f =>
      simp only [hresolve] at h
      exact .inr (.inl ⟨f, rfl, Outcome.of_made_eq_ok h⟩)
    | reshape plan =>
      simp only [hresolve] at h
      exact .inr (.inr ⟨plan, rfl, Outcome.of_made_eq_ok h⟩)
    | ambiguous | unsupported => simp [hresolve] at h

end Registry

end Recast
