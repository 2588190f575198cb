/-
A logic for procedures.

A procedure is judged by what it asks for and what it makes of the answers:
`Ensures asks answers post` says that each request satisfies `asks`, and that
whenever each answer satisfies `answers`, the result, if there is one,
satisfies `post`. Partial correctness: a procedure that fails ensures
everything. One rule for each way of putting procedures together, and
`Ensures.run` for running them. What may be asked for at all, on some answers
to what is asked before it, is `MayAsk`; a run ends when all that has an answer.
-/
import Recast.Conversion.Context

namespace Recast

theorem bind_eq_ok_iff {ε α β : Type} {x : Except ε α} {f : α → Except ε β} {b : β} :
    (x >>= f) = .ok b ↔ ∃ a, x = .ok a ∧ f a = .ok b := by
  cases x with
  | error e => exact ⟨fun h => (nomatch h), fun ⟨_, h, _⟩ => (nomatch h)⟩
  | ok a => exact ⟨fun h => ⟨a, rfl, h⟩, fun ⟨_, ha, h⟩ => by cases ha; exact h⟩

/-- What each step of a successful fold keeps, the fold keeps. -/
theorem foldlM_ok_induction {ε α β : Type} {P : β → Prop} {f : β → α → Except ε β} {as : List α}
    {b b' : β} (h : as.foldlM f b = .ok b') (hb : P b)
    (hstep : ∀ a ∈ as, ∀ c c', P c → f c a = .ok c' → P c') : P b' := by
  induction as generalizing b with
  | nil =>
    cases h
    exact hb
  | cons a as ih =>
    rw [List.foldlM_cons] at h
    obtain ⟨c, hc, h⟩ := bind_eq_ok_iff.1 h
    have hmem : ∀ x ∈ as, x ∈ a :: as := fun x hx => List.mem_cons_of_mem a hx
    exact ih h (hstep a List.mem_cons_self b c hb hc) fun x hx => hstep x (hmem x hx)

namespace Request

/-- A question that is answered without a conversion. -/
def isQuestion : Request → Bool
  | .isSupported _ _ | .isOverridden _ _ | .overridden => true
  | .convert _ _ | .convertIn _ _ _ | .override _ _ _ => false

/-- A conversion in the same context, of a value and to a type as `P` says. -/
def Converts (P : Value → Ty → Prop) : Request → Prop
  | .convert v t => P v t
  | _ => False

/-- The answer to a conversion in the same context is as `P` says, if it is a value. -/
def Gives (P : Value → Ty → Value → Prop) : (q : Request) → q.Answer → Prop
  | .convert v t, .ok w => P v t w
  | _, _ => True

end Request

namespace Procedure

variable {α β : Type} {asks : Request → Prop} {answers : (q : Request) → q.Answer → Prop}
variable {post : α → Prop} {p : Procedure α}

/-- Every request is one that `asks` allows, and with answers that `answers` allows the result is
as `post` says. -/
def Ensures (asks : Request → Prop) (answers : (q : Request) → q.Answer → Prop)
    (post : α → Prop) : Procedure α → Prop
  | .done a => post a
  | .fail _ => True
  | .request q next => asks q ∧ ∀ a, answers q a → (next a).Ensures asks answers post

/-- Whatever the answers, every request is one that `asks` allows. -/
abbrev Requests (asks : Request → Prop) (p : Procedure α) : Prop :=
  p.Ensures asks (fun _ _ => True) fun _ => True

/-- The request is made, on some answers to those before it. -/
def MayAsk (q : Request) : Procedure α → Prop
  | .done _ | .fail _ => False
  | .request r next => r = q ∨ ∃ a, (next a).MayAsk q

theorem ensures_pure {a : α} (h : post a) : (pure a : Procedure α).Ensures asks answers post := h

theorem ensures_fail (e : ConversionError) : (Procedure.fail e).Ensures asks answers post := trivial

theorem Ensures.bind {f : α → Procedure β} {mid : α → Prop} {post : β → Prop}
    (h : p.Ensures asks answers mid) (hf : ∀ a, mid a → (f a).Ensures asks answers post) :
    (p >>= f).Ensures asks answers post := by
  show (p.bind f).Ensures asks answers post
  induction p with
  | done a => exact hf a h
  | fail e => trivial
  | request q next ih => exact ⟨h.1, fun a ha => ih a (h.2 a ha)⟩

theorem Ensures.imp {post' : α → Prop} (h : p.Ensures asks answers post)
    (hpost : ∀ a, post a → post' a) : p.Ensures asks answers post' := by
  induction p with
  | done a => exact hpost a h
  | fail e => trivial
  | request q next ih => exact ⟨h.1, fun a ha => ih a (h.2 a ha)⟩

theorem Ensures.mono {asks' : Request → Prop} (h : p.Ensures asks answers post)
    (hasks : ∀ q, asks q → asks' q) : p.Ensures asks' answers post := by
  induction p with
  | done a => exact h
  | fail e => trivial
  | request q next ih => exact ⟨hasks q h.1, fun a ha => ih a (h.2 a ha)⟩

/-- A procedure that asks for nothing does not depend on the answers. -/
theorem Ensures.of_pure (h : p.Ensures (fun _ => False) (fun _ _ => True) post) :
    p.Ensures asks answers post := by
  cases p with
  | done a => exact h
  | fail e => trivial
  | request q next => exact h.1.elim

theorem ensures_ofExcept {x : Except ConversionError α} (h : ∀ a, x = .ok a → post a) :
    (ofExcept x).Ensures asks answers post := by
  cases x with
  | error e => trivial
  | ok a => exact h a rfl

theorem ensures_ask {v : Value} {t : Ty} {post : Value → Prop} (hasks : asks (.convert v t))
    (h : ∀ w, answers (.convert v t) (.ok w) → post w) : (ask v t).Ensures asks answers post := by
  refine ⟨hasks, fun a ha => ensures_ofExcept fun w hw => h w ?_⟩
  rw [← hw]
  exact ha

theorem Ensures.of_mayAsk {q : Request} (h : p.Ensures asks (fun _ _ => True) post)
    (hask : p.MayAsk q) : asks q := by
  induction p with
  | done | fail => exact hask.elim
  | request r next ih =>
    rcases hask with rfl | ⟨a, hask⟩
    · exact h.1
    · exact ih a (h.2 a trivial) hask

/-! ## Running -/

variable {answer answer' : (q : Request) → Option q.Answer}

/-- The run of a request: nothing without an answer, no result for one of which nothing is
promised, and what follows otherwise. -/
theorem run_request (q : Request) (next : q.Answer → Procedure α) :
    (Procedure.request q next).run (m := Id) answer =
      match answer q with
      | some a =>
        if q.isUnsettled a then some (.error .unsettled) else (next a).run (m := Id) answer
      | none => none := by
  cases ha : answer q with
  | none =>
    simp only [Procedure.run, Bind.bind, ha]
    rfl
  | some a =>
    simp only [Procedure.run, Bind.bind, ha]
    rfl

/-- The result of a run whose requests were answered as allowed. -/
theorem Ensures.run (h : p.Ensures asks answers post)
    (hanswer : ∀ q a, asks q → answer q = some a → answers q a) {a : α}
    (hrun : p.run (m := Id) answer = some (.ok a)) : post a := by
  induction p with
  | done b =>
    cases hrun
    exact h
  | fail e => cases hrun
  | request q next ih =>
    rw [run_request] at hrun
    cases hr : answer q with
    | none => simp [hr] at hrun
    | some r =>
      simp only [hr] at hrun
      split at hrun
      · cases hrun
      · exact ih r (h.2 r (hanswer q r h.1 hr)) hrun

/-- A run depends only on the answers to what may be asked. -/
theorem Ensures.run_congr (h : p.Ensures asks (fun _ _ => True) post)
    (hagree : ∀ q, asks q → answer q = answer' q) :
    p.run (m := Id) answer = p.run (m := Id) answer' := by
  induction p with
  | done | fail => rfl
  | request q next ih =>
    rw [run_request, run_request, hagree q h.1]
    cases answer' q with
    | none => rfl
    | some a => simp only [ih a (h.2 a trivial)]

/-- A run has a result when all that may come up in it has an answer. -/
theorem isSome_run (hanswer : ∀ q, p.MayAsk q → (answer q).isSome) :
    (p.run (m := Id) answer).isSome := by
  induction p with
  | done | fail => rfl
  | request q next ih =>
    obtain ⟨a, ha⟩ := Option.isSome_iff_exists.1 (hanswer q (.inl rfl))
    rw [run_request, ha]
    by_cases hu : q.isUnsettled a
    · simp only [if_pos hu]
      rfl
    · simp only [if_neg hu]
      exact ih a fun r hask => hanswer r (.inr ⟨a, hask⟩)

/-- The result of a run stays when more is answered. -/
theorem run_mono {r : Except ConversionError α}
    (hanswer : ∀ q a, answer q = some a → answer' q = some a)
    (h : p.run (m := Id) answer = some r) : p.run (m := Id) answer' = some r := by
  induction p with
  | done | fail => exact h
  | request q next ih =>
    rw [run_request] at h ⊢
    cases ha : answer q with
    | none =>
      rw [ha] at h
      cases h
    | some a =>
      simp only [ha, hanswer q a ha] at h ⊢
      by_cases hu : q.isUnsettled a
      · simpa only [if_pos hu] using h
      · simp only [if_neg hu] at h ⊢
        exact ih a h

theorem run_ofExcept (x : Except ConversionError α) :
    (ofExcept x).run (m := Id) answer = some x := by
  cases x <;> rfl

/-- Running one procedure after another: an error ends the run, and so does a missing answer. -/
theorem run_bind (p : Procedure α) (f : α → Procedure β) :
    (p >>= f).run (m := Id) answer =
      match p.run (m := Id) answer with
      | some (.ok a) => (f a).run (m := Id) answer
      | some (.error e) => some (.error e)
      | none => none := by
  show (p.bind f).run (m := Id) answer = _
  induction p with
  | done | fail => rfl
  | request q next ih =>
    rw [Procedure.bind, run_request, run_request]
    cases answer q with
    | none => rfl
    | some a =>
      by_cases hu : q.isUnsettled a
      · simp only [if_pos hu]
      · simp only [if_neg hu]
        exact ih a

theorem run_bind_pure (p : Procedure α) (f : α → β) :
    (p >>= fun a => pure (f a)).run (m := Id) answer =
      Option.map (Except.map f) (p.run (m := Id) answer) := by
  rw [run_bind]
  cases p.run (m := Id) answer with
  | none => rfl
  | some r => cases r <;> rfl

theorem run_ask (v : Value) (t : Ty) :
    (ask v t).run (m := Id) answer = answer (.convert v t) := by
  rw [ask, run_request]
  cases answer (.convert v t) with
  | none => rfl
  | some a =>
    cases a with
    | ok w => rfl
    | error e => cases e <;> rfl

end Procedure

end Recast
