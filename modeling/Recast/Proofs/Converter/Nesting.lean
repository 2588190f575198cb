/-
How deep a conversion dispatches.

A dispatch leads to others right inside it, those of what its procedure asks
for (`Registry.Dispatches`). Where no chain of them is longer than a number, a
conversion ends at a depth of one more (`Registry.isSome_convert_of_chains`).

Entries of the standard registry ask for no conversion, and a reshaping asks
for those of elements alone. So each dispatch inside another is about a value
one level further in, no chain is longer than the levels of containers in the
value that it starts from (`length_le_nesting`), and a conversion ends at a
depth greater than these (`convert_within_nesting`), whatever the type asked
for.
-/
import Recast.Proofs.Container.Requests
import Recast.Proofs.Converter.Support
import Recast.Proofs.Standard.Typing
import Mathlib.Data.List.Chain

namespace Recast

namespace Value

mutual

/-- The levels of containers in a value. A set of constants is one level. -/
def nesting : Value → Nat
  | .array _ es | .collection _ es => nestingOfAll es + 1
  | .enumSet _ => 1
  | _ => 0
termination_by structural v => v

/-- The most levels of containers in any of some values. -/
def nestingOfAll : List Value → Nat
  | [] => 0
  | v :: vs => max v.nesting (nestingOfAll vs)
termination_by structural vs => vs

end

variable {v e : Value} {es : List Value}

theorem nesting_le_nestingOfAll (h : e ∈ es) : e.nesting ≤ nestingOfAll es := by
  induction es with
  | nil => cases h
  | cons f es ih =>
    rcases List.mem_cons.1 h with rfl | h
    · exact Nat.le_max_left e.nesting (nestingOfAll es)
    · exact (ih h).trans (Nat.le_max_right f.nesting (nestingOfAll es))

theorem HasElement.nesting_lt (h : v.HasElement e) : e.nesting < v.nesting := by
  obtain ⟨es, hes, he⟩ := h
  cases v with
  | array | collection =>
    cases hes
    exact Nat.lt_succ_of_le (nesting_le_nestingOfAll he)
  | enumSet s =>
    cases hes
    obtain ⟨c, -, rfl⟩ := List.mem_map.1 he
    exact Nat.zero_lt_one
  | _ => cases hes

end Value

/-- No override asks for a conversion, here or elsewhere, or for an override to be called. -/
def Context.AsksNothing (ctx : Context) : Prop :=
  ∀ o ∈ ctx.overrides, ∀ v call, (o.2 v call).Requests fun q => q.isQuestion

namespace Registry

variable {r : Registry} {tie : TieBreak} {ctx : Context} {depth n : Nat} {v : Value} {t : Ty}

/-- The procedure that a dispatch runs. One that returns its value as it is, or rejects it, runs
none. -/
def procedure? (r : Registry) (tie : TieBreak) (ctx : Context) (v : Value) (target : Ty) :
    Option (Procedure Value) :=
  match r.route tie ctx v target with
  | .replaced f | .resolved (.direct f) => some (f v (ctx.call target))
  | .resolved (.reshape plan) => some (plan.procedure r.factory? v (ctx.call target))
  | .unchanged | .resolved .ambiguous | .resolved .unsupported => none

/-- One dispatch, of a value to a type, may lead to another right inside it, on some answers to what
it asks before. -/
def Dispatches (r : Registry) (tie : TieBreak) (ctx : Context) (outer inner : Value × Ty) : Prop :=
  ∃ p, r.procedure? tie ctx outer.1 outer.2 = some p ∧ p.MayAsk (.convert inner.1 inner.2)

theorem isSome_answer {q : Request} (h : q.isQuestion) (r : Registry) (tie : TieBreak)
    (depth : Nat) (ctx : Context) (target : Ty) : (r.answer tie depth ctx target q).isSome := by
  cases q with
  | isSupported | isOverridden | overridden => cases depth <;> rfl
  | convert | convertIn | override => cases h

theorem isSome_convert_succ (hanswer : ∀ p q, r.procedure? tie ctx v t = some p → p.MayAsk q →
    (r.answer tie depth ctx t q).isSome) : (r.convert tie ctx (depth + 1) v t).isSome := by
  have hrun (p : Procedure Value) (hp : r.procedure? tie ctx v t = some p) :
      (r.execute tie ctx depth t p).made.isSome :=
    (Option.isSome_map ..).trans (Procedure.isSome_run fun q => hanswer p q hp)
  rw [convert_eq_follow]
  cases hroute : r.route tie ctx v t with
  | replaced f => exact hrun _ (by simp only [procedure?, hroute])
  | unchanged => rfl
  | resolved resolution =>
    cases resolution with
    | direct f => exact hrun _ (by simp only [procedure?, hroute])
    | reshape plan => exact hrun _ (by simp only [procedure?, hroute])
    | ambiguous | unsupported => rfl

/-- Where all that is asked for are conversions in the same context and questions, a conversion ends
at a depth greater than the dispatches that any chain has inside it. -/
theorem isSome_convert_of_chains
    (hasks : ∀ v t p, r.procedure? tie ctx v t = some p →
      p.Requests fun q => q.isQuestion ∨ q.Converts fun _ _ => True)
    (hn : ∀ inner, ((v, t) :: inner).IsChain (r.Dispatches tie ctx) → inner.length ≤ n) :
    (r.convert tie ctx (n + 1) v t).isSome := by
  induction n generalizing v t with
  | zero =>
    refine isSome_convert_succ fun p q hp hask => ?_
    rcases (hasks v t p hp).of_mayAsk hask with hq | hq
    · exact isSome_answer hq r tie 0 ctx t
    · cases q with
      | convert e u =>
        have hlength := hn [(e, u)] (.cons_cons ⟨p, hp, hask⟩ (.singleton _))
        exact absurd hlength (Nat.not_succ_le_zero 0)
      | _ => exact hq.elim
  | succ n ih =>
    refine isSome_convert_succ fun p q hp hask => ?_
    rcases (hasks v t p hp).of_mayAsk hask with hq | hq
    · exact isSome_answer hq r tie (n + 1) ctx t
    · cases q with
      | convert e u =>
        rw [answer_convert]
        refine (Option.isSome_map ..).trans (ih fun inner hchain => ?_)
        exact Nat.le_of_succ_le_succ (hn _ (.cons_cons ⟨p, hp, hask⟩ hchain))
      | _ => exact hq.elim

end Registry

namespace Standard

variable {ctx : Context} {depth depth' : Nat} {v e : Value} {t u : Ty} {tie : TieBreak}

theorem requests_of_procedure? (ho : ctx.AsksNothing) {p : Procedure Value}
    (hp : registry.procedure? tie ctx v t = some p) :
    p.Requests fun q => q.isQuestion ∨ q.Converts fun e _ => v.HasElement e := by
  unfold Registry.procedure? Registry.route at hp
  cases hoverride : ctx.override? v.ty t with
  | some f =>
    simp only [hoverride, Option.some.injEq] at hp
    exact hp ▸ (ho _ (Memo.mem_of_lookup hoverride) v _).mono fun _ => .inl
  | none =>
    by_cases hself : v.isNull = false ∧ registry.hierarchy.isAssignable v.ty t
    · simp [hoverride, hself] at hp
    cases hresolve : registry.resolve tie v.ty t with
    | direct f =>
      simp only [hoverride, if_neg hself, hresolve, Option.some.injEq] at hp
      have hf : (f v (ctx.call t)).Ensures _ _ (v.SoundResult t) := ensures_of_resolve hresolve rfl
      exact hp ▸ (hf.imp fun _ _ => trivial).of_pure
    | reshape plan =>
      simp only [hoverride, if_neg hself, hresolve, Option.some.injEq] at hp
      exact hp ▸ (Reshape.asksFor_procedure ..).mono fun _ => .inr
    | ambiguous | unsupported => simp [hoverride, hself, hresolve] at hp

theorem hasElement_of_dispatches (ho : ctx.AsksNothing)
    (hd : registry.Dispatches tie ctx (v, t) (e, u)) : v.HasElement e := by
  obtain ⟨p, hp, hask⟩ := hd
  exact ((requests_of_procedure? ho hp).of_mayAsk hask).resolve_left nofun

/-- No chain of dispatches inside each other goes deeper than the containers in its value. -/
theorem length_le_nesting (ho : ctx.AsksNothing) {inner : List (Value × Ty)}
    (hchain : ((v, t) :: inner).IsChain (registry.Dispatches tie ctx)) :
    inner.length ≤ v.nesting := by
  induction inner generalizing v t with
  | nil => exact Nat.zero_le _
  | cons d inner ih =>
    obtain ⟨hd, hchain⟩ := List.isChain_cons_cons.1 hchain
    have hlt : d.1.nesting < v.nesting := (hasElement_of_dispatches ho hd).nesting_lt
    exact Nat.lt_of_le_of_lt (ih hchain) hlt

/-- A conversion ends at a depth greater than the levels of containers in its value. -/
theorem isSome_convert (ho : ctx.AsksNothing) (tie : TieBreak) (hdepth : v.nesting < depth)
    (t : Ty) : (registry.convert tie ctx depth v t).isSome := by
  have hasks (v : Value) (t : Ty) (p : Procedure Value)
      (hp : registry.procedure? tie ctx v t = some p) :
      p.Requests fun q => q.isQuestion ∨ q.Converts fun _ _ => True := by
    refine (requests_of_procedure? ho hp).mono fun q => Or.imp_right fun hq => ?_
    cases q with
    | convert => trivial
    | _ => exact hq
  have hends : (registry.convert tie ctx (v.nesting + 1) v t).isSome :=
    Registry.isSome_convert_of_chains hasks fun _ => length_le_nesting ho
  obtain ⟨result, hresult⟩ := Option.isSome_iff_exists.1 hends
  rw [Registry.convert_mono hdepth hresult]
  rfl

/-- At all such depths the same comes of it. -/
theorem convert_eq_of_nesting (ho : ctx.AsksNothing) (tie : TieBreak)
    (hdepth : v.nesting < depth) (hdepth' : v.nesting < depth') (t : Ty) :
    registry.convert tie ctx depth v t = registry.convert tie ctx depth' v t := by
  obtain ⟨r, hr⟩ := Option.isSome_iff_exists.1 (isSome_convert ho tie hdepth t)
  obtain ⟨r', hr'⟩ := Option.isSome_iff_exists.1 (isSome_convert ho tie hdepth' t)
  rcases Nat.le_total depth depth' with hle | hle
  · rw [hr, Registry.convert_mono hle hr]
  · rw [hr', Registry.convert_mono hle hr']

/-- **Dispatching is bounded.** In a context whose overrides ask for no conversion, every conversion
comes to an end, by the standard registry and by any converter of it. Inside its dispatch no others
stand deeper than the containers in the value, whatever the type asked for; so at every greater
depth there is a result, and the same one. -/
theorem convert_within_nesting (ho : ctx.AsksNothing) (tie : TieBreak) (own : Context)
    (steps : List Converter.Step) (v : Value) (t : Ty) :
    (∀ inner, ((v, t) :: inner).IsChain (registry.Dispatches tie ctx) →
      inner.length ≤ v.nesting) ∧
    ∃ result, ∀ depth, v.nesting < depth →
      registry.convert tie ctx depth v t = some result ∧
      (Converter.convertIn (.after ⟨registry, tie, own, .empty⟩ steps) ctx depth v t).1 =
        some result := by
  refine ⟨fun _ => length_le_nesting ho, ?_⟩
  obtain ⟨result, hresult⟩ :=
    Option.isSome_iff_exists.1 (isSome_convert ho tie (Nat.lt_succ_self v.nesting) t)
  refine ⟨result, fun depth hdepth => ?_⟩
  have hdepths : registry.convert tie ctx depth v t = some result :=
    (convert_eq_of_nesting ho tie hdepth (Nat.lt_succ_self v.nesting) t).trans hresult
  exact ⟨hdepths, (Converter.convertIn_after registry tie own steps ctx depth v t).trans hdepths⟩

/-- A list checked for arrays of a type five levels deep holds one with a single, empty array in it.
The check carries over to the set it is asked for, and yet no dispatch stands deeper than three. -/
theorem convert_within_nesting_checked :
    let ctx : Context := Context.default.withOverride .boolean .string
      (.ofPure fun _ _ => .ok (.string "yes"))
    let element : Value := .array (.arrayOf .string 4) [.array (.arrayOf .string 3) []]
    let v : Value := .collection (.wrapped (.checked (.arrayOf .string 5)) .list) [element]
    let set : Ty := .collection (.interface .set)
    ctx.AsksNothing ∧ v.nesting = 3 ∧
      ∃ result, ∀ depth, 3 < depth →
        registry.convert .registryOrder ctx depth v set = some result ∧
        (Converter.standard.convertIn ctx depth v set).1 = some result := by
  intro ctx element v set
  have ho : ctx.AsksNothing := by
    intro o hmem w call
    obtain rfl := List.mem_singleton.1 hmem
    exact trivial
  obtain ⟨-, hends⟩ := convert_within_nesting ho .registryOrder .default [] v set
  exact ⟨ho, rfl, hends⟩

end Standard

end Recast
