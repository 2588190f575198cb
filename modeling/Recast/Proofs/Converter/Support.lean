/-
The question of support, and the conversions it speaks of.

A dispatch goes one of three ways: the override of the pair runs, the value is
returned as it is, or what the pair resolves to is carried out. It rejects a
value when the pair resolves to nothing that converts. Without an override a
value is rejected exactly when its type is said not to be supported, whatever
has been remembered (`isRejected_iff_not_supported`).

Null asked for its own type is the exception. The question of support goes by
the two types, of which the one is assignable to the other; a dispatch returns
no null as it is, and rejects this one unless an entry of the pair is
registered (`null_supported_and_rejected`).
-/
import Recast.Proofs.Converter.Dispatch
import Recast.Proofs.Converter.Memory
import Recast.Proofs.Hierarchy.Levels

namespace Recast

/-- What a dispatch does with a value. -/
inductive Route
  /-- The override of the pair runs. -/
  | replaced (conversion : Conversion)
  /-- The value is returned as it is. -/
  | unchanged
  /-- What the pair resolves to is carried out. -/
  | resolved (resolution : Resolution)

/-- The pair resolves to nothing that converts. -/
def Route.isRejected : Route → Bool
  | .resolved resolution => !resolution.isSupported
  | _ => false

namespace Registry

variable {r : Registry} {tie : TieBreak} {ctx : Context} {depth : Nat} {v : Value}
variable {source target : Ty}

/-- The way that a value goes. -/
def route (r : Registry) (tie : TieBreak) (ctx : Context) (v : Value) (target : Ty) : Route :=
  match ctx.override? v.ty target with
  | some f => .replaced f
  | none =>
    if v.isNull = false ∧ r.hierarchy.isAssignable v.ty target then .unchanged
    else .resolved (r.resolve tie v.ty target)

/-- Goes that way. -/
def follow (r : Registry) (tie : TieBreak) (ctx : Context) (depth : Nat) (v : Value)
    (target : Ty) : Route → Outcome Converted
  | .replaced f | .resolved (.direct f) =>
    (r.execute tie ctx depth target (f v (ctx.call target))).made
  | .unchanged => some (.ok ⟨v, !v.isMutable⟩)
  | .resolved (.reshape plan) =>
    (r.execute tie ctx depth target (plan.procedure r.factory? v (ctx.call target))).made
  | .resolved .ambiguous => some (.error (.ambiguous v.ty target))
  | .resolved .unsupported => some (.error (.unsupported v.ty target))

/-- A conversion follows its route. -/
theorem convert_eq_follow (r : Registry) (tie : TieBreak) (ctx : Context) (depth : Nat) (v : Value)
    (target : Ty) :
    r.convert tie ctx (depth + 1) v target =
      r.follow tie ctx depth v target (r.route tie ctx v target) := by
  rw [convert_succ, route]
  cases ctx.override? v.ty target with
  | some f => rfl
  | none =>
    by_cases hself : v.isNull = false ∧ r.hierarchy.isAssignable v.ty target
    · simp only [if_pos hself, follow]
    · simp only [if_neg hself]
      cases r.resolve tie v.ty target <;> rfl

/-- A type is supported when it is assignable to the target, or the pair resolves to something that
converts. -/
theorem isSupported_eq (r : Registry) (tie : TieBreak) (source target : Ty) :
    r.isSupported tie source target =
      (r.hierarchy.isAssignable source target || (r.resolve tie source target).isSupported) := by
  show (if r.hierarchy.isAssignable source target = true then true
    else (r.resolve tie source target).isSupported) = _
  cases r.hierarchy.isAssignable source target <;> rfl

theorem isSupported_resolve_null (r : Registry) (tie : TieBreak) :
    (r.resolve tie .null .null).isSupported = (r.lookup? .null .null).isSome := by
  unfold resolve
  cases hl : r.lookup? .null .null with
  | some found => rfl
  | none =>
    have hwalk : r.walk tie .null .null = none := by
      rw [walk, Hierarchy.levels_of_bottom_or_top (.inl rfl)]
      cases tie <;> simp [Ty.family?, candidates, hl, choose, leastIndex]
    simp [hwalk, Reshape.between?, Ty.isContainer, Resolution.isSupported]

/-- Without an override a value is rejected exactly when its type is not supported, but for null
asked for its own type. -/
theorem isRejected_route_iff (ho : ctx.override? v.ty target = none) :
    (r.route tie ctx v target).isRejected ↔
      r.isSupported tie v.ty target = false ∨
        v = .null ∧ target = .null ∧ r.lookup? .null .null = none := by
  simp only [route, ho, isSupported_eq]
  cases hnull : v.isNull with
  | false =>
    have hne : v ≠ .null := by
      rintro rfl
      cases hnull
    cases r.hierarchy.isAssignable v.ty target <;> simp [Route.isRejected, hne]
  | true =>
    obtain rfl := Value.isNull_iff.1 hnull
    by_cases ht : target = .null
    · subst ht
      simp [Route.isRejected, Value.ty, isSupported_resolve_null]
    · simp [Route.isRejected, Value.ty, Hierarchy.isAssignable_null ht, ht]

end Registry

namespace Converter

variable {c : Converter} {before : List (Ty × Ty)}

/-- With right answers remembered, the question of support is answered as the registry answers
it. -/
theorem isSupported_eq (h : c.memo.Remembers c.registry c.tie before) (source target : Ty) :
    (c.isSupported source target).1 = c.registry.isSupported c.tie source target := by
  have hrecorded := ((Memo.remembering c.registry c.tie).supports_related
    (Memo.remembering_oracle c.registry c.tie) source target c.memo before h).1
  have hplain := Recorded.forget.supports_related (Recorded.forget_oracle c.registry c.tie)
    source target
  exact hrecorded.trans hplain

/-- **Support and rejection.** After any steps of a converter, a conversion follows its route. A
route without an override ends in a rejection exactly when the converter says that the type of the
value is not supported; or when null is asked for its own type, which is always said to be
supported, and no entry of that pair is registered. -/
theorem isRejected_iff_not_supported (r : Registry) (tie : TieBreak) (own : Context)
    (steps : List Step) {ctx : Context} {v : Value} {target : Ty}
    (ho : ctx.override? v.ty target = none) :
    let c : Converter := after ⟨r, tie, own, .empty⟩ steps
    (∀ depth, (c.convertIn ctx (depth + 1) v target).1 =
      r.follow tie ctx depth v target (r.route tie ctx v target)) ∧
    ((r.route tie ctx v target).isRejected ↔
      (c.isSupported v.ty target).1 = false ∨
        v = .null ∧ target = .null ∧ r.lookup? .null .null = none) := by
  intro c
  obtain ⟨hmemo, hregistry, htie, -⟩ :=
    remembers_after (c := ⟨r, tie, own, .empty⟩) (Memo.remembers_empty r tie) steps
  obtain ⟨asked, hc⟩ : ∃ asked, c.memo.Remembers c.registry c.tie asked := by
    rw [hregistry, htie]
    exact ⟨_, hmemo⟩
  constructor
  · intro depth
    rw [convertIn_eq hc, hregistry, htie, Registry.convert_eq_follow]
  · rw [isSupported_eq hc, hregistry, htie]
    exact Registry.isRejected_route_iff ho

/-- A truth value asked for a list, where truth values have a conversion of their own into text:
there is no conversion into a list, before and after one into text. -/
theorem isRejected_iff_not_supported_list :
    let ctx : Context := Context.default.withOverride .boolean .string
      (.ofPure fun _ _ => .ok (.string "yes"))
    let list : Ty := .collection (.interface .list)
    let c : Converter := after .standard [.convertIn ctx 1 (.boolean true) .string]
    ctx.override? (Value.boolean true).ty list = none ∧
      (c.isSupported .boolean list).1 = false ∧
      (Standard.registry.route .registryOrder ctx (.boolean true) list).isRejected ∧
      (c.convertIn ctx 1 (.boolean true) list).1 =
        Standard.registry.follow .registryOrder ctx 0 (.boolean true) list
          (Standard.registry.route .registryOrder ctx (.boolean true) list) := by
  intro ctx list c
  have ho : ctx.override? (Value.boolean true).ty list = none := rfl
  obtain ⟨hfollow, hiff⟩ := isRejected_iff_not_supported Standard.registry .registryOrder .default
    [.convertIn ctx 1 (.boolean true) .string] ho
  have hrejected :
      (Standard.registry.route .registryOrder ctx (.boolean true) list).isRejected := by
    decide +kernel
  exact ⟨ho, (hiff.1 hrejected).resolve_right nofun, hrejected, hfollow 0⟩

/-- Null asked for its own type is said to be supported, and rejected. -/
theorem null_supported_and_rejected :
    Context.default.override? Value.null.ty .null = none ∧
      (Converter.standard.isSupported Value.null.ty .null).1 = true ∧
      (Standard.registry.route .registryOrder .default .null .null).isRejected ∧
      (Converter.standard.convert 1 .null .null).1 = some (.error (.unsupported .null .null)) := by
  refine ⟨rfl, rfl, by decide +kernel, ?_⟩
  rfl

end Converter

end Recast
