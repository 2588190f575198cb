/-
Sets of constants, made of elements that each have a conversion of their own
into the enum type.

Two paths lead from a text, a number or a constant to a constant of an enum
type. Asked for the type itself, a value is dispatched: a constant of the type
is itself, and text and numbers are served as the family of all enum types
says. A container asked for a set looks its elements up without dispatching.
Both come to the same constant, or the same error (`convert_enum`), so a set
is made of what its elements become one by one (`convert_enumSet`).
-/
import Recast.Proofs.Container.Reshape
import Recast.Proofs.Standard.Resolution

namespace Recast

/-- A text, a number, or a constant of the enum type. -/
def Value.MayName (E : EnumType) : Value → Prop
  | .string _ | .stringBuilder _ | .integral _ | .float _ | .double _ | .decimal _ => True
  | .enum c => c.type = E
  | _ => False

namespace Standard

open Reshape

variable {E : EnumType} {e v : Value} {es : List Value} {general : Ty}
variable {tie : TieBreak} {ctx : Context}

/-! ## One constant -/

theorem family?_target : ∀ i ∈ items, i.target.family? = none := by decide +kernel

theorem source_of_anyEnum : ∀ i ∈ items, i.target = .anyEnum →
    i.source ∈ [Ty.anyEnum, .charSequence, .number, .null] := by decide +kernel

/-- Where one source alone of those with a conversion into enum types stands above a value, the item
of that source converts the value. -/
theorem convert_enum_of_serves (ho : ctx.overrides = []) (tie : TieBreak) (depth : Nat)
    {f : Value → Call → Except ConversionError Value}
    (hi : ⟨general, .anyEnum, .ofPure f⟩ ∈ items) (hnull : e ≠ .null) (hne : e.ty ≠ .enum E)
    (habove : ∀ t ∈ [Ty.anyEnum, .charSequence, .number, .null],
      t ∈ Hierarchy.empty.ancestors e.ty ↔ t = general) :
    registry.convert tie ctx (depth + 1) e (.enum E) =
      some ((f e (ctx.call (.enum E))).map (⟨·, false⟩)) := by
  have hself : Hierarchy.empty.isAssignable e.ty (.enum E) = false :=
    Hierarchy.isAssignable_eq_false (by simpa using hnull) hne rfl
      (by simp [Supertypes.builtinTypes])
  have hgeneral : general ∈ Hierarchy.empty.ancestors e.ty :=
    (habove general (source_of_anyEnum _ hi rfl)).2 rfl
  refine convert_of_serves tie depth ho hself hi ⟨hgeneral, .inr rfl⟩ ?_ rfl
  rintro i hi ⟨hsource, htarget⟩
  have htarget : i.target = .anyEnum := by
    rcases htarget with htarget | hfamily
    · have hnone := family?_target i hi
      rw [htarget] at hnone
      cases hnone
    · exact (Option.some_inj.1 hfamily).symm
  exact ⟨(habove _ (source_of_anyEnum i hi htarget)).1 hsource, htarget⟩

theorem convert_enum_of_text (ho : ctx.overrides = []) (tie : TieBreak) (depth : Nat)
    {name : String} (h : e.text? = some name) :
    registry.convert tie ctx (depth + 1) e (.enum E) =
      some ((Constant.find E ctx.env.maxNameLength name).map fun c => ⟨.enum c, false⟩) := by
  have hi : ⟨.charSequence, .anyEnum, Scalar.nameToEnum⟩ ∈ items := by simp [items, enumItems]
  cases e with
  | string | stringBuilder =>
    cases h
    refine (convert_enum_of_serves ho tie depth hi (by simp) (by simp [Value.ty]) ?_).trans ?_
    · rw [Hierarchy.ancestors_builtin fun _ _ => rfl]
      simp [Value.ty, Hierarchy.builtinUpper]
    · show some (Except.map _ (Constant.find E ctx.env.maxNameLength name >>= _)) = _
      cases Constant.find E ctx.env.maxNameLength name <;> rfl
  | _ => cases h

theorem convert_enum_of_number (ho : ctx.overrides = []) (tie : TieBreak) (depth : Nat)
    {n : Numeric} (h : Numeric.of? e = some n) :
    registry.convert tie ctx (depth + 1) e (.enum E) =
      some ((constantOf E ctx.env.maxNameLength e).map fun c => ⟨.enum c, false⟩) := by
  have hi : ⟨.number, .anyEnum, Scalar.ordinalToEnum⟩ ∈ items := by simp [items, enumItems]
  cases e with
  | integral | float | double | decimal =>
    refine (convert_enum_of_serves ho tie depth hi (by simp) (by simp [Value.ty]) ?_).trans ?_
    · rw [Hierarchy.ancestors_builtin fun _ _ => rfl]
      simp [Value.ty, Hierarchy.builtinUpper]
    · -- Only the integers are looked up.
      first
      | rfl
      | show some (Except.map _ (Constant.findOrdinal E _ >>= _)) = _
        rw [constantOf]
        cases Constant.findOrdinal E _ <;> rfl
  | _ => cases h

theorem convert_enum_of_constant (ho : ctx.overrides = []) {c : Constant} (hc : c.type = E)
    (tie : TieBreak) (depth : Nat) :
    registry.convert tie ctx (depth + 1) (.enum c) (.enum E) = some (.ok ⟨.enum c, true⟩) := by
  refine convert_self ho (by simp) ?_
  rw [← hc]
  exact Hierarchy.isAssignable_refl _ _

/-- By itself an element is converted to the constant that it stands for in a set, or has the same
error. -/
theorem convert_enum (ho : ctx.overrides = []) (tie : TieBreak) (depth : Nat) (he : e.MayName E) :
    (registry.convert tie ctx (depth + 1) e (.enum E)).value =
      some ((constantOf E ctx.env.maxNameLength e).map .enum) := by
  cases e with
  | string s | stringBuilder s =>
    rw [convert_enum_of_text ho tie depth rfl, constantOf]
    cases Constant.find E ctx.env.maxNameLength s <;> rfl
  | integral n | float n | double n | decimal n =>
    rw [convert_enum_of_number ho tie depth rfl]
    cases constantOf E ctx.env.maxNameLength _ <;> rfl
  | enum c =>
    have hc : c.type = E := he
    rw [convert_enum_of_constant ho hc, constantOf, if_pos hc]
    rfl
  | _ => cases he

/-! ## Sets of constants -/

/-- A container becomes the set of the constants that its elements stand for. -/
theorem convert_enumSet_eq (ho : ctx.overrides = []) (tie : TieBreak) (depth : Nat)
    (hv : (∃ component, v = .array component es) ∨ ∃ type, v = .collection type es) :
    registry.convert tie ctx (depth + 1) v (.enumSet E) =
      some ((enumSetOf E ctx.env.maxNameLength es).map fun s => ⟨.enumSet s, false⟩) := by
  have helements : v.elements? = some es := by
    rcases hv with ⟨_, rfl⟩ | ⟨_, rfl⟩ <;> rfl
  have hcontainer : v.ty.isContainer := by
    rcases hv with ⟨_, rfl⟩ | ⟨_, rfl⟩ <;> rfl
  have hself : Hierarchy.empty.isAssignable v.ty (.enumSet E) = false := by
    refine Hierarchy.isAssignable_eq_false ?_ ?_ rfl (by simp [Supertypes.builtinTypes]) <;>
      rcases hv with ⟨_, rfl⟩ | ⟨_, rfl⟩ <;> simp [Value.ty]
  have hplan : Reshape.between? v.ty (.enumSet E) = some (.toEnumSet E) := by
    simp [Reshape.between?, hcontainer]
  rw [convert_of_isContainer tie depth ho hself hcontainer rfl hplan, Registry.execute,
    Reshape.procedure, run_intoEnumSet helements]
  show Outcome.made (some ((enumSetOf E ctx.env.maxNameLength es).map _)) = _
  cases enumSetOf E ctx.env.maxNameLength es <;> rfl

theorem constantOf_type {limit : Nat} {c : Constant} (h : constantOf E limit e = .ok c) :
    c.type = E := by
  cases e with
  | string | stringBuilder => exact Scalar.find_type h
  | integral => exact Scalar.findOrdinal_type h
  | enum d =>
    rw [constantOf] at h
    split at h
    next hd =>
      cases h
      exact hd
    next => cases h
  | _ => cases h

theorem convert_enumSet_of_ok (ho : ctx.overrides = []) (tie : TieBreak) (depth depth' : Nat)
    (hv : (∃ component, v = .array component es) ∨ ∃ type, v = .collection type es)
    (hes : ∀ e ∈ es, e.MayName E)
    (h : ∀ e ∈ es, ∃ c, constantOf E ctx.env.maxNameLength e = .ok c) :
    ∃ s : EnumSet, registry.convert tie ctx (depth + 1) v (.enumSet E) =
        some (.ok ⟨.enumSet s, false⟩) ∧ s.type = E ∧
      (∀ e ∈ es, ∃ k ∈ s.members, (registry.convert tie ctx (depth' + 1) e (.enum E)).value =
        some (.ok (.enum ⟨E, k⟩))) ∧
      ∀ k ∈ s.members, ∃ e ∈ es, (registry.convert tie ctx (depth' + 1) e (.enum E)).value =
        some (.ok (.enum ⟨E, k⟩)) := by
  obtain ⟨s, hs, htype, hmembers⟩ := enumSetOf_eq_ok h
  have halone : ∀ e ∈ es, ∀ c, constantOf E ctx.env.maxNameLength e = .ok c →
      (registry.convert tie ctx (depth' + 1) e (.enum E)).value =
        some (.ok (.enum ⟨E, c.ordinal⟩)) := by
    intro e he c hc
    rw [convert_enum ho tie depth' (hes e he), hc, ← constantOf_type hc]
    rfl
  refine ⟨s, ?_, htype, fun e he => ?_, fun k hk => ?_⟩
  · rw [convert_enumSet_eq ho tie depth hv, hs]
    rfl
  · obtain ⟨c, hc⟩ := h e he
    exact ⟨c.ordinal, (hmembers _).2 ⟨e, he, c, hc, rfl⟩, halone e he c hc⟩
  · obtain ⟨e, he, c, hc, rfl⟩ := (hmembers k).1 hk
    exact ⟨e, he, halone e he c hc⟩

theorem convert_enumSet_of_error (ho : ctx.overrides = []) (tie : TieBreak) (depth depth' : Nat)
    {before after : List Value} {err : ConversionError}
    (hv : (∃ component, v = .array component (before ++ e :: after)) ∨
      ∃ type, v = .collection type (before ++ e :: after))
    (hes : ∀ x ∈ before ++ e :: after, x.MayName E)
    (h : ∀ b ∈ before, ∃ c, constantOf E ctx.env.maxNameLength b = .ok c)
    (he : constantOf E ctx.env.maxNameLength e = .error err) :
    (∀ b ∈ before, ∃ w, (registry.convert tie ctx (depth' + 1) b (.enum E)).value =
        some (.ok w)) ∧
      (registry.convert tie ctx (depth' + 1) e (.enum E)).value = some (.error err) ∧
      registry.convert tie ctx (depth + 1) v (.enumSet E) = some (.error err) := by
  refine ⟨fun b hb => ?_, ?_, ?_⟩
  · obtain ⟨c, hc⟩ := h b hb
    rw [convert_enum ho tie depth' (hes b (by simp [hb])), hc]
    exact ⟨_, rfl⟩
  · rw [convert_enum ho tie depth' (hes e (by simp)), he]
    rfl
  · rw [convert_enumSet_eq ho tie depth hv, enumSetOf_eq_error h he]
    rfl

/-- **Sets of constants.** A container whose elements are texts, numbers and constants of an enum
type is converted to a set of the type exactly when each element is converted to the type by itself.
The set consists of the ordinals of what the elements become, and else its error is that of the
first element that has one. -/
theorem convert_enumSet (ho : ctx.overrides = []) (tie : TieBreak) (depth depth' : Nat)
    (hv : (∃ component, v = .array component es) ∨ ∃ type, v = .collection type es)
    (hes : ∀ e ∈ es, e.MayName E) :
    let whole := registry.convert tie ctx (depth + 1) v (.enumSet E)
    let alone (e : Value) := (registry.convert tie ctx (depth' + 1) e (.enum E)).value
    ((∃ c, whole = some (.ok c)) ↔ ∀ e ∈ es, ∃ w, alone e = some (.ok w)) ∧
      (∀ c, whole = some (.ok c) → ∃ s, c = ⟨.enumSet s, false⟩ ∧ s.type = E ∧
        (∀ e ∈ es, ∃ k ∈ s.members, alone e = some (.ok (.enum ⟨E, k⟩))) ∧
        ∀ k ∈ s.members, ∃ e ∈ es, alone e = some (.ok (.enum ⟨E, k⟩))) ∧
      ((¬ ∃ c, whole = some (.ok c)) → ∃ before e after err, es = before ++ e :: after ∧
        (∀ b ∈ before, ∃ w, alone b = some (.ok w)) ∧ alone e = some (.error err) ∧
          whole = some (.error err)) := by
  intro whole alone
  rcases forall_ok_or_first_error (constantOf E ctx.env.maxNameLength) es with
    hall | ⟨before, e, after, err, rfl, hbefore, he⟩
  · obtain ⟨s, hwhole, htype, hbecome, hfrom⟩ :=
      convert_enumSet_of_ok ho tie depth depth' hv hes hall
    have hok : ∃ c, whole = some (.ok c) := ⟨_, hwhole⟩
    refine ⟨iff_of_true hok fun e he => ?_, fun c hc => ⟨s, ?_, htype, hbecome, hfrom⟩,
      fun hnot => absurd hok hnot⟩
    · obtain ⟨k, -, hk⟩ := hbecome e he
      exact ⟨_, hk⟩
    · exact (Except.ok.inj (Option.some_inj.1 (hwhole.symm.trans hc))).symm
  · obtain ⟨hbefore, herror, hwhole⟩ :=
      convert_enumSet_of_error ho tie depth depth' hv hes hbefore he
    have hnot : ¬ ∃ c, whole = some (.ok c) := by
      show ¬ ∃ c, registry.convert tie ctx (depth + 1) v (.enumSet E) = some (.ok c)
      simp [hwhole]
    refine ⟨iff_of_false hnot fun h => ?_, fun c hc => absurd ⟨c, hc⟩ hnot,
      fun _ => ⟨before, e, after, err, rfl, hbefore, herror, hwhole⟩⟩
    obtain ⟨w, hw⟩ := h e (by simp)
    cases herror.symm.trans hw

/-- A name, an ordinal and a constant make a set of two. In a list the ordinal -1 is the first that
no constant has, before a name that none has. -/
theorem convert_enumSet_colors :
    let colors : EnumType := ⟨"Color", ["RED", "GREEN", "BLUE"]⟩
    let named : List Value :=
      [.stringBuilder "BLUE", .integral ⟨.byte, 0, by decide⟩, .enum ⟨colors, 2⟩]
    let pair : EnumSet := ⟨colors, [0, 2], by decide⟩
    let unnamed : List Value :=
      [.integral ⟨.long, 1, by decide⟩, .integral ⟨.long, -1, by decide⟩, .string "PINK"]
    let excess : ConversionError := .outOfRange (.integer (-1)) (.enum colors)
    (∀ e ∈ named, e.MayName colors) ∧ (∀ e ∈ unnamed, e.MayName colors) ∧
      registry.convert .registryOrder .default 1 (.array .any named) (.enumSet colors) =
        some (.ok ⟨.enumSet pair, false⟩) ∧
      (∀ k ∈ pair.members, ∃ e ∈ named,
        (registry.convert .registryOrder .default 1 e (.enum colors)).value =
          some (.ok (.enum ⟨colors, k⟩))) ∧
      registry.convert .registryOrder .default 1 (.list unnamed) (.enumSet colors) =
        some (.error excess) ∧
      ∃ e ∈ unnamed, (registry.convert .registryOrder .default 1 e (.enum colors)).value =
        some (.error excess) := by
  intro colors named pair unnamed excess
  have ho : Context.default.overrides = [] := rfl
  have hnamed : ∀ e ∈ named, e.MayName colors := by simp [named, Value.MayName]
  have hunnamed : ∀ e ∈ unnamed, e.MayName colors := by simp [unnamed, Value.MayName]
  have hset : registry.convert .registryOrder .default 1 (.array .any named) (.enumSet colors) =
      some (.ok ⟨.enumSet pair, false⟩) :=
    convert_enumSet_eq ho .registryOrder 0 (.inl ⟨.any, rfl⟩)
  have herror : registry.convert .registryOrder .default 1 (.list unnamed) (.enumSet colors) =
      some (.error excess) :=
    convert_enumSet_eq ho .registryOrder 0 (.inr ⟨.concrete .arrayList, rfl⟩)
  have hnot : ¬ ∃ c, registry.convert .registryOrder .default 1 (.list unnamed)
      (.enumSet colors) = some (.ok c) := by simp [herror]
  obtain ⟨-, hmembers, -⟩ := convert_enumSet ho .registryOrder 0 0 (.inl ⟨.any, rfl⟩) hnamed
  obtain ⟨-, -, hfirst⟩ :=
    convert_enumSet ho .registryOrder 0 0 (.inr ⟨.concrete .arrayList, rfl⟩) hunnamed
  obtain ⟨s, hs, -, -, hfrom⟩ := hmembers _ hset
  obtain rfl : pair = s := Value.enumSet.inj (congrArg Converted.value hs)
  obtain ⟨before, e, after, err, hsplit, -, halone, hwhole⟩ := hfirst hnot
  obtain rfl : excess = err := Except.error.inj (Option.some_inj.1 (herror.symm.trans hwhole))
  exact ⟨hnamed, hunnamed, hset, hfrom, herror, e, by simp [hsplit], halone⟩

end Standard

end Recast
