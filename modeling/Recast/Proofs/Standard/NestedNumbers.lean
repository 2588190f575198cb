/-
Integers of one width in arrays of arrays, converted to another width.

An array type of one width is not assignable to that of another, and has no
conversion of its own, so at each level the array is reshaped: null stays, and
the other elements are dispatched one level deeper, down to the numbers. Values
of the two widths that are the same but for the width (`SameNumbers`) are
converted into each other, and the first number that does not fit is the error
of the whole. The induction is on the levels of arrays throughout.
-/
import Recast.Proofs.Container.Reshape
import Recast.Proofs.Standard.Resolution
import Recast.Proofs.Value.Parts

namespace Recast

/-- The type of numbers of a width under some levels of arrays. -/
abbrev Width.arrays (width : Width) (levels : Nat) : Ty := .arrayOf (.integral width) levels

namespace Value

/-- A number of the width under so many levels of arrays, each of its declared component type, with
null for any element. -/
def IsNested (width : Width) : Nat → Value → Prop
  | 0, v => ∃ n : Integral, v = .integral n ∧ n.width = width
  | levels + 1, v => ∃ es, v = .array (width.arrays levels) es ∧
      ∀ e ∈ es, e = .null ∨ IsNested width levels e

/-- The same numbers at two widths, at the same places under so many levels of arrays, with null for
the same elements. -/
def SameNumbers (width other : Width) : Nat → Value → Value → Prop
  | 0, v, w => ∃ n m : Integral, v = .integral n ∧ w = .integral m ∧
      n.width = width ∧ m.width = other ∧ n.val = m.val
  | levels + 1, v, w => ∃ es fs, v = .array (width.arrays levels) es ∧
      w = .array (other.arrays levels) fs ∧
      List.Forall₂ (fun e f => e = .null ∧ f = .null ∨ SameNumbers width other levels e f) es fs

/-- The integers among the parts of a value, depth first and from left to right. -/
def integers (v : Value) : List Integral :=
  v.parts.filterMap fun
    | .integral n => some n
    | _ => none

variable {width other : Width} {levels : Nat} {v w : Value}

@[simp] theorem integers_null : Value.null.integers = [] := rfl

@[simp] theorem integers_integral (n : Integral) : (Value.integral n).integers = [n] := rfl

@[simp] theorem integers_array (component : Ty) (es : List Value) :
    (Value.array component es).integers = es.flatMap integers := by
  simp only [integers, parts_eq (.array component es), List.filterMap_cons, inner_array,
    List.filterMap_flatMap]
  rfl

theorem IsNested.ne_null (h : v.IsNested width levels) : v ≠ .null := by
  rintro rfl
  cases levels with
  | zero => obtain ⟨n, hn, -⟩ := h; cases hn
  | succ levels => obtain ⟨es, hes, -⟩ := h; cases hes

theorem SameNumbers.symm (h : SameNumbers width other levels v w) :
    SameNumbers other width levels w v := by
  induction levels generalizing v w with
  | zero =>
    obtain ⟨n, m, rfl, rfl, hn, hm, hval⟩ := h
    exact ⟨m, n, rfl, rfl, hm, hn, hval.symm⟩
  | succ levels ih =>
    obtain ⟨es, fs, rfl, rfl, h⟩ := h
    exact ⟨fs, es, rfl, rfl, h.flip.imp fun f e hsame => hsame.imp And.symm ih⟩

theorem SameNumbers.isNested (h : SameNumbers width other levels v w) :
    v.IsNested width levels := by
  induction levels generalizing v w with
  | zero =>
    obtain ⟨n, m, rfl, rfl, hn, -, -⟩ := h
    exact ⟨n, rfl, hn⟩
  | succ levels ih =>
    obtain ⟨es, fs, rfl, rfl, h⟩ := h
    refine ⟨es, rfl, ?_⟩
    induction h with
    | nil => simp
    | cons he _ ihes => exact List.forall_mem_cons.2 ⟨he.imp And.left ih, ihes⟩

theorem IsNested.exists_sameNumbers (h : v.IsNested width levels)
    (hfit : ∀ n ∈ v.integers, other.Holds n.val) : ∃ w, SameNumbers width other levels v w := by
  induction levels generalizing v with
  | zero =>
    obtain ⟨n, rfl, hn⟩ := h
    exact ⟨.integral ⟨other, n.val, hfit n (by simp)⟩, n, _, rfl, rfl, hn, rfl, rfl⟩
  | succ levels ih =>
    obtain ⟨es, rfl, h⟩ := h
    rw [integers_array] at hfit
    have hes : ∃ fs, List.Forall₂
        (fun e f => e = .null ∧ f = .null ∨ SameNumbers width other levels e f) es fs := by
      refine exists_forall₂ fun e he => ?_
      rcases h e he with rfl | hnested
      · exact ⟨.null, .inl ⟨rfl, rfl⟩⟩
      · obtain ⟨f, hf⟩ := ih hnested fun n hn => hfit n (List.mem_flatMap.2 ⟨e, he, hn⟩)
        exact ⟨f, .inr hf⟩
    obtain ⟨fs, hfs⟩ := hes
    exact ⟨_, es, fs, rfl, rfl, hfs⟩

end Value

namespace Standard

open Value

variable {width other : Width} {levels depth : Nat} {v w : Value} {tie : TieBreak} {ctx : Context}

theorem isAssignable_arrays (hne : width ≠ other) (levels : Nat) :
    Hierarchy.empty.isAssignable (width.arrays levels) (other.arrays levels) = false := by
  induction levels with
  | zero =>
    show Hierarchy.empty.isAssignable (.integral width) (.integral other) = false
    have htypes : Ty.integral width ≠ .integral other := by simpa using hne
    exact Hierarchy.isAssignable_eq_false (by simp) htypes rfl (by simp [Supertypes.builtinTypes])
  | succ levels ih =>
    show Hierarchy.empty.isAssignable (.array (width.arrays levels))
      (.array (other.arrays levels)) = false
    rw [Hierarchy.isAssignable_array, ih]

theorem serves_integral : ∀ width ∈ Width.all, ∀ other ∈ Width.all, ∀ i ∈ items,
    i.Serves (.integral width) (.integral other) →
      i.source = .number ∧ i.target = .integral other := by decide +kernel

theorem numberToNumber_mem_items (width : Width) :
    ⟨.number, .integral width, Scalar.numberToNumber⟩ ∈ items := by
  have htype : .integral width ∈ numericTypes := by cases width <;> simp [numericTypes]
  have hitem : ⟨.number, .integral width, Scalar.numberToNumber⟩ ∈ numberItems :=
    List.mem_flatMap.2 ⟨_, htype, by simp⟩
  simp [items, hitem]

theorem convert_integral (ho : ctx.overrides = []) (hne : width ≠ other) (tie : TieBreak)
    (depth : Nat) {n : Integral} (hn : n.width = width) :
    registry.convert tie ctx (depth + 1) (.integral n) (.integral other) =
      some ((Numeric.integralValue other n.val).map (⟨·, false⟩)) := by
  subst hn
  have hself : Hierarchy.empty.isAssignable (Value.integral n).ty (.integral other) = false :=
    isAssignable_arrays hne 0
  have hnumber : Ty.number ∈ Hierarchy.empty.ancestors (.integral n.width) := by
    rw [Hierarchy.ancestors_builtin fun _ _ => rfl]
    simp [Hierarchy.builtinUpper]
  exact convert_of_serves tie depth ho hself (numberToNumber_mem_items other) ⟨hnumber, .inl rfl⟩
    (serves_integral n.width (Width.mem_all _) other (Width.mem_all _)) rfl

theorem convert_array (ho : ctx.overrides = []) (hne : width ≠ other) (tie : TieBreak)
    (depth levels : Nat) (es : List Value) :
    registry.convert tie ctx (depth + 1) (.array (width.arrays levels) es)
        (other.arrays (levels + 1)) =
      Outcome.made (Option.map (Except.map (.array (other.arrays levels)))
        ((convertEach (other.arrays levels) es).run (m := Id)
          (registry.answer tie depth ctx (other.arrays (levels + 1))))) := by
  have hself : Hierarchy.empty.isAssignable (Value.array (width.arrays levels) es).ty
      (other.arrays (levels + 1)) = false := isAssignable_arrays hne (levels + 1)
  rw [convert_of_isContainer tie depth ho hself rfl rfl rfl]
  exact congrArg Outcome.made (run_intoArray rfl _)

theorem forall₂_becomes {es fs : List Value}
    (hconvert : ∀ v w, SameNumbers width other levels v w →
      registry.convert tie ctx depth v (other.arrays levels) = some (.ok ⟨w, false⟩))
    (h : List.Forall₂ (fun e f => e = .null ∧ f = .null ∨ SameNumbers width other levels e f)
      es fs) :
    List.Forall₂ (Becomes (answerAt tie ctx depth) (other.arrays levels)) es fs := by
  refine h.imp fun e f he => ?_
  rcases he with ⟨rfl, rfl⟩ | he
  · exact .null
  · refine .converted he.isNested.ne_null ?_
    rw [answerAt, hconvert e f he]
    rfl

theorem convert_of_sameNumbers (ho : ctx.overrides = []) (hne : width ≠ other)
    (hdepth : levels < depth) (h : SameNumbers width other levels v w) :
    registry.convert tie ctx depth v (other.arrays levels) = some (.ok ⟨w, false⟩) := by
  induction levels generalizing v w depth with
  | zero =>
    obtain ⟨depth, rfl⟩ := Nat.exists_eq_succ_of_ne_zero (by omega : depth ≠ 0)
    obtain ⟨n, m, rfl, rfl, hn, hm, hval⟩ := h
    have hm : Integral.ofInt? other n.val = some m := Integral.ofInt?_eq_some.2 ⟨hm, hval.symm⟩
    have hconvert := convert_integral ho hne tie depth hn
    rw [Numeric.integralValue, hm] at hconvert
    exact hconvert
  | succ levels ih =>
    obtain ⟨depth, rfl⟩ := Nat.exists_eq_succ_of_ne_zero (by omega : depth ≠ 0)
    obtain ⟨es, fs, rfl, rfl, h⟩ := h
    have hbecome := forall₂_becomes (fun v w => ih (by omega : levels < depth)) h
    rw [convert_array ho hne, run_convertEach_ok answer_convert hbecome]
    rfl

theorem convert_of_unfit (ho : ctx.overrides = []) (hne : width ≠ other)
    (hdepth : levels < depth) (h : v.IsNested width levels) {n : Integral}
    (hfirst : v.integers.find? (fun n => ¬ other.Holds n.val) = some n) :
    registry.convert tie ctx depth v (other.arrays levels) =
      some (.error (.outOfRange (.integer n.val) (.integral other))) := by
  induction levels generalizing v depth with
  | zero =>
    obtain ⟨depth, rfl⟩ := Nat.exists_eq_succ_of_ne_zero (by omega : depth ≠ 0)
    obtain ⟨m, rfl, hm⟩ := h
    obtain ⟨hunfit, rfl⟩ : ¬ other.Holds m.val ∧ m = n := by simpa using hfirst
    have hconvert := convert_integral ho hne tie depth hm
    rw [Numeric.integralValue, Integral.ofInt?_eq_none.2 hunfit] at hconvert
    exact hconvert
  | succ levels ih =>
    obtain ⟨depth, rfl⟩ := Nat.exists_eq_succ_of_ne_zero (by omega : depth ≠ 0)
    obtain ⟨es, rfl, h⟩ := h
    rw [integers_array, List.find?_flatMap] at hfirst
    obtain ⟨before, e, after, rfl, he, hbefore⟩ := List.findSome?_eq_some_iff.1 hfirst
    rw [List.forall_mem_append, List.forall_mem_cons] at h
    -- What stands before the element is itself nested, and fits.
    have hnested : (Value.array (width.arrays levels) before).IsNested width (levels + 1) :=
      ⟨before, rfl, h.1⟩
    have hfit : ∀ m ∈ (Value.array (width.arrays levels) before).integers, other.Holds m.val := by
      intro m hm
      rw [integers_array, List.mem_flatMap] at hm
      obtain ⟨b, hb, hm⟩ := hm
      simpa using List.find?_eq_none.1 (hbefore b hb) m hm
    obtain ⟨-, es, fs, heq, rfl, hsame⟩ := hnested.exists_sameNumbers hfit
    cases heq
    have hbecome : List.Forall₂ (Becomes (answerAt tie ctx depth) (other.arrays levels))
        before fs :=
      forall₂_becomes (fun v w => convert_of_sameNumbers ho hne (by omega)) hsame
    have hnull : e ≠ .null := by
      rintro rfl
      cases he
    have hanswer : answerAt tie ctx depth e (other.arrays levels) =
        some (.error (.outOfRange (.integer n.val) (.integral other))) := by
      rw [answerAt, ih (by omega) (h.2.1.resolve_left hnull) he]
      rfl
    rw [convert_array ho hne, run_convertEach_error answer_convert hbecome hnull hanswer after]
    rfl

/-- **Nested integers.** Integers of one width in arrays of arrays, null anywhere inside, are
converted to another width exactly when each of them fits. The result has the same numbers at the
same places, and is converted back to the original; and else the error has the first number, depth
first and from left to right, that does not fit. -/
theorem convert_nested (ho : ctx.overrides = []) (hne : width ≠ other) (tie : TieBreak)
    (hdepth : levels < depth) (hv : v.IsNested width levels) :
    ((∃ c, registry.convert tie ctx depth v (other.arrays levels) = some (.ok c)) ↔
        ∀ n ∈ v.integers, other.Holds n.val) ∧
      (∀ c, registry.convert tie ctx depth v (other.arrays levels) = some (.ok c) →
        c.shared = false ∧ SameNumbers width other levels v c.value ∧
          registry.convert tie ctx depth c.value (width.arrays levels) = some (.ok ⟨v, false⟩)) ∧
      ∀ n, v.integers.find? (fun n => ¬ other.Holds n.val) = some n →
        registry.convert tie ctx depth v (other.arrays levels) =
          some (.error (.outOfRange (.integer n.val) (.integral other))) := by
  have herror : ∀ n, v.integers.find? (fun n => ¬ other.Holds n.val) = some n →
      registry.convert tie ctx depth v (other.arrays levels) =
        some (.error (.outOfRange (.integer n.val) (.integral other))) :=
    fun n hn => convert_of_unfit ho hne hdepth hv hn
  have hiff : (∃ c, registry.convert tie ctx depth v (other.arrays levels) = some (.ok c)) ↔
      ∀ n ∈ v.integers, other.Holds n.val := by
    constructor
    · rintro ⟨c, hc⟩
      cases hfirst : v.integers.find? (fun n => ¬ other.Holds n.val) with
      | none => simpa using hfirst
      | some n =>
        rw [herror n hfirst] at hc
        cases hc
    · intro hfit
      obtain ⟨w, hw⟩ := hv.exists_sameNumbers hfit
      exact ⟨_, convert_of_sameNumbers ho hne hdepth hw⟩
  refine ⟨hiff, fun c hc => ?_, herror⟩
  obtain ⟨w, hw⟩ := hv.exists_sameNumbers (hiff.1 ⟨c, hc⟩)
  obtain rfl : c = ⟨w, false⟩ := by
    rw [convert_of_sameNumbers ho hne hdepth hw] at hc
    cases hc
    rfl
  exact ⟨rfl, hw, convert_of_sameNumbers ho hne.symm hdepth hw.symm⟩

/-- Longs in arrays of arrays, with nulls, as bytes and back; 300 is the first that is no byte. -/
theorem convert_nested_long :
    let row (es : List Value) : Value := .array (Width.long.arrays 0) es
    let some300 : Integral := ⟨.long, 300, by decide⟩
    let small := row [.integral ⟨.long, 127, by decide⟩, .null]
    let fitting : Value := .array (Width.long.arrays 1) [small, .null, row []]
    let unfit : Value := .array (Width.long.arrays 1)
      [small, row [.integral some300], row [.integral ⟨.long, -129, by decide⟩]]
    fitting.IsNested .long 2 ∧ unfit.IsNested .long 2 ∧
      (∃ c,
        registry.convert .registryOrder .default 3 fitting (Width.byte.arrays 2) = some (.ok c) ∧
        registry.convert .registryOrder .default 3 c.value (Width.long.arrays 2) =
          some (.ok ⟨fitting, false⟩)) ∧
      registry.convert .registryOrder .default 3 unfit (Width.byte.arrays 2) =
        some (.error (.outOfRange (.integer 300) (.integral .byte))) := by
  intro row some300 small fitting unfit
  have hone (n : Integral) (h : n.width = .long) : (row [.integral n]).IsNested .long 1 :=
    ⟨_, rfl, by simp [IsNested, h]⟩
  have hsmall : small.IsNested .long 1 := ⟨_, rfl, by simp [IsNested]⟩
  have hempty : (row []).IsNested .long 1 := ⟨_, rfl, by simp⟩
  have hfitting : fitting.IsNested .long 2 := ⟨_, rfl, by simp [hsmall, hempty]⟩
  have hunfit : unfit.IsNested .long 2 := by
    refine ⟨_, rfl, ?_⟩
    simp only [List.forall_mem_cons, List.not_mem_nil, false_implies, implies_true, and_true]
    exact ⟨.inr hsmall, .inr (hone _ rfl), .inr (hone _ rfl)⟩
  have ho : Context.default.overrides = [] := rfl
  have hne : Width.long ≠ .byte := by decide
  obtain ⟨hiff, hback, -⟩ := convert_nested ho hne .registryOrder (by decide : 2 < 3) hfitting
  obtain ⟨-, -, herror⟩ := convert_nested ho hne .registryOrder (by decide : 2 < 3) hunfit
  obtain ⟨c, hc⟩ := hiff.2 (by decide)
  exact ⟨hfitting, hunfit, ⟨c, hc, (hback c hc).2.2⟩, herror some300 (by decide)⟩

end Standard

end Recast
