/-
Sets of constants as arrays and lists, and back.

A set is read constant by constant in the order of the ordinals, and each
constant is converted by itself: to its ordinal, to its name, or not at all.
Read back, an ordinal that is declared stands for its constant, and so does a
name that no other constant has and that is not too long. A set with the same
ordinals is the same set (`enumSetOf_eq_self`), so it comes back.
-/
import Mathlib.Data.List.Sort
import Recast.Proofs.Standard.Collections
import Recast.Proofs.Standard.EnumSets
import Recast.Proofs.Value.Equality

namespace Recast

variable {E : EnumType} {limit : Nat} {s : EnumSet} {es : List Value}

/-- The ordinal as a number of a width. -/
def Value.IsOrdinal (width : Width) (ordinal : Nat) (e : Value) : Prop :=
  ∃ n : Integral, e = .integral n ∧ n.width = width ∧ n.val = ordinal

/-- The text of the name that is declared at the ordinal. -/
def Value.IsName (E : EnumType) (ordinal : Nat) (e : Value) : Prop :=
  ∃ name, e = .string name ∧ E.constant? ordinal = some name

/-! ## Reading constants back -/

theorem EnumSet.eq_of_mem_iff {s t : EnumSet} (htype : s.type = t.type)
    (h : ∀ k, k ∈ s.members ↔ k ∈ t.members) : s = t :=
  eq_of_members_eq htype (s.ascending.eq_of_mem_iff t.ascending h)

theorem Constant.findOrdinal_eq_ok {k : Nat} (h : k < E.constants.length) :
    findOrdinal E k = .ok ⟨E, k⟩ := by
  simp [findOrdinal, ofOrdinal?, h]

/-- A name that is not too long, of a type whose names are all different, stands for its
constant. -/
theorem Constant.find_eq_ok {k : Nat} {name : String} (hnodup : E.constants.Nodup)
    (hlength : name.toList.length ≤ limit) (hname : E.constant? k = some name) :
    find E limit name = .ok ⟨E, k⟩ := by
  have hordinal : E.ordinal? name = some k := by
    obtain ⟨hk, hget⟩ := List.getElem?_eq_some_iff.1 hname
    refine List.idxOf?_eq_some_iff.2 ⟨hk, hget, fun j hj heq => ?_⟩
    have hsame : j = k := (hnodup.getElem_inj_iff).1 (heq.trans hget.symm)
    omega
  simp [find, ofName?, hordinal, Nat.not_lt.2 hlength]

namespace Reshape

theorem exists_constantOf_iff {ks : List Nat}
    (h : List.Forall₂ (fun k e => constantOf E limit e = .ok ⟨E, k⟩) ks es) :
    (∀ e ∈ es, ∃ c, constantOf E limit e = .ok c) ∧
      ∀ k, k ∈ ks ↔ ∃ e ∈ es, ∃ c, constantOf E limit e = .ok c ∧ c.ordinal = k := by
  induction h with
  | nil => simp
  | cons he _ ih =>
    refine ⟨List.forall_mem_cons.2 ⟨⟨_, he⟩, ih.1⟩, fun k => ?_⟩
    simp [he, ih.2 k, eq_comm]

/-- Elements that stand for the constants of a set make the set. -/
theorem enumSetOf_eq_self
    (h : List.Forall₂ (fun k e => constantOf s.type limit e = .ok ⟨s.type, k⟩) s.members es) :
    enumSetOf s.type limit es = .ok s := by
  obtain ⟨hall, hmembers⟩ := exists_constantOf_iff h
  obtain ⟨t, ht, htype, hmem⟩ := enumSetOf_eq_ok hall
  rw [ht, EnumSet.eq_of_mem_iff htype fun k => (hmem k).trans (hmembers k).symm]

end Reshape

namespace Standard

open Reshape Value

variable {tie : TieBreak} {ctx : Context} {depth : Nat} {t : Ty} {c : Constant} {v : Value}

theorem convert_back (ho : ctx.overrides = []) (tie : TieBreak) (depth : Nat)
    (hv : (∃ component, v = .array component es) ∨ ∃ type, v = .collection type es)
    (h : List.Forall₂ (fun k e =>
      constantOf s.type ctx.env.maxNameLength e = .ok ⟨s.type, k⟩) s.members es) :
    registry.convert tie ctx (depth + 1) v (.enumSet s.type) =
      some (.ok ⟨.enumSet s, false⟩) := by
  rw [convert_enumSet_eq ho tie depth hv, enumSetOf_eq_self h]
  rfl

/-! ## Constants by themselves -/

theorem source_of_enum : ∀ i ∈ items,
    i.source.family? = none ∧ i.source ≠ .comparable ∧ i.source ≠ .any := by decide +kernel

theorem convert_constant (ho : ctx.overrides = []) (tie : TieBreak) (depth : Nat)
    {f : Value → Call → Except ConversionError Value} (hi : ⟨.anyEnum, t, .ofPure f⟩ ∈ items)
    (hself : Hierarchy.empty.isAssignable (Value.enum c).ty t = false) (ht : t.family? = none) :
    registry.convert tie ctx (depth + 1) (.enum c) t =
      some ((f (.enum c) (ctx.call t)).map (⟨·, false⟩)) := by
  have hancestors : Hierarchy.empty.ancestors (Value.enum c).ty =
      [.enum c.type, .anyEnum, .comparable, .any] := Hierarchy.ancestors_builtin fun _ _ => rfl
  have hserves : Item.Serves ⟨.anyEnum, t, .ofPure f⟩ (Value.enum c).ty t :=
    ⟨by simp [hancestors], .inl rfl⟩
  refine convert_of_serves tie depth ho hself hi hserves ?_ rfl
  rintro j hj ⟨hsource, htarget⟩
  obtain ⟨hfamily, hcomparable, hany⟩ := source_of_enum j hj
  rw [hancestors] at hsource
  refine ⟨?_, htarget.resolve_right (by simp [ht])⟩
  simp only [List.mem_cons, List.not_mem_nil, hcomparable, hany, or_false] at hsource
  refine hsource.resolve_left fun heq => ?_
  rw [heq] at hfamily
  cases hfamily

theorem convert_ordinal (ho : ctx.overrides = []) (tie : TieBreak) (depth : Nat) {width : Width}
    (h : width.Holds c.ordinal) :
    answerAt tie ctx (depth + 1) (.enum c) (.integral width) =
      some (.ok (.integral ⟨width, c.ordinal, h⟩)) := by
  have hi : ⟨.anyEnum, .integral width, Scalar.enumToOrdinal⟩ ∈ items := by
    have hmem : Ty.integral width ∈ integralTypes := List.mem_map_of_mem (Width.mem_all width)
    simp [items, enumItems, hmem]
  have hself : Hierarchy.empty.isAssignable (Value.enum c).ty (.integral width) = false :=
    Hierarchy.isAssignable_eq_false (by simp) (by simp [Value.ty]) rfl
      (by simp [Supertypes.builtinTypes])
  have hint : Integral.ofInt? width c.ordinal = some ⟨width, c.ordinal, h⟩ := dif_pos h
  rw [answerAt, convert_constant ho tie depth hi hself rfl]
  show Outcome.value (some (Except.map _ (Numeric.integralValue width c.ordinal))) = _
  rw [Numeric.integralValue, hint]
  rfl

theorem convert_name (ho : ctx.overrides = []) (tie : TieBreak) (depth : Nat) (c : Constant) :
    answerAt tie ctx (depth + 1) (.enum c) .string = some (.ok (.string c.name)) := by
  have hi : ⟨.anyEnum, .string, Scalar.enumToName⟩ ∈ items := by simp [items, enumItems]
  have hself : Hierarchy.empty.isAssignable (Value.enum c).ty .string = false :=
    Hierarchy.isAssignable_eq_false (by simp) (by simp [Value.ty]) rfl
      (by simp [Supertypes.builtinTypes])
  rw [answerAt, convert_constant ho tie depth hi hself rfl]
  rfl

/-! ## Sets as arrays and lists -/

theorem ancestors_enumSet (E : EnumType) : Hierarchy.empty.ancestors (.enumSet E) =
    [.enumSet E, .collection (.interface .set), .collection (.interface .collection), .any] :=
  Hierarchy.ancestors_builtin fun _ _ => rfl

theorem convert_enumSet_array (ho : ctx.overrides = []) (tie : TieBreak) (depth : Nat)
    (h : List.Forall₂ (fun k e => answerAt tie ctx depth (.enum ⟨s.type, k⟩) t = some (.ok e))
      s.members es) :
    registry.convert tie ctx (depth + 1) (.enumSet s) (.array t) =
      some (.ok ⟨.array t es, false⟩) := by
  have hself : Hierarchy.empty.isAssignable (Value.enumSet s).ty (.array t) = false := by
    simp [Value.ty, Hierarchy.isAssignable, ancestors_enumSet]
  have hbecome : List.Forall₂ (Becomes (answerAt tie ctx depth) t) (s.constants.map .enum) es := by
    rw [EnumSet.constants, List.forall₂_map_left_iff, List.forall₂_map_left_iff]
    exact h.imp fun k e he => .converted (by simp) he
  rw [convert_of_isContainer tie depth ho hself rfl rfl rfl]
  show Outcome.made ((intoArray t (.enumSet s)).run (m := Id)
    (registry.answer tie depth ctx (.array t))) = _
  rw [run_intoArray rfl, run_convertEach_ok answer_convert hbecome]
  rfl

theorem convert_enumSet_ordinals (ho : ctx.overrides = []) (tie : TieBreak) (depth : Nat)
    {width : Width} (hdeclared : ∀ k ∈ s.members, k < s.type.constants.length)
    (hholds : ∀ k ∈ s.members, width.Holds k) :
    ∃ es, registry.convert tie ctx (depth + 2) (.enumSet s) (.array (.integral width)) =
        some (.ok ⟨.array (.integral width) es, false⟩) ∧
      List.Forall₂ (IsOrdinal width) s.members es ∧
      registry.convert tie ctx (depth + 1) (.array (.integral width) es) (.enumSet s.type) =
        some (.ok ⟨.enumSet s, false⟩) := by
  obtain ⟨es, hes⟩ : ∃ es, List.Forall₂ (IsOrdinal width) s.members es :=
    exists_forall₂ fun k hk => ⟨.integral ⟨width, k, hholds k hk⟩, _, rfl, rfl, rfl⟩
  refine ⟨es, convert_enumSet_array ho tie (depth + 1) (hes.imp ?_), hes,
    convert_back ho tie depth (.inl ⟨_, rfl⟩) ?_⟩
  · rintro k _ ⟨⟨_, _, hheld⟩, rfl, rfl, rfl⟩
    exact convert_ordinal ho tie depth hheld
  · refine ((List.forall₂_and_left _ _).2 ⟨hdeclared, hes⟩).imp ?_
    rintro k _ ⟨hk, n, rfl, -, hn⟩
    rw [constantOf, hn, Constant.findOrdinal_eq_ok hk]

/-- A set becomes an array of the names of its constants. It comes back when the names of the type
are all different and none is too long. -/
theorem convert_enumSet_names (ho : ctx.overrides = []) (tie : TieBreak) (depth : Nat)
    (hdeclared : ∀ k ∈ s.members, k < s.type.constants.length) :
    ∃ es, registry.convert tie ctx (depth + 2) (.enumSet s) (.array .string) =
        some (.ok ⟨.array .string es, false⟩) ∧
      List.Forall₂ (IsName s.type) s.members es ∧
      (s.type.constants.Nodup →
        (∀ name ∈ s.type.constants, name.toList.length ≤ ctx.env.maxNameLength) →
        registry.convert tie ctx (depth + 1) (.array .string es) (.enumSet s.type) =
          some (.ok ⟨.enumSet s, false⟩)) := by
  obtain ⟨es, hes⟩ : ∃ es, List.Forall₂ (IsName s.type) s.members es :=
    exists_forall₂ fun k hk => ⟨_, _, rfl, List.getElem?_eq_getElem (hdeclared k hk)⟩
  refine ⟨es, convert_enumSet_array ho tie (depth + 1) (hes.imp ?_), hes,
    fun hnodup hlength => convert_back ho tie depth (.inl ⟨_, rfl⟩) (hes.imp ?_)⟩
  · rintro k _ ⟨name, rfl, hname⟩
    rw [convert_name ho, Constant.name, hname]
    rfl
  · rintro k _ ⟨name, rfl, hname⟩
    exact Constant.find_eq_ok hnodup (hlength name (List.mem_of_getElem? hname)) hname

theorem forall₂_constants (s : EnumSet) (limit : Nat) :
    List.Forall₂ (fun k e => constantOf s.type limit e = .ok ⟨s.type, k⟩) s.members
      (s.constants.map .enum) := by
  rw [EnumSet.constants, List.map_map, List.forall₂_map_right_iff]
  exact List.forall₂_same.2 fun k _ => if_pos rfl

theorem convert_enumSet_constants (ho : ctx.overrides = []) (tie : TieBreak) (depth : Nat)
    (s : EnumSet) :
    registry.convert tie ctx (depth + 2) (.enumSet s) (.array (.enum s.type)) =
        some (.ok ⟨.array (.enum s.type) (s.constants.map .enum), false⟩) ∧
      registry.convert tie ctx (depth + 1) (.array (.enum s.type) (s.constants.map .enum))
        (.enumSet s.type) = some (.ok ⟨.enumSet s, false⟩) := by
  refine ⟨convert_enumSet_array ho tie (depth + 1) ?_,
    convert_back ho tie depth (.inl ⟨_, rfl⟩) (forall₂_constants s _)⟩
  rw [EnumSet.constants, List.map_map, List.forall₂_map_right_iff]
  refine List.forall₂_same.2 fun k _ => ?_
  rw [answerAt, convert_enum_of_constant ho rfl]
  rfl

theorem convert_enumSet_list (ho : ctx.overrides = []) (tie : TieBreak) (depth : Nat)
    (s : EnumSet) :
    registry.convert tie ctx (depth + 2) (.enumSet s) (.collection (.interface .list)) =
        some (.ok ⟨.list (s.constants.map .enum), false⟩) ∧
      registry.convert tie ctx (depth + 1) (.list (s.constants.map .enum)) (.enumSet s.type) =
        some (.ok ⟨.enumSet s, false⟩) := by
  have hself : ¬ Hierarchy.empty.isInstance (.enumSet s) (.collection (.interface .list)) := by
    simp [Hierarchy.isInstance, Value.ty, Hierarchy.isAssignable, ancestors_enumSet]
  have hchoice : Selection.of (.interface .list) (sourceType? (.enumSet s)) = .default .list := rfl
  refine ⟨?_, convert_back ho tie depth (.inr ⟨_, rfl⟩) (forall₂_constants s _)⟩
  have hnone : ∀ type es, Value.enumSet s = .collection type es →
      ∃ slots, Collection.Reachable ⟨type, es, slots⟩ := by simp
  have hlist : registry.convert tie ctx (depth + 2) (.enumSet s) (.collection (.interface .list)) =
      some (.ok ⟨.list (Discipline.sequence.gather (s.constants.map .enum)), false⟩) :=
    convert_collection_eq_ok ho tie depth rfl hnone hself hchoice (.inl rfl) trivial
      (by simp [Selection.type, CollectionTy.instantiable, CollectionTy.wrapper?])
  rwa [Discipline.gather_sequence] at hlist

/-- **Sets of constants there and back.** A set whose ordinals are all declared, and have 32 bits as
ordinals do, becomes an array of its ordinals as long or big integers, an array of its constants, a
list of them, or an array of their names, with one element for each ordinal in ascending order. Each
is converted back to the set; the names where those of the type are all different and none is longer
than the context allows. -/
theorem convert_enumSet_back (ho : ctx.overrides = []) (tie : TieBreak) (depth : Nat)
    (hdeclared : ∀ k ∈ s.members, k < s.type.constants.length)
    (hbits : ∀ k ∈ s.members, k < 2 ^ 32) :
    let becomes (t : Ty) (w : Value) : Prop :=
      registry.convert tie ctx (depth + 2) (.enumSet s) t = some (.ok ⟨w, false⟩)
    let comesBack (w : Value) : Prop :=
      registry.convert tie ctx (depth + 1) w (.enumSet s.type) = some (.ok ⟨.enumSet s, false⟩)
    (∀ width ∈ [Width.long, .bigInteger], ∃ es,
      becomes (.array (.integral width)) (.array (.integral width) es) ∧
        List.Forall₂ (IsOrdinal width) s.members es ∧ comesBack (.array (.integral width) es)) ∧
    (∃ es, becomes (.array (.enum s.type)) (.array (.enum s.type) es) ∧
      becomes (.collection (.interface .list)) (.list es) ∧
      List.Forall₂ (fun k e => e = .enum ⟨s.type, k⟩) s.members es ∧
      comesBack (.array (.enum s.type) es) ∧ comesBack (.list es)) ∧
    ∃ es, becomes (.array .string) (.array .string es) ∧
      List.Forall₂ (IsName s.type) s.members es ∧
      (s.type.constants.Nodup →
        (∀ name ∈ s.type.constants, name.toList.length ≤ ctx.env.maxNameLength) →
        comesBack (.array .string es)) := by
  intro becomes comesBack
  have hholds : ∀ width ∈ [Width.long, .bigInteger], ∀ k ∈ s.members, width.Holds k := by
    intro width hwidth k hk
    have hk := hbits k hk
    simp only [List.mem_cons, List.not_mem_nil, or_false] at hwidth
    rcases hwidth with rfl | rfl <;> simp only [Width.Holds, Width.min, Width.max, Width.bits] <;>
      omega
  refine ⟨fun width hwidth => ?_, ⟨s.constants.map .enum, ?_⟩, ?_⟩
  · exact convert_enumSet_ordinals ho tie depth hdeclared (hholds width hwidth)
  · obtain ⟨harray, hback⟩ := convert_enumSet_constants ho tie depth s
    obtain ⟨hlist, hlistBack⟩ := convert_enumSet_list ho tie depth s
    refine ⟨harray, hlist, ?_, hback, hlistBack⟩
    rw [EnumSet.constants, List.map_map, List.forall₂_map_right_iff]
    exact List.forall₂_same.2 fun k _ => rfl
  · exact convert_enumSet_names ho tie depth hdeclared

/-- Red and blue of three colors: as longs, as a list and as names they come back. -/
theorem convert_enumSet_back_colors :
    let colors : EnumType := ⟨"Color", ["RED", "GREEN", "BLUE"]⟩
    let pair : EnumSet := ⟨colors, [0, 2], by decide⟩
    let back (w : Value) := registry.convert .registryOrder .default 1 w (.enumSet colors)
    ((∀ k ∈ pair.members, k < colors.constants.length) ∧ (∀ k ∈ pair.members, k < 2 ^ 32) ∧
      colors.constants.Nodup ∧
      ∀ name ∈ colors.constants, name.toList.length ≤ Context.default.env.maxNameLength) ∧
    (∃ e f : Integral, e.width = .long ∧ e.val = 0 ∧ f.width = .long ∧ f.val = 2 ∧
      back (.array (.integral .long) [.integral e, .integral f]) =
        some (.ok ⟨.enumSet pair, false⟩)) ∧
    back (.list [.enum ⟨colors, 0⟩, .enum ⟨colors, 2⟩]) = some (.ok ⟨.enumSet pair, false⟩) ∧
    registry.convert .registryOrder .default 2 (.enumSet pair) (.array .string) =
      some (.ok ⟨.array .string [.string "RED", .string "BLUE"], false⟩) ∧
    back (.array .string [.string "RED", .string "BLUE"]) =
      some (.ok ⟨.enumSet pair, false⟩) := by
  intro colors pair back
  have ho : Context.default.overrides = [] := rfl
  have hdeclared : ∀ k ∈ pair.members, k < pair.type.constants.length := by decide
  have hbits : ∀ k ∈ pair.members, k < 2 ^ 32 := by decide
  have hnodup : colors.constants.Nodup := by decide
  have hlength : ∀ name ∈ colors.constants,
      name.toList.length ≤ Context.default.env.maxNameLength := by decide
  obtain ⟨hordinals, ⟨constants, -, -, hconstants, -, hlist⟩, names, hnames, hmembers, hback⟩ :=
    convert_enumSet_back ho .registryOrder 0 hdeclared hbits
  refine ⟨⟨hdeclared, hbits, hnodup, hlength⟩, ?_, ?_, ?_⟩
  · obtain ⟨es, -, hes, hesBack⟩ := hordinals .long (by simp)
    obtain _ | ⟨⟨e, rfl, he, heval⟩, _ | ⟨⟨f, rfl, hf, hfval⟩, ⟨⟩⟩⟩ := hes
    exact ⟨e, f, he, heval, hf, hfval, hesBack⟩
  · obtain _ | ⟨rfl, _ | ⟨rfl, ⟨⟩⟩⟩ := hconstants
    exact hlist
  · obtain _ | ⟨⟨red, rfl, hred⟩, _ | ⟨⟨blue, rfl, hblue⟩, ⟨⟩⟩⟩ := hmembers
    cases hred
    cases hblue
    exact ⟨hnames, hback hnodup hlength⟩

end Standard

end Recast
