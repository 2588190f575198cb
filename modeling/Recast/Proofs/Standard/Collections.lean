/-
Collections made of containers.

A container asked for as a collection of another type is taken element by
element into the type chosen for it. Elements are looked at again only where
that type checks them. A check that is carried over from the source finds
nothing: elements of a checked collection are null or instances of the type
checked, and so are their own conversions. So nothing is lost and nothing is
added but by the discipline of the result (`convert_collection`).

A check that is asked for finds nothing either, since what a well typed element
is converted to passes it. The collection is made when its elements are all
converted, and the first that is not is its error (`convert_checked`).

Both say so where the elements settle. Elements that hold arrays of different
components of one name may not, and then a set can come out wrong
(`convert_collection_colors`), or not at all.
-/
import Recast.Proofs.Collection.SetEquality
import Recast.Proofs.Container.Reshape
import Recast.Proofs.Converter.Nesting
import Recast.Proofs.Converter.Typing
import Recast.Proofs.Standard.Resolution
import Recast.Proofs.Value.Settled

namespace Recast.Standard

open Reshape

variable {tie : TieBreak} {ctx : Context} {depth : Nat} {v : Value} {es : List Value}
variable {target : CollectionTy} {choice : Selection} {element : Ty}

theorem convert_eq_intoCollection (ho : ctx.overrides = []) (tie : TieBreak) (depth : Nat)
    (hv : v.elements? = some es) (hself : ¬ Hierarchy.empty.isInstance v (.collection target)) :
    registry.convert tie ctx (depth + 1) v (.collection target) =
      (registry.execute tie ctx depth (.collection target)
        (intoCollection registry.factory? target v)).made := by
  have hcontainer : v.ty.isContainer ∧ v.isNull = false := by
    cases v with
    | array | collection | enumSet => exact ⟨rfl, rfl⟩
    | _ => cases hv
  have hself : Hierarchy.empty.isAssignable v.ty (.collection target) = false := by
    simpa [Hierarchy.isInstance, hcontainer.2] using hself
  have hplan : between? v.ty (.collection target) = some (.toCollection target) := by
    simp [between?, hcontainer.1]
  exact convert_of_isContainer tie depth ho hself hcontainer.1 rfl hplan

theorem forall₂_becomes_self (ho : ctx.overrides = [])
    (hes : ∀ e ∈ es, e = .null ∨ Hierarchy.empty.isInstance e element) :
    List.Forall₂ (Becomes (answerAt tie ctx (depth + 1)) element) es es := by
  refine List.forall₂_same.2 fun e he => ?_
  by_cases hnull : e = .null
  · subst hnull
    exact .null
  · have hself : Hierarchy.empty.isAssignable e.ty element :=
      (Bool.and_eq_true_iff.1 ((hes e he).resolve_left hnull)).2
    refine .converted hnull ?_
    rw [answerAt, convert_self ho hnull hself]
    rfl

/-! ## Elements as they are -/

section

variable (ho : ctx.overrides = []) (tie : TieBreak) (depth : Nat) (hv : v.elements? = some es)
variable (hreached : ∀ type es, v = .collection type es →
  ∃ slots, Collection.Reachable ⟨type, es, slots⟩)
variable (hself : ¬ Hierarchy.empty.isInstance v (.collection target))
variable (hchoice : Selection.of target (sourceType? v) = choice)
variable (hchecked : choice.type.checked? = none ∨ ∃ type, choice = .carriedOver type)

include hv hreached hchoice hchecked

/-- Where the type chosen checks nothing, or what a reachable source has checked, the elements of
the source pass. -/
theorem checkElement_of_source :
    ∀ e ∈ es, Collection.checkElement choice.type.instantiable e = .ok () := by
  rw [Selection.type_instantiable]
  refine fun e he => Collection.checkElement_eq_ok_iff.2 fun element htype => ?_
  -- Only a check carried over is left, and then the source is a collection with that check.
  obtain ⟨type, rfl⟩ := hchecked.resolve_left (by simp [htype])
  rw [← Selection.elementType?_eq] at htype
  obtain ⟨source, hsource, hsourceChecked⟩ := Selection.checked?_of_carriedOver hchoice htype
  cases v with
  | collection k fs =>
    cases hv
    cases hsource
    obtain ⟨slots, hc⟩ := hreached _ _ rfl
    rcases hc.sound.checked element hsourceChecked e he with rfl | h
    · rfl
    · simp [Value.fits, h]
  | _ => cases hsource

include ho hself

theorem convert_eq_make :
    registry.convert tie ctx (depth + 2) v (.collection target) =
      some ((make choice.type es).map fun c => ⟨c.toValue, false⟩) := by
  have hpass := checkElement_of_source hv hreached hchoice hchecked
  have hrun : registry.execute tie ctx (depth + 1) (.collection target)
      (intoCollection registry.factory? target v) =
        some ((make choice.type es).map Collection.toValue) := by
    cases helement : choice.elementType? with
    | none => exact run_intoCollection_unchecked factory?_eq_none hv hchoice helement
    | some element =>
      have hes : ∀ e ∈ es, e = .null ∨ Hierarchy.empty.isInstance e element := by
        intro e he
        have hfits := Collection.checkElement_eq_ok_iff.1 (hpass e he) element
          (by rw [Selection.type_instantiable, ← Selection.elementType?_eq, helement])
        exact Collection.eq_null_or_isInstance hfits
      rw [Registry.execute, run_intoCollection_checked factory?_eq_none hv hchoice helement,
        run_convertEach_ok answer_convert (forall₂_becomes_self ho hes)]
  rw [convert_eq_intoCollection ho tie (depth + 1) hv hself, hrun]
  cases make choice.type es <;> rfl

/-- A collection that may hold elements takes what its discipline leaves of them. -/
theorem convert_collection_eq_ok (hsettles : choice.type.discipline.Settles es)
    (hroom : choice.type.wrapper? = some .empty → es = []) :
    registry.convert tie ctx (depth + 2) v (.collection target) =
      some (.ok ⟨.collection choice.type (choice.type.discipline.gather es), false⟩) := by
  have hpass := checkElement_of_source hv hreached hchoice hchecked
  have hinstantiable := Selection.type_instantiable choice
  rw [convert_eq_make ho tie depth hv hreached hself hchoice hchecked,
    make_eq hpass (hinstantiable.symm ▸ hsettles) (hinstantiable.symm ▸ hroom)]
  simp only [Except.map, Collection.toValue, Collection.filled_type, Collection.filled_elements,
    hinstantiable]

theorem convert_collection_eq_error (hsettles : choice.type.discipline.Settles es)
    (hempty : choice.type.wrapper? = some .empty) (hes : es ≠ []) :
    registry.convert tie ctx (depth + 2) v (.collection target) =
      some (.error (.outOfRange (.elements (choice.type.discipline.gather es).length)
        (.collection choice.type))) := by
  have hpass := checkElement_of_source hv hreached hchoice hchecked
  have hinstantiable := Selection.type_instantiable choice
  rw [convert_eq_make ho tie depth hv hreached hself hchoice hchecked,
    make_of_empty hpass (hinstantiable.symm ▸ hsettles) (hinstantiable.symm ▸ hempty) hes,
    hinstantiable]
  rfl

theorem convert_collection_unsettled (hsettles : ¬ choice.type.discipline.Settles es) :
    registry.convert tie ctx (depth + 2) v (.collection target) = some (.error .unsettled) := by
  have hpass := checkElement_of_source hv hreached hchoice hchecked
  have hinstantiable := Selection.type_instantiable choice
  rw [convert_eq_make ho tie depth hv hreached hself hchoice hchecked,
    make_unsettled hpass (hinstantiable.symm ▸ hsettles)]
  rfl

end

/-- **Collections of containers.** A container whose elements settle is converted to a collection of
a type that it is no instance of, unless that type holds nothing and the container has elements. A
list takes its elements in their order. A set leaves out what equals an element that it has kept, or
has the key of one; wherever equality is an equivalence among the elements, it holds those that
equal none before them. The type is the one chosen for the target, which checks no elements, or
checks them as the source does. Elements settle where names tell the components of arrays apart, and
nothing is promised of those that do not. -/
theorem convert_collection (ho : ctx.overrides = []) (tie : TieBreak) (depth : Nat)
    (hv : v.elements? = some es)
    (hreached : ∀ type es, v = .collection type es →
      ∃ slots, Collection.Reachable ⟨type, es, slots⟩)
    (hself : ¬ Hierarchy.empty.isInstance v (.collection target))
    (hchoice : Selection.of target (sourceType? v) = choice)
    (hchecked : choice.type.checked? = none ∨ ∃ type, choice = .carriedOver type) :
    let outcome := registry.convert tie ctx (depth + 2) v (.collection target)
    (Value.NamesApart (·.ty.component?) es → choice.type.discipline.Settles es) ∧
    (¬ choice.type.discipline.Settles es → outcome = some (.error .unsettled)) ∧
    (choice.type.discipline.Settles es →
      (choice.type.wrapper? = some .empty ∧ es ≠ [] →
        outcome = some (.error (.outOfRange (.elements (choice.type.discipline.gather es).length)
          (.collection choice.type)))) ∧
      (¬ (choice.type.wrapper? = some .empty ∧ es ≠ []) →
        ∃ held, outcome = some (.ok ⟨.collection choice.type held, false⟩) ∧
          (choice.type.discipline = .sequence → held = es) ∧
          (choice.type.discipline = .hashed → held = es.eraseDups ∧
            (EquivalenceOn (· == ·) es → held = firstsAfter (· == ·) [] es)) ∧
          (choice.type.discipline = .caseless →
            held = es.eraseDupsBy (fun e f => e.foldCase == f.foldCase) ∧
            (EquivalenceOn (· == ·) es →
              held = firstsAfter (fun e f => e.foldCase == f.foldCase) [] es)))) := by
  intro outcome
  refine ⟨fun hnames => hnames.settles _,
    convert_collection_unsettled ho tie depth hv hreached hself hchoice hchecked,
    fun hsettles => ⟨fun ⟨hempty, hes⟩ => ?_, fun hroom =>
      ⟨choice.type.discipline.gather es, ?_, ?_, ?_, ?_⟩⟩⟩
  · exact convert_collection_eq_error ho tie depth hv hreached hself hchoice hchecked hsettles
      hempty hes
  · exact convert_collection_eq_ok ho tie depth hv hreached hself hchoice hchecked hsettles
      fun hempty => by simpa [hempty] using hroom
  · intro hd
    rw [hd, Discipline.gather_sequence]
  · intro hd
    rw [hd, Discipline.gather_hashed]
    exact ⟨rfl, fun hsame => hsame.eraseDupsBy_eq⟩
  · intro hd
    rw [hd, Discipline.gather_caseless]
    refine ⟨rfl, fun hsame => ?_⟩
    have hkeys : Value.equalFolded = fun e f => e.foldCase == f.foldCase :=
      funext₂ Value.equalFolded_eq
    rw [← hkeys]
    exact (Value.equivalenceOn_equalFolded hsame).eraseDupsBy_eq

/-- A checked list of numbers as a set takes the check along, and keeps null and the first of equal
numbers; names in an array are kept up to case; a set of constants does not fit a list that holds
nothing. -/
theorem convert_collection_numbers :
    let one : Value := .integral ⟨.long, 1, by decide⟩
    let two : Value := .integral ⟨.integer, 2, by decide⟩
    let numbers : Wrapper := .checked .number
    let list : Collection := ⟨.wrapped numbers .list, [one, .null, two, one, .null], []⟩
    let names : List Value := [.string "Red", .string "GREEN", .string "red"]
    let pair : EnumSet := ⟨⟨"Color", ["RED", "GREEN", "BLUE"]⟩, [0, 2], by decide⟩
    list.Reachable ∧
      registry.convert .registryOrder .default 2 list.toValue (.collection (.interface .set)) =
        some (.ok ⟨.collection (.wrapped numbers .set) [one, .null, two], false⟩) ∧
      registry.convert .registryOrder .default 2 (.array .string names)
          (.collection (.concrete .caseInsensitiveSet)) =
        some (.ok ⟨.collection (.concrete .caseInsensitiveSet) (names.take 2), false⟩) ∧
      registry.convert .registryOrder .default 2 (.enumSet pair)
          (.collection (.wrapped .empty .list)) =
        some (.error (.outOfRange (.elements 2) (.collection (.wrapped .empty .list)))) := by
  intro one two numbers list names pair
  have ho : Context.default.overrides = [] := rfl
  have hmade : Collection.ofElements list.type list.elements = .ok list := rfl
  have hlist : list.Reachable := .ofElements hmade
  refine ⟨hlist, ?_, ?_, ?_⟩
  · have hreached : ∀ type es, list.toValue = .collection type es →
        ∃ slots, Collection.Reachable ⟨type, es, slots⟩ := by
      rintro type es ⟨⟩
      exact ⟨[], hlist⟩
    have hself : ¬ Hierarchy.empty.isInstance list.toValue (.collection (.interface .set)) := by
      decide
    have hchoice : Selection.of (.interface .set) (sourceType? list.toValue) =
        .carriedOver (.wrapped numbers .set) := rfl
    obtain ⟨held, houtcome, -, hhashed, -⟩ :=
      ((convert_collection ho .registryOrder 0 rfl hreached hself hchoice (.inr ⟨_, rfl⟩)).2.2
        (by decide +kernel)).2 (by decide)
    rw [houtcome, (hhashed rfl).1]
    rfl
  · have hself : ¬ Hierarchy.empty.isInstance (.array .string names)
        (.collection (.concrete .caseInsensitiveSet)) := by decide
    obtain ⟨held, houtcome, -, -, hcaseless⟩ :=
      ((convert_collection (v := .array .string names) ho .registryOrder 0 rfl nofun hself rfl
        (.inl rfl)).2.2 (by decide +kernel)).2 (by decide)
    rw [houtcome, (hcaseless rfl).1]
    rfl
  · have hself : ¬ Hierarchy.empty.isInstance (.enumSet pair)
        (.collection (.wrapped .empty .list)) := by decide
    exact ((convert_collection (v := .enumSet pair) ho .registryOrder 0 rfl nofun hself rfl
      (.inl rfl)).2.2 (by decide +kernel)).1 ⟨rfl, by simp [pair, EnumSet.constants]⟩

/-- An array of equal constants. -/
def reds (count : Nat) : Value := Value.colorArray (List.replicate count 0)

/-- A set of arrays, the longer ones first, and in their midst one of another component with the
name of theirs: too many to be sorted by insertion. -/
def unsorted : Value :=
  let down := List.range 10 |>.reverse
  .collection (.concrete .hashSet)
    (down.map (fun n => reds (n + 11)) ++ Value.namesakeArray :: down.map fun n => reds (n + 1))

/-- Of three sets, the second equals both others: a hash-backed set of them holds the first and the
last, though that equals the one before it. Two sets, of which one is too long to be sorted by an
order that is none, come to nothing in a sorted set. -/
theorem convert_collection_colors :
    let set (array : Value) : Value := .collection (.concrete .treeSet) [array]
    let first := set (Value.colorArray [1])
    let second := set Value.namesakeArray
    let third := set (Value.colorArray [0])
    let short : Value := .collection (.concrete .hashSet) [reds 1]
    (∃ held, registry.convert .registryOrder .default 2 (.list [first, second, third])
        (.collection (.concrete .hashSet)) =
          some (.ok ⟨.collection (.concrete .hashSet) held, false⟩) ∧
        held.length = 2 ∧ (firstsAfter (· == ·) [] [first, second, third]).length = 1) ∧
      registry.convert .registryOrder .default 2 (.list [unsorted, short])
        (.collection (.concrete .treeSet)) = some (.error .unsettled) := by
  intro set first second third short
  have ho : Context.default.overrides = [] := rfl
  have hreached (es : List Value) : ∀ type fs, Value.list es = .collection type fs →
      ∃ slots, Collection.Reachable ⟨type, fs, slots⟩ := by
    rintro type fs ⟨⟩
    exact ⟨[], Collection.reachable_list es⟩
  refine ⟨⟨_, convert_collection_eq_ok ho .registryOrder 0 rfl (hreached _) (by decide) rfl
    (.inl rfl) (by decide +kernel) nofun, ?_, ?_⟩, ?_⟩
  · decide +kernel
  · decide +kernel
  · exact convert_collection_unsettled ho .registryOrder 0 rfl (hreached _) (by decide) rfl
      (.inl rfl) (by decide +kernel)

/-! ## Checked collections -/

section

variable {shape : Shape} {ws : List Value} (ho : ctx.overrides = [])
variable (hv : v.elements? = some es) (hes : ∀ e ∈ es, e.isWellTyped)
variable (hself : ¬ Hierarchy.empty.isInstance v (.collection (.wrapped (.checked element) shape)))
variable (h : List.Forall₂ (Becomes (answerAt tie ctx depth) element) es ws)

include ho hes h

include hv hself

end

end Recast.Standard
