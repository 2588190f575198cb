/-
The order of values is a total preorder wherever the names of array components
tell them apart.

On keys the order is lexicographic at every level but one: arrays of different
components are compared by the names of the components alone. Turning a
comparison round reverses it for any two keys. Of keys whose components come
from a set of types with names of their own, only equal ones have the same
place, and the order is transitive; without that it is not, for an array can
have the same place as two arrays of another component that differ.
-/
import Recast.Proofs.Sorting
import Recast.Proofs.Value.Parts
import Mathlib.Data.Set.Function

namespace Recast

namespace OrderKey

variable {S : Set Ty} {a b c k : OrderKey} {as bs cs ks : List OrderKey} {t : Ty}

/-! ## Components -/

mutual

/-- The component types of the arrays in a key. -/
def components : OrderKey → List Ty
  | .number _ | .text _ => []
  | .tuple ks => componentsOfAll ks
  | .array component ks => component :: componentsOfAll ks
termination_by structural k => k

def componentsOfAll : List OrderKey → List Ty
  | [] => []
  | k :: ks => components k ++ componentsOfAll ks
termination_by structural ks => ks

end

theorem mem_componentsOfAll : t ∈ componentsOfAll ks ↔ ∃ k ∈ ks, t ∈ k.components := by
  induction ks with
  | nil => simp [componentsOfAll]
  | cons k ks ih => simp [componentsOfAll, ih]

/-- The components in a key come from a set of types. -/
def Over (S : Set Ty) (k : OrderKey) : Prop := ∀ t ∈ k.components, t ∈ S

@[simp] theorem over_number {n : Int} : (number n).Over S := by simp [Over, components]

@[simp] theorem over_text {s : String} : (text s).Over S := by simp [Over, components]

@[simp] theorem over_tuple : (tuple ks).Over S ↔ ∀ k ∈ ks, k.Over S := by
  simp only [Over, components, mem_componentsOfAll]
  exact ⟨fun h k hk t ht => h t ⟨k, hk, ht⟩, fun h t ⟨k, hk, ht⟩ => h k hk t ht⟩

@[simp] theorem over_array {component : Ty} :
    (array component ks).Over S ↔ component ∈ S ∧ ∀ k ∈ ks, k.Over S := by
  have htuple : (∀ t ∈ componentsOfAll ks, t ∈ S) ↔ ∀ k ∈ ks, k.Over S := over_tuple
  rw [← htuple]
  exact List.forall_mem_cons

@[elab_as_elim]
theorem induction_on {P : OrderKey → Prop} (k : OrderKey) (number : ∀ n, P (number n))
    (text : ∀ s, P (text s)) (tuple : ∀ ks, (∀ k ∈ ks, P k) → P (tuple ks))
    (array : ∀ component ks, (∀ k ∈ ks, P k) → P (array component ks)) : P k :=
  @OrderKey.rec P (fun ks => ∀ k ∈ ks, P k) number text tuple array (by simp)
    (fun _ _ hk hks => List.forall_mem_cons.2 ⟨hk, hks⟩) k

/-! ## Forms -/

theorem form_eq_zero : k.form = 0 ↔ ∃ n, k = number n := by cases k <;> simp [form]

theorem form_eq_one : k.form = 1 ↔ ∃ s, k = text s := by cases k <;> simp [form]

theorem form_eq_two : k.form = 2 ↔ ∃ ks, k = tuple ks := by cases k <;> simp [form]

theorem form_eq_three : k.form = 3 ↔ ∃ component ks, k = array component ks := by
  cases k <;> simp [form]

theorem compare_of_form_ne (h : a.form ≠ b.form) : compare a b = Ord.compare a.form b.form := by
  cases a <;> cases b <;> first | rfl | exact absurd rfl h

theorem form_eq_of_compare_eq (h : compare a b = .eq) : a.form = b.form := by
  by_contra hne
  rw [compare_of_form_ne hne, Nat.compare_eq_eq] at h
  exact hne h

theorem form_le_of_compare_lt (h : compare a b = .lt) : a.form ≤ b.form := by
  by_cases heq : a.form = b.form
  · exact heq.le
  · rw [compare_of_form_ne heq, Nat.compare_eq_lt] at h
    exact h.le

/-! ## Turning round -/

theorem compareText_eq (s t : String) : compareText s t = Ord.compare s t := rfl

theorem compare_number (m n : Int) : compare (number m) (number n) = Ord.compare m n := rfl

theorem compare_text (s t : String) : compare (text s) (text t) = Ord.compare s t := rfl

theorem compareLists_swap (ih : ∀ a ∈ as, ∀ b, (compare a b).swap = compare b a) :
    (compareLists as bs).swap = compareLists bs as := by
  induction as generalizing bs with
  | nil => cases bs <;> rfl
  | cons a as ihas =>
    cases bs with
    | nil => rfl
    | cons b bs =>
      rw [List.forall_mem_cons] at ih
      rw [compareLists, compareLists, Ordering.swap_then, ih.1, ihas ih.2]

/-- Turning a comparison round reverses it. -/
theorem compare_swap (a b : OrderKey) : (compare a b).swap = compare b a := by
  induction a using induction_on generalizing b with
  | number m =>
    cases b with
    | number n => rw [compare_number, compare_number, ← Std.OrientedOrd.eq_swap]
    | _ => rfl
  | text s =>
    cases b with
    | text t => rw [compare_text, compare_text, ← Std.OrientedOrd.eq_swap]
    | _ => rfl
  | tuple as ih =>
    cases b with
    | tuple bs => exact compareLists_swap ih
    | _ => rfl
  | array c as ih =>
    cases b with
    | array d bs =>
      rw [compare, compare]
      by_cases hcd : c = d
      · rw [if_pos hcd, if_pos hcd.symm, compareLists_swap ih]
      · rw [if_neg hcd, if_neg (Ne.symm hcd), compareText_eq, compareText_eq,
          ← Std.OrientedOrd.eq_swap]
    | _ => rfl

theorem compareLists_self (ih : ∀ a ∈ as, compare a a = .eq) : compareLists as as = .eq := by
  induction as with
  | nil => rfl
  | cons a as ihas =>
    rw [List.forall_mem_cons] at ih
    rw [compareLists, ih.1, ihas ih.2]
    rfl

theorem compare_self (k : OrderKey) : compare k k = .eq := by
  induction k using induction_on with
  | number n =>
    rw [compare_number, Std.ReflOrd.compare_self]
  | text s =>
    rw [compare_text, Std.ReflOrd.compare_self]
  | tuple ks ih => exact compareLists_self ih
  | array component ks ih => rw [compare, if_pos rfl, compareLists_self ih]

/-! ## Keys over types with names of their own -/

theorem eq_of_compareLists_eq (ih : ∀ a ∈ as, ∀ b ∈ bs, compare a b = .eq → a = b)
    (h : compareLists as bs = .eq) : as = bs := by
  induction as generalizing bs with
  | nil =>
    cases bs with
    | nil => rfl
    | cons => cases h
  | cons a as ihas =>
    cases bs with
    | nil => cases h
    | cons b bs =>
      rw [compareLists, Ordering.then_eq_eq] at h
      rw [ih a List.mem_cons_self b List.mem_cons_self h.1,
        ihas (fun a ha b hb => ih a (.tail _ ha) b (.tail _ hb)) h.2]

/-- Keys of the same place are equal. -/
theorem eq_of_compare_eq (hS : S.InjOn Ty.name) (ha : a.Over S) (hb : b.Over S)
    (h : compare a b = .eq) : a = b := by
  induction a using induction_on generalizing b with
  | number m =>
    obtain ⟨n, rfl⟩ := form_eq_zero.1 (form_eq_of_compare_eq h).symm
    rw [compare_number] at h
    rw [Std.LawfulEqCmp.eq_of_compare h]
  | text s =>
    obtain ⟨t, rfl⟩ := form_eq_one.1 (form_eq_of_compare_eq h).symm
    rw [compare_text] at h
    rw [Std.LawfulEqCmp.eq_of_compare h]
  | tuple as ih =>
    obtain ⟨bs, rfl⟩ := form_eq_two.1 (form_eq_of_compare_eq h).symm
    rw [over_tuple] at ha hb
    rw [eq_of_compareLists_eq (fun a has b hbs => ih a has (ha a has) (hb b hbs)) h]
  | array component as ih =>
    obtain ⟨other, bs, rfl⟩ := form_eq_three.1 (form_eq_of_compare_eq h).symm
    rw [over_array] at ha hb
    have heq : component = other := by
      by_contra hne
      rw [compare, if_neg hne, compareText_eq] at h
      exact hne (hS ha.1 hb.1 (Std.LawfulEqCmp.eq_of_compare h))
    rw [compare, if_pos heq] at h
    rw [heq, eq_of_compareLists_eq (fun a has b hbs => ih a has (ha.2 a has) (hb.2 b hbs)) h]

theorem compareLists_lt_trans (heqab : ∀ a ∈ as, ∀ b ∈ bs, compare a b = .eq → a = b)
    (heqbc : ∀ b ∈ bs, ∀ c ∈ cs, compare b c = .eq → b = c)
    (ih : ∀ a ∈ as, ∀ b ∈ bs, ∀ c ∈ cs,
      compare a b = .lt → compare b c = .lt → compare a c = .lt)
    (hab : compareLists as bs = .lt) (hbc : compareLists bs cs = .lt) :
    compareLists as cs = .lt := by
  induction as generalizing bs cs with
  | nil =>
    cases cs with
    | nil => cases bs <;> cases hbc
    | cons => rfl
  | cons a as ihas =>
    cases bs with
    | nil => cases hab
    | cons b bs =>
      cases cs with
      | nil => cases hbc
      | cons c cs =>
        rw [compareLists, Ordering.then_eq_lt] at hab hbc ⊢
        have ha := List.mem_cons_self (a := a) (l := as)
        have hb := List.mem_cons_self (a := b) (l := bs)
        have hc := List.mem_cons_self (a := c) (l := cs)
        rcases hab with hab | ⟨hab, habs⟩
        · rcases hbc with hbc | ⟨hbc, -⟩
          · exact .inl (ih a ha b hb c hc hab hbc)
          · exact .inl (heqbc b hb c hc hbc ▸ hab)
        · obtain rfl := heqab a ha b hb hab
          rcases hbc with hbc | ⟨hbc, hbcs⟩
          · exact .inl hbc
          · refine .inr ⟨hbc, ihas (fun a ha b hb => heqab a (.tail _ ha) b (.tail _ hb))
              (fun b hb c hc => heqbc b (.tail _ hb) c (.tail _ hc))
              (fun a ha b hb c hc => ih a (.tail _ ha) b (.tail _ hb) c (.tail _ hc)) habs hbcs⟩

theorem compare_array_lt_iff {c d : Ty} :
    compare (array c as) (array d bs) = .lt ↔
      c = d ∧ compareLists as bs = .lt ∨ c ≠ d ∧ Ord.compare c.name d.name = .lt := by
  rw [compare, compareText_eq]
  by_cases h : c = d <;> simp [h]

theorem compare_lt_trans_of_forms (hab : compare a b = .lt) (hbc : compare b c = .lt)
    (h : b.form = a.form → c.form = a.form → compare a c = .lt) : compare a c = .lt := by
  have hformab := form_le_of_compare_lt hab
  have hformbc := form_le_of_compare_lt hbc
  by_cases hformac : a.form < c.form
  · rw [compare_of_form_ne hformac.ne, Nat.compare_eq_lt]
    exact hformac
  · exact h (by omega) (by omega)

theorem compare_lt_trans (hS : S.InjOn Ty.name) (ha : a.Over S) (hb : b.Over S) (hc : c.Over S)
    (hab : compare a b = .lt) (hbc : compare b c = .lt) : compare a c = .lt := by
  induction a using induction_on generalizing b c with
  | number m =>
    refine compare_lt_trans_of_forms hab hbc fun hformb hformc => ?_
    obtain ⟨n, rfl⟩ := form_eq_zero.1 hformb
    obtain ⟨o, rfl⟩ := form_eq_zero.1 hformc
    rw [compare_number] at hab hbc ⊢
    exact Std.TransCmp.lt_trans hab hbc
  | text s =>
    refine compare_lt_trans_of_forms hab hbc fun hformb hformc => ?_
    obtain ⟨t, rfl⟩ := form_eq_one.1 hformb
    obtain ⟨u, rfl⟩ := form_eq_one.1 hformc
    rw [compare_text] at hab hbc ⊢
    exact Std.TransCmp.lt_trans hab hbc
  | tuple as ih =>
    refine compare_lt_trans_of_forms hab hbc fun hformb hformc => ?_
    obtain ⟨bs, rfl⟩ := form_eq_two.1 hformb
    obtain ⟨cs, rfl⟩ := form_eq_two.1 hformc
    rw [over_tuple] at ha hb hc
    exact compareLists_lt_trans
      (fun a has b hbs => eq_of_compare_eq hS (ha a has) (hb b hbs))
      (fun b hbs c hcs => eq_of_compare_eq hS (hb b hbs) (hc c hcs))
      (fun a has b hbs c hcs => ih a has (ha a has) (hb b hbs) (hc c hcs)) hab hbc
  | array component as ih =>
    refine compare_lt_trans_of_forms hab hbc fun hformb hformc => ?_
    obtain ⟨component', bs, rfl⟩ := form_eq_three.1 hformb
    obtain ⟨component'', cs, rfl⟩ := form_eq_three.1 hformc
    rw [over_array] at ha hb hc
    rw [compare_array_lt_iff] at hab hbc ⊢
    rcases hab with ⟨rfl, hab⟩ | ⟨hne, hab⟩
    · rcases hbc with ⟨rfl, hbc⟩ | ⟨hne, hbc⟩
      · exact .inl ⟨rfl, compareLists_lt_trans
          (fun a has b hbs => eq_of_compare_eq hS (ha.2 a has) (hb.2 b hbs))
          (fun b hbs c hcs => eq_of_compare_eq hS (hb.2 b hbs) (hc.2 c hcs))
          (fun a has b hbs c hcs => ih a has (ha.2 a has) (hb.2 b hbs) (hc.2 c hcs)) hab hbc⟩
      · exact .inr ⟨hne, hbc⟩
    · rcases hbc with ⟨rfl, -⟩ | ⟨-, hbc⟩
      · exact .inr ⟨hne, hab⟩
      · have hac := Std.TransCmp.lt_trans hab hbc
        refine .inr ⟨fun heq => ?_, hac⟩
        rw [heq, Std.ReflOrd.compare_self] at hac
        cases hac

theorem compare_ne_gt_trans (hS : S.InjOn Ty.name) (ha : a.Over S) (hb : b.Over S)
    (hc : c.Over S) (hab : compare a b ≠ .gt) (hbc : compare b c ≠ .gt) : compare a c ≠ .gt := by
  cases heqab : compare a b with
  | gt => exact absurd heqab hab
  | eq => exact eq_of_compare_eq hS ha hb heqab ▸ hbc
  | lt =>
    cases heqbc : compare b c with
    | gt => exact absurd heqbc hbc
    | eq => exact eq_of_compare_eq hS hb hc heqbc ▸ hab
    | lt => simp [compare_lt_trans hS ha hb hc heqab heqbc]

theorem less_eq_false_iff : less a b = false ↔ compare b a ≠ .gt := by
  rw [less, ← compare_swap a b]
  cases compare a b <;> decide

/-- Keys over types with names of their own stand in a line. -/
theorem linearOn_less (hS : S.InjOn Ty.name) : LinearOn (Over S) less where
  asymm a b _ _ hab := by
    rw [less_eq_false_iff]
    unfold less at hab
    cases h : compare a b <;> simp_all
  trans a b c ha hb hc hab hbc := by
    rw [less_eq_false_iff] at hab hbc ⊢
    exact compare_ne_gt_trans hS hc hb ha hbc hab
  antisymm a b ha hb hab hba := by
    refine eq_of_compare_eq hS ha hb ?_
    rw [less_eq_false_iff, ← compare_swap] at hab
    rw [less_eq_false_iff] at hba
    cases h : compare a b <;> simp_all

end OrderKey

namespace Value

variable {S : Set Ty} {v a b c : Value}

/-! ## The keys of values -/

theorem compare_swap (a b : Value) : (a.compare b).swap = b.compare a :=
  OrderKey.compare_swap _ _

theorem fieldKeys_eq_map (fields : List (String × Value)) :
    fieldKeys fields = fields.map fun (name, v) => .tuple [.text name, v.orderKey] := by
  induction fields with
  | nil => rfl
  | cons field fields ih => rw [fieldKeys, ih]; rfl

theorem over_fieldKeys {fields : List (String × Value)}
    (h : ∀ w ∈ fields.map (·.2), w.orderKey.Over S) : ∀ key ∈ fieldKeys fields, key.Over S := by
  rw [fieldKeys_eq_map, List.forall_mem_map]
  intro field hfield
  simpa using h _ (List.mem_map_of_mem hfield)

theorem over_scalarKey (v : Value) : v.scalarKey.Over S := by
  cases v <;> simp [scalarKey, or_imp, forall_and]

/-- The components in the key of a value are those of the arrays among its parts. -/
theorem over_orderKey (h : ∀ x ∈ v.parts, ∀ t ∈ x.ty.component?, t ∈ S) : v.orderKey.Over S := by
  induction v using inner_induction with
  | step v ih =>
    have hinner : ∀ w ∈ v.inner, w.orderKey.Over S := fun w hw =>
      ih w hw fun x hx => h x (mem_parts_of_inner hw hx)
    cases v with
    | array component es =>
      have hcomponent : component ∈ S := h _ (mem_parts_self _) component rfl
      simpa [orderKey, orderKeys_eq_map, hcomponent] using hinner
    | collection type es =>
      have hkeys : ∀ k ∈ orderKeys es, k.Over S := by
        simpa [orderKeys_eq_map] using hinner
      have hsorted : ∀ k ∈ sortBy OrderKey.less (orderKeys es), k.Over S :=
        fun k hk => hkeys k ((sortBy_perm _ _).mem_iff.1 hk)
      rw [orderKey]
      split <;> simpa
    | object typeName fields =>
      have hsorted : ∀ k ∈ sortBy OrderKey.less (fieldKeys fields), k.Over S :=
        fun k hk => over_fieldKeys hinner k ((sortBy_perm _ _).mem_iff.1 hk)
      simpa [orderKey] using hsorted
    | _ => simp [orderKey, over_scalarKey]

/-- The component types of the arrays among the parts of some values. -/
def arrayComponents (vs : List Value) : Set Ty :=
  {t | ∃ x ∈ vs.flatMap parts, t ∈ x.ty.component?}

theorem NamesApart.injOn {vs : List Value} (h : NamesApart (·.ty.component?) vs) :
    (arrayComponents vs).InjOn Ty.name := by
  rintro s ⟨x, hx, hs⟩ t ⟨y, hy, ht⟩ hname
  have hrank : ∀ z : Value, ∀ u ∈ z.ty.component?, z.rank = 24 := by
    intro z u hu
    cases z <;> first | rfl | cases hu
  exact h x hx y hy ((hrank x s hs).trans (hrank y t ht).symm) s hs t ht hname

theorem over_arrayComponents {vs : List Value} (hv : v ∈ vs) :
    v.orderKey.Over (arrayComponents vs) :=
  over_orderKey fun x hx _ ht => ⟨x, List.mem_flatMap.2 ⟨v, hv, hx⟩, ht⟩

/-! ## The preorder -/

/-- Turning a comparison of values round reverses it. Where the names of array components tell them
apart, the order is transitive. -/
theorem compare_preorder (a b c : Value) :
    b.compare a = (a.compare b).swap ∧
      (NamesApart (·.ty.component?) [a, b, c] →
        a.compare b ≠ .gt → b.compare c ≠ .gt → a.compare c ≠ .gt) := by
  refine ⟨(compare_swap a b).symm, fun hnames hab hbc => ?_⟩
  exact OrderKey.compare_ne_gt_trans hnames.injOn (over_arrayComponents (by simp))
    (over_arrayComponents (by simp)) (over_arrayComponents (by simp)) hab hbc

/-- An enum type. -/
def colors : EnumType := ⟨"Color", ["RED", "BLUE"]⟩

/-- The array of its constants at some ordinals. -/
def colorArray (ordinals : List Nat) : Value :=
  .array (.enum colors) (ordinals.map fun n => .enum ⟨colors, n⟩)

/-- An array of objects whose type has the name of the enum type. -/
def namesakeArray : Value := .array (.named "Color") []

theorem compare_preorder_nested :
    NamesApart (·.ty.component?)
        [list [colorArray [0]], list [colorArray [0], colorArray []], list [colorArray [1]]] ∧
      (list [colorArray [0]]).compare (list [colorArray [1]]) ≠ .gt :=
  have hnames : NamesApart (·.ty.component?)
      [list [colorArray [0]], list [colorArray [0], colorArray []], list [colorArray [1]]] := by
    decide
  ⟨hnames, (compare_preorder (list [colorArray [0]]) (list [colorArray [0], colorArray []])
    (list [colorArray [1]])).2 hnames (by decide) (by decide)⟩

/-- Two arrays that differ have both the same place as an array of another component that has the
name of theirs. -/
theorem compare_not_transitive :
    (colorArray [1]).compare namesakeArray ≠ .gt ∧ namesakeArray.compare (colorArray [0]) ≠ .gt ∧
      (colorArray [1]).compare (colorArray [0]) = .gt := by
  decide

end Value

end Recast
