/-
Comparisons are settled wherever names tell the components of arrays apart.

Keys over types with names of their own stand in a line, and so does any list
of them: each key is where the number of those before it puts it. So the sets
inside such values can be sorted and searched (`settledWith_of_components`), and
the values can be put together by any discipline (`NamesApart.settles`).
-/
import Recast.Proofs.Value.Order
import Recast.Value.Settled

namespace Recast

theorem countP_lt_countP {α : Type} {p q : α → Bool} {xs : List α} {y : α}
    (h : ∀ x ∈ xs, p x → q x) (hy : y ∈ xs) (hp : p y = false) (hq : q y) :
    xs.countP p < xs.countP q := by
  induction xs with
  | nil => cases hy
  | cons x xs ih =>
    obtain ⟨hx, hxs⟩ := List.forall_mem_cons.1 h
    have hle : xs.countP p ≤ xs.countP q := List.countP_mono_left hxs
    rcases List.mem_cons.1 hy with rfl | hy
    · rw [List.countP_cons_of_neg (by simp [hp]), List.countP_cons_of_pos hq]
      omega
    · have hlt := ih hxs hy
      by_cases hpx : p x
      · rw [List.countP_cons_of_pos hpx, List.countP_cons_of_pos (hx hpx)]
        omega
      · rw [List.countP_cons_of_neg hpx]
        exact hlt.trans_le (List.sublist_cons_self x xs).countP_le

namespace OrderKey

variable {S : Set Ty} {ks : List OrderKey} {a b : OrderKey}

theorem countP_less_lt (hS : S.InjOn Ty.name) (hks : ∀ k ∈ ks, k.Over S) (ha : a ∈ ks)
    (hb : b ∈ ks) (h : compare a b = .lt) : ks.countP (less · a) < ks.countP (less · b) := by
  refine countP_lt_countP (fun k hk hless => ?_) ha ?_ ?_
  · rw [less, Ordering.isLT_iff_eq_lt] at hless ⊢
    exact compare_lt_trans hS (hks k hk) (hks a ha) (hks b hb) hless h
  · simp [less, compare_self]
  · simp [less, h]

theorem compare_eq_compare_countP (hS : S.InjOn Ty.name) (hks : ∀ k ∈ ks, k.Over S) (ha : a ∈ ks)
    (hb : b ∈ ks) :
    compare a b = Ord.compare (ks.countP (less · a)) (ks.countP (less · b)) := by
  cases h : compare a b with
  | lt => exact (Nat.compare_eq_lt.2 (countP_less_lt hS hks ha hb h)).symm
  | eq => rw [eq_of_compare_eq hS (hks a ha) (hks b hb) h, Std.ReflOrd.compare_self]
  | gt =>
    rw [← Ordering.swap_eq_lt, compare_swap] at h
    exact (Nat.compare_eq_gt.2 (countP_less_lt hS hks hb ha h)).symm

end OrderKey

namespace Value

variable {S : Set Ty} {v a b : Value} {vs as bs : List Value} {m : Comparison}

theorem ranked_of_components (hS : S.InjOn Ty.name)
    (h : ∀ v ∈ vs, ∀ x ∈ v.parts, ∀ t ∈ x.ty.component?, t ∈ S) : Ranked vs := by
  have hkeys : ∀ k ∈ vs.map orderKey, k.Over S :=
    List.forall_mem_map.2 fun v hv => over_orderKey (h v hv)
  intro a ha b hb
  obtain ⟨k, hk, rfl⟩ := List.mem_map.1 ha
  obtain ⟨l, hl, rfl⟩ := List.mem_map.1 hb
  exact OrderKey.compare_eq_compare_countP hS hkeys hk hl

theorem settledPlaces_eq_true (h : ∀ a ∈ as, ∀ b, settledWith m a b = true) (bs : List Value) :
    settledPlaces m as bs = true := by
  induction as generalizing bs with
  | nil => rfl
  | cons a as ih =>
    obtain ⟨ha, has⟩ := List.forall_mem_cons.1 h
    cases bs with
    | nil => rfl
    | cons b bs => simp only [settledPlaces, ha, ih has, Bool.or_true, Bool.and_self]

theorem settledAll_eq_true (h : ∀ a ∈ as, ∀ b, settledWith m a b = true) (bs : List Value) :
    settledAll m as bs = true := by
  induction as with
  | nil => rfl
  | cons a as ih =>
    obtain ⟨ha, has⟩ := List.forall_mem_cons.1 h
    rw [settledAll, ih has, Bool.and_true]
    exact List.all_eq_true.2 fun b _ => ha b

theorem settledFields_eq_true {fs : List (String × Value)}
    (h : ∀ a ∈ fs.map (·.2), ∀ b, settledWith m a b = true) (gs : List (String × Value)) :
    settledFields m fs gs = true := by
  induction fs with
  | nil => rfl
  | cons field fs ih =>
    obtain ⟨hfield, hfs⟩ := List.forall_mem_cons.1 h
    rw [settledFields, ih hfs, Bool.and_true]
    split
    · exact hfield _
    · rfl

/-- A value whose components have names of their own is compared with any other in a settled way. -/
theorem settledWith_of_components (hS : S.InjOn Ty.name)
    (h : ∀ x ∈ v.parts, ∀ t ∈ x.ty.component?, t ∈ S) (m : Comparison) (w : Value) :
    settledWith m v w = true := by
  induction v using inner_induction generalizing m w with
  | step v ih =>
    have hinner : ∀ e ∈ v.inner, ∀ x ∈ e.parts, ∀ t ∈ x.ty.component?, t ∈ S :=
      fun e he x hx => h x (mem_parts_of_inner he hx)
    have heach (m : Comparison) : ∀ e ∈ v.inner, ∀ b, settledWith m e b = true :=
      fun e he b => ih e he (hinner e he) m b
    have hplaces (m : Comparison) := settledPlaces_eq_true (heach m)
    have hall (m : Comparison) := settledAll_eq_true (heach m)
    have hranked : Ranked v.inner := ranked_of_components hS hinner
    cases v with
    | array component es =>
      simp only [inner_array] at hplaces
      cases w with
      | array => simp [settledWith, hplaces]
      | _ => rfl
    | collection type es =>
      simp only [inner_collection] at hplaces hall hranked
      cases w with
      | collection =>
        cases m
        · cases hd : type.discipline <;> simp [settledWith, hd, hplaces, hall, Searchable, hranked]
        · by_cases hd : type.discipline = .sequence <;>
            simp [settledWith, hd, hplaces, hall, Sortable, hranked]
      | _ => rfl
    | object typeName fields =>
      have hfields (gs : List (String × Value)) : settledFields m fields gs = true :=
        settledFields_eq_true (heach m) gs
      cases w with
      | object => simp [settledWith, hfields]
      | _ => rfl
    | _ => rfl

/-- Values that hold no two components of one name can be put together by any discipline. -/
theorem NamesApart.settles (h : NamesApart (·.ty.component?) vs) (d : Discipline) :
    d.Settles vs := by
  have hcomponents : ∀ v ∈ vs, ∀ x ∈ v.parts, ∀ t ∈ x.ty.component?, t ∈ arrayComponents vs :=
    fun v hv x hx _ ht => ⟨x, List.mem_flatMap.2 ⟨v, hv, hx⟩, ht⟩
  have hpairs (m : Comparison) : vs.Pairwise (Settled m) :=
    List.pairwise_of_forall_mem_list fun v hv w hw =>
      ⟨settledWith_of_components h.injOn (hcomponents v hv) m w,
        settledWith_of_components h.injOn (hcomponents w hw) m v⟩
  cases d with
  | sequence => trivial
  | hashed | caseless => exact hpairs .equality
  | sorted => exact ⟨hpairs .order, .inr (ranked_of_components h.injOn hcomponents)⟩

end Value

end Recast
