/-
The order of values and their equality.

Two values of the same place are equal, and two equal values have the same
place, where the types that the order knows by name alone have names of their
own, and values are well formed. One kind of value is an exception: equality of
case-insensitive sets looks past the case of text, and their order does not.

Both follow the keys. Scalars are told apart by rank and key. A set is in its
key a sorted list, so the keys of two sets are equal when the elements of one
are those of the other, rearranged; and elements that are kept apart, each
among as many others, are the others rearranged.
-/
import Recast.Proofs.Value.WellFormed
import Mathlib.Data.List.Perm.Subperm

namespace Recast

/-! ## Scalars -/

theorem Binary.toNat_bits {f : Format} (x : Binary f) :
    x.bits.toNat = x.magnitude + if x.isNegative then f.signBit else 0 := by
  have hwidth : 2 ^ f.width = 2 * f.signBit := by
    rw [Format.width, Format.signBit, Nat.add_assoc, Nat.add_comm 1, Nat.pow_succ, Nat.mul_comm]
  have hlt : x.bits.toNat < 2 * f.signBit := hwidth ▸ x.bits.isLt
  unfold magnitude isNegative
  by_cases hsign : f.signBit ≤ x.bits.toNat
  · rw [if_pos (decide_eq_true hsign), Nat.mod_eq_sub_mod hsign, Nat.mod_eq_of_lt (by omega)]
    omega
  · rw [if_neg (by simpa using hsign), Nat.mod_eq_of_lt (by omega), Nat.add_zero]

theorem Binary.eq_of_orderKey_eq {f : Format} {x y : Binary f} (h : x.orderKey = y.orderKey) :
    x = y := by
  have hparts : x.isNegative = y.isNegative ∧ x.magnitude = y.magnitude := by
    unfold orderKey at h
    cases hx : x.isNegative <;> cases hy : y.isNegative <;> simp [hx, hy] at h ⊢ <;> omega
  have hbits : x.bits = y.bits :=
    BitVec.eq_of_toNat_eq (by rw [x.toNat_bits, y.toNat_bits, hparts.1, hparts.2])
  cases x
  cases y
  exact congrArg mk hbits

theorem Decimal.same_iff {a b : Decimal} : a.same b ↔ a.units = b.units ∧ a.scale = b.scale := by
  rw [same, Bool.and_eq_true, decide_eq_true_eq, decide_eq_true_eq]
  constructor
  · rintro ⟨hscale, hsigned⟩
    exact ⟨by rw [units, units, hscale, hsigned], hscale⟩
  · rintro ⟨hunits, hscale⟩
    have hpower : ((10 ^ (28 - b.scale) : Nat) : Int) ≠ 0 :=
      Int.natCast_ne_zero.2 (Nat.pow_pos (by decide)).ne'
    rw [units, units, hscale] at hunits
    exact ⟨hscale, Int.eq_of_mul_eq_mul_right hpower hunits⟩

theorem Clock.eq_of_key_eq {s t : Clock} (h : s.key = t.key) : s = t := by
  cases s
  cases t
  simp only [key, List.cons.injEq, Int.natCast_inj] at h
  simp [h]

theorem Date.eq_of_key_eq {d e : Date} (h : d.key = e.key) : d = e := by
  obtain ⟨⟨_, _, _⟩, _, _⟩ := d
  obtain ⟨⟨_, _, _⟩, _, _⟩ := e
  simp only [Civil.key, List.cons.injEq, Int.natCast_inj] at h
  simp [h]

theorem LocalDateTime.eq_of_key_eq {l m : LocalDateTime} (h : l.key = m.key) : l = m := by
  obtain ⟨hdate, htime⟩ := List.append_inj h rfl
  cases l
  cases m
  exact congrArg₂ mk (Date.eq_of_key_eq hdate) (Clock.eq_of_key_eq htime)

theorem DateTime.eq_of_parts_eq {l m : DateTime} (hutc : l.utc.key = m.utc.key)
    (hoffset : l.offset.seconds = m.offset.seconds) : l = m := by
  cases l
  cases m
  exact congrArg₂ mk (LocalDateTime.eq_of_key_eq hutc) (Offset.eq_of_seconds_eq hoffset)

theorem Span.eq_of_nanos_eq {s t : Span} (h : s.nanos = t.nanos) : s = t := by
  cases s
  cases t
  cases h
  rfl

theorem Integral.eq_of_val_eq {m n : Integral} (hwidth : m.width = n.width) (h : m.val = n.val) :
    m = n := by
  cases m
  cases n
  cases hwidth
  cases h
  rfl

theorem EnumSet.eq_of_members_eq {s t : EnumSet} (htype : s.type = t.type)
    (h : s.members = t.members) : s = t := by
  cases s
  cases t
  cases htype
  cases h
  rfl

namespace Value

variable {v w a b : Value} {as bs : List Value} {n : Integral}

/-- The type that the order of a value knows by its name. -/
def named? : Value → Option Ty
  | .typeRef t => some t
  | .enum c => some (.enum c.type)
  | .enumSet s => some (.enum s.type)
  | .array component _ => some component
  | .collection type _ => some (.collection type)
  | _ => none

theorem integral_of_rank_eq (h : v.rank = (integral n).rank) :
    ∃ m, v = integral m ∧ m.width = n.width := by
  obtain ⟨width, val, hval⟩ := n
  cases v with
  | integral m =>
    obtain ⟨width', val', hval'⟩ := m
    refine ⟨_, rfl, ?_⟩
    cases width <;> cases width' <;> first | rfl | cases h
  | _ => cases width <;> cases h

theorem map_number_inj {ks ls : List Int} (h : ks.map OrderKey.number = ls.map OrderKey.number) :
    ks = ls :=
  List.map_injective_iff.2 (fun _ _ => OrderKey.number.inj) h

theorem scalarEqual_of_scalarKey_eq (hlt : v.rank < 24) (hrank : v.rank = w.rank)
    (hkey : v.scalarKey = w.scalarKey)
    (hnames : ∀ s ∈ v.named?, ∀ t ∈ w.named?, s.name = t.name → s = t) :
    scalarEqual v w = true := by
  -- By rank, the two are of one kind.
  cases v <;> cases w <;> try cases hrank
  all_goals try (obtain ⟨m, hm, -⟩ := integral_of_rank_eq hrank; cases hm; done)
  all_goals try (obtain ⟨m, hm, -⟩ := integral_of_rank_eq hrank.symm; cases hm; done)
  all_goals simp only [scalarKey, OrderKey.number.injEq, OrderKey.text.injEq,
    OrderKey.tuple.injEq, List.cons.injEq, Int.natCast_inj, and_true] at hkey
  case null.null.refl => rfl
  case boolean.boolean.refl b c => cases b <;> cases c <;> first | rfl | cases hkey
  case char.char.refl c d => exact decide_eq_true (Char.toNat_inj.1 hkey)
  case integral.integral m n =>
    obtain ⟨_, ⟨⟩, hwidth⟩ := integral_of_rank_eq hrank
    exact decide_eq_true (Integral.eq_of_val_eq hwidth hkey)
  case float.float.refl => exact decide_eq_true (Binary.eq_of_orderKey_eq hkey)
  case double.double.refl => exact decide_eq_true (Binary.eq_of_orderKey_eq hkey)
  case decimal.decimal.refl => exact Decimal.same_iff.2 hkey
  case string.string.refl => exact decide_eq_true hkey
  case stringBuilder.stringBuilder.refl => exact decide_eq_true hkey
  case date.date.refl => exact decide_eq_true (Date.eq_of_key_eq (map_number_inj hkey))
  case localDateTime.localDateTime.refl =>
    exact decide_eq_true (LocalDateTime.eq_of_key_eq (map_number_inj hkey))
  case dateTime.dateTime.refl =>
    obtain ⟨hutc, hoffset⟩ := List.append_inj' hkey rfl
    simp only [List.cons.injEq, OrderKey.number.injEq, and_true] at hoffset
    exact decide_eq_true (DateTime.eq_of_parts_eq (map_number_inj hutc) hoffset)
  case time.time.refl => exact decide_eq_true (Clock.eq_of_key_eq (map_number_inj hkey))
  case instant.instant.refl =>
    exact decide_eq_true (LocalDateTime.eq_of_key_eq (map_number_inj hkey))
  case duration.duration.refl => exact decide_eq_true (Span.eq_of_nanos_eq hkey)
  case zoneOffset.zoneOffset.refl => exact decide_eq_true (Offset.eq_of_seconds_eq hkey)
  case locale.locale.refl => exact decide_eq_true hkey
  case typeRef.typeRef.refl s t => exact decide_eq_true (hnames s rfl t rfl hkey)
  case enum.enum.refl c d =>
    have htype := Ty.enum.inj (hnames _ rfl _ rfl hkey.1)
    cases c
    cases d
    exact decide_eq_true (congrArg₂ Constant.mk htype hkey.2)
  case enumSet.enumSet.refl s t =>
    have htype := Ty.enum.inj (hnames _ rfl _ rfl hkey.1)
    have hmembers : s.members = t.members :=
      List.map_injective_iff.2 (fun m n h => Int.ofNat.inj (OrderKey.number.inj h)) hkey.2
    exact decide_eq_true (EnumSet.eq_of_members_eq htype hmembers)
  all_goals simp [rank] at hlt

theorem orderKey_eq_of_scalarEqual (h : scalarEqual v w = true) : v.orderKey = w.orderKey := by
  -- Null is the first case and decimals are the seventh; in the last the kinds differ.
  fun_cases scalarEqual v w
  case case1 => rfl
  case case7 d e =>
    obtain ⟨hunits, hscale⟩ := Decimal.same_iff.1 h
    simp only [orderKey, scalarKey, rank, hunits, hscale]
  case case21 => simp [scalarEqual] at h
  all_goals
    cases of_decide_eq_true h
    rfl

/-! ## Kinds -/

theorem rank_cases (v : Value) :
    v.rank < 24 ∨ (∃ component es, v = array component es) ∨ (∃ type es, v = collection type es) ∨
      ∃ typeName fields, v = object typeName fields := by
  cases v with
  | array component es => exact .inr (.inl ⟨_, _, rfl⟩)
  | collection type es => exact .inr (.inr (.inl ⟨_, _, rfl⟩))
  | object typeName fields => exact .inr (.inr (.inr ⟨_, _, rfl⟩))
  | integral n =>
    obtain ⟨width, _, _⟩ := n
    cases width <;> simp [rank]
  | _ => simp [rank]

theorem array_of_rank_eq {c : Ty} (h : v.rank = (array c as).rank) :
    ∃ component es, v = array component es := by
  rcases rank_cases v with hlt | h | ⟨_, _, rfl⟩ | ⟨_, _, rfl⟩
  · exact absurd hlt (h ▸ Nat.lt_irrefl 24)
  · exact h
  · cases h
  · cases h

theorem collection_of_rank_eq {k : CollectionTy} (h : v.rank = (collection k as).rank) :
    ∃ type es, v = collection type es := by
  rcases rank_cases v with hlt | ⟨_, _, rfl⟩ | h | ⟨_, _, rfl⟩
  · exact absurd hlt (h ▸ Nat.not_lt.2 (Nat.le_succ 24))
  · cases h
  · exact h
  · cases h

theorem object_of_rank_eq {t : String} {fs : List (String × Value)}
    (h : v.rank = (object t fs).rank) : ∃ typeName fields, v = object typeName fields := by
  rcases rank_cases v with hlt | ⟨_, _, rfl⟩ | ⟨_, _, rfl⟩ | h
  · exact absurd hlt (h ▸ Nat.not_lt.2 (Nat.le_add_right 24 2))
  · cases h
  · cases h
  · exact h

theorem orderKey_of_rank_lt (h : v.rank < 24) :
    v.orderKey = .tuple [.number v.rank, v.scalarKey] := by
  cases v with
  | array | collection | object => simp [rank] at h
  | _ => rfl

theorem beq_of_rank_lt (h : v.rank < 24) : (v == w) = scalarEqual v w := by
  cases v with
  | array | collection | object => simp [rank] at h
  | _ => rfl

theorem rank_eq_of_orderKey_eq (h : v.orderKey = w.orderKey) : v.rank = w.rank := by
  have hhead (v : Value) : ∃ rest, v.orderKey = .tuple (.number v.rank :: rest) := by
    cases v <;> exact ⟨_, rfl⟩
  obtain ⟨rest, hv⟩ := hhead v
  obtain ⟨rest', hw⟩ := hhead w
  rw [hv, hw] at h
  simp only [OrderKey.tuple.injEq, List.cons.injEq, OrderKey.number.injEq, Int.natCast_inj] at h
  exact h.1

/-! ## What containers compare -/

theorem array_beq_iff {c d : Ty} :
    (array c as == array d bs) = true ↔ c = d ∧ equalLists as bs = true := by
  show (c = d && equalLists as bs) = true ↔ _
  rw [Bool.and_eq_true, decide_eq_true_eq]

/-- How collections of a discipline compare what they hold. -/
def Matches (as bs : List Value) : Discipline → Prop
  | .sequence => equalLists as bs = true
  | .hashed => ∀ a ∈ as, ∃ b ∈ bs, (a == b) = true
  | .caseless => ∀ a ∈ as, ∃ b ∈ bs, a.equalFolded b = true
  | .sorted => ∀ a ∈ as, searchSorted a.orderKey bs = true

theorem collection_beq_iff {k l : CollectionTy} :
    (collection k as == collection l bs) = true ↔
      k = l ∧ as.length = bs.length ∧ Matches as bs k.discipline := by
  show (k = l && as.length = bs.length && _) = true ↔ _
  rw [Bool.and_eq_true, Bool.and_eq_true, decide_eq_true_eq, decide_eq_true_eq, and_assoc]
  refine and_congr_right fun _ => and_congr_right fun _ => ?_
  cases k.discipline with
  | sequence => rfl
  | hashed => exact allIn_iff
  | caseless => exact allFoldedIn_iff
  | sorted => exact List.all_eq_true

theorem fieldsIn_iff {fs gs : List (String × Value)} :
    fieldsIn fs gs = true ↔
      ∀ f ∈ fs, ∃ w, gs.lookup f.1 = some w ∧ (f.2 == w) = true := by
  induction fs with
  | nil => simp [fieldsIn]
  | cons f fs ih =>
    obtain ⟨name, v⟩ := f
    rw [fieldsIn, Bool.and_eq_true, ih, List.forall_mem_cons]
    refine and_congr_left fun _ => ?_
    cases gs.lookup name with
    | none => simp
    | some w => simp; rfl

theorem object_beq_iff {t u : String} {fs gs : List (String × Value)} :
    (object t fs == object u gs) = true ↔
      t = u ∧ fs.length = gs.length ∧ fieldsIn fs gs = true := by
  show (t = u && fs.length = gs.length && fieldsIn fs gs) = true ↔ _
  rw [Bool.and_eq_true, Bool.and_eq_true, decide_eq_true_eq, decide_eq_true_eq, and_assoc]

theorem orderKey_array_eq_iff {c d : Ty} :
    (array c as).orderKey = (array d bs).orderKey ↔
      c = d ∧ as.map orderKey = bs.map orderKey := by
  simp [orderKey, orderKeys_eq_map]

theorem orderKey_collection_eq_iff {k l : CollectionTy} (hname : k.name = l.name → k = l) :
    (collection k as).orderKey = (collection l bs).orderKey ↔
      k = l ∧
        if k.discipline = .sequence then as.map orderKey = bs.map orderKey
        else sortBy OrderKey.less (as.map orderKey) = sortBy OrderKey.less (bs.map orderKey) := by
  simp only [orderKey, orderKeys_eq_map, OrderKey.tuple.injEq, OrderKey.text.injEq,
    List.cons.injEq, true_and, and_true]
  constructor
  · rintro ⟨hkl, hkeys⟩
    obtain rfl := hname hkl
    refine ⟨rfl, ?_⟩
    split <;> simp_all
  · rintro ⟨rfl, hkeys⟩
    refine ⟨rfl, ?_⟩
    split <;> simp_all

theorem orderKey_object_eq_iff {t u : String} {fs gs : List (String × Value)} :
    (object t fs).orderKey = (object u gs).orderKey ↔
      t = u ∧ sortBy OrderKey.less (fieldKeys fs) = sortBy OrderKey.less (fieldKeys gs) := by
  simp [orderKey]

/-! ## Values of the same place are equal -/

theorem NamesApart.of_rank_eq (h : NamesApart named? [a, b]) (hrank : a.rank = b.rank) :
    ∀ s ∈ a.named?, ∀ t ∈ b.named?, s.name = t.name → s = t :=
  h a (by simp [mem_parts_self]) b (by simp [mem_parts_self]) hrank

theorem NamesApart.inner_pair (h : NamesApart named? [a, b]) (hv : v ∈ a.inner)
    (hw : w ∈ b.inner) : NamesApart named? [v, w] :=
  h.inner (by simp [hv, hw])

theorem equalLists_of_map_orderKey_eq
    (ih : ∀ a ∈ as, ∀ b ∈ bs, a.orderKey = b.orderKey → (a == b) = true)
    (h : as.map orderKey = bs.map orderKey) : equalLists as bs = true := by
  induction as generalizing bs with
  | nil =>
    cases bs with
    | nil => rfl
    | cons => cases h
  | cons a as ihas =>
    cases bs with
    | nil => cases h
    | cons b bs =>
      rw [List.map_cons, List.map_cons, List.cons.injEq] at h
      rw [equalLists, Bool.and_eq_true]
      exact ⟨ih a List.mem_cons_self b List.mem_cons_self h.1,
        ihas (fun a ha b hb => ih a (.tail _ ha) b (.tail _ hb)) h.2⟩

theorem searchSorted_of_mem (hbs : bs.Pairwise fun earlier later => earlier.compare later = .lt)
    (hb : b ∈ bs) : searchSorted b.orderKey bs = true := by
  induction bs with
  | nil => cases hb
  | cons c bs ih =>
    rw [List.pairwise_cons] at hbs
    rw [searchSorted]
    rcases List.mem_cons.1 hb with rfl | hb
    · rw [OrderKey.compare_self]
    · have hgt : OrderKey.compare b.orderKey c.orderKey = .gt := by
        rw [← OrderKey.compare_swap]
        exact congrArg Ordering.swap (hbs.1 b hb)
      rw [hgt]
      exact ih hbs.2 hb

theorem folded?_eq_of_scalarEqual (h : scalarEqual a b = true) : a.folded? = b.folded? := by
  fun_cases scalarEqual a b
  case case1 => rfl
  case case7 => rfl
  case case21 => simp [scalarEqual] at h
  all_goals
    cases of_decide_eq_true h
    rfl

theorem equalFolded_of_beq (h : (a == b) = true) : a.equalFolded b = true := by
  have hfolded : a.folded? = b.folded? := by
    rcases rank_cases a with hlt | ⟨_, _, rfl⟩ | ⟨_, _, rfl⟩ | ⟨_, _, rfl⟩
    · exact folded?_eq_of_scalarEqual (beq_of_rank_lt hlt ▸ h)
    -- A container equals containers only, and those have no text.
    all_goals cases b <;> first | rfl | cases h
  unfold equalFolded
  split
  · exact decide_eq_true hfolded
  · exact h

theorem matches_of_perm {d : Discipline} (hd : d ≠ .sequence) (hbs : d.Keeps bs)
    (ih : ∀ a ∈ as, ∀ b ∈ bs, a.orderKey = b.orderKey → (a == b) = true)
    (h : (as.map orderKey).Perm (bs.map orderKey)) : Matches as bs d := by
  have hmem : ∀ a ∈ as, ∃ b ∈ bs, b.orderKey = a.orderKey := fun a ha =>
    List.mem_map.1 (h.mem_iff.1 (List.mem_map_of_mem ha))
  have hbeq : ∀ a ∈ as, ∃ b ∈ bs, (a == b) = true := fun a ha =>
    let ⟨b, hb, hkey⟩ := hmem a ha
    ⟨b, hb, ih a ha b hb hkey.symm⟩
  cases d with
  | sequence => exact absurd rfl hd
  | hashed => exact hbeq
  | caseless =>
    intro a ha
    obtain ⟨b, hb, heq⟩ := hbeq a ha
    exact ⟨b, hb, equalFolded_of_beq heq⟩
  | sorted =>
    intro a ha
    obtain ⟨b, hb, hkey⟩ := hmem a ha
    rw [← hkey]
    exact searchSorted_of_mem hbs hb

theorem fieldsIn_of_perm {fs gs : List (String × Value)} (hgs : (gs.map (·.1)).Nodup)
    (ih : ∀ f ∈ fs, ∀ g ∈ gs, f.2.orderKey = g.2.orderKey → (f.2 == g.2) = true)
    (h : (fieldKeys fs).Perm (fieldKeys gs)) : fieldsIn fs gs = true := by
  rw [fieldKeys_eq_map, fieldKeys_eq_map] at h
  refine fieldsIn_iff.2 fun f hf => ?_
  obtain ⟨g, hg, hkey⟩ := List.mem_map.1 (h.mem_iff.1 (List.mem_map_of_mem hf))
  simp only [OrderKey.tuple.injEq, List.cons.injEq, OrderKey.text.injEq, and_true] at hkey
  exact ⟨g.2, (lookup_field_eq_some_iff hgs).2 (hkey.1 ▸ hg), ih f hf g hg hkey.2.symm⟩

theorem beq_of_orderKey_eq (hnames : NamesApart named? [a, b]) (hb : b.WellFormed)
    (h : a.orderKey = b.orderKey) : (a == b) = true := by
  induction a using inner_induction generalizing b with
  | step a ih =>
    have hrank := rank_eq_of_orderKey_eq h
    have hown := hnames.of_rank_eq hrank
    have hinner : ∀ v ∈ a.inner, ∀ w ∈ b.inner, v.orderKey = w.orderKey → (v == w) = true :=
      fun v hv w hw => ih v hv (hnames.inner_pair hv hw) (hb.inner hw)
    rcases rank_cases a with hlt | ⟨component, es, rfl⟩ | ⟨type, es, rfl⟩ | ⟨typeName, fs, rfl⟩
    · rw [beq_of_rank_lt hlt]
      rw [orderKey_of_rank_lt hlt, orderKey_of_rank_lt (hrank ▸ hlt)] at h
      simp only [OrderKey.tuple.injEq, List.cons.injEq, and_true] at h
      exact scalarEqual_of_scalarKey_eq hlt hrank h.2 hown
    · obtain ⟨component', es', rfl⟩ := array_of_rank_eq hrank.symm
      rw [orderKey_array_eq_iff] at h
      exact array_beq_iff.2 ⟨h.1, equalLists_of_map_orderKey_eq hinner h.2⟩
    · obtain ⟨type', es', rfl⟩ := collection_of_rank_eq hrank.symm
      have htype : type.name = type'.name → type = type' := fun hname =>
        Ty.collection.inj (hown _ rfl _ rfl hname)
      obtain ⟨rfl, hkeys⟩ := (orderKey_collection_eq_iff htype).1 h
      rw [collection_beq_iff]
      by_cases hd : type.discipline = .sequence
      · rw [if_pos hd] at hkeys
        rw [hd]
        exact ⟨rfl, by simpa using congrArg List.length hkeys,
          equalLists_of_map_orderKey_eq hinner hkeys⟩
      · rw [if_neg hd] at hkeys
        have hperm := perm_of_sortBy_eq hkeys
        exact ⟨rfl, by simpa using hperm.length_eq,
          matches_of_perm hd hb.keeps hinner hperm⟩
    · obtain ⟨typeName', fs', rfl⟩ := object_of_rank_eq hrank.symm
      rw [orderKey_object_eq_iff] at h
      have hperm := perm_of_sortBy_eq h.2
      refine object_beq_iff.2 ⟨h.1, by simpa [fieldKeys_eq_map] using hperm.length_eq,
        fieldsIn_of_perm hb.keeps (fun f hf g hg => ?_) hperm⟩
      exact hinner f.2 (List.mem_map_of_mem hf) g.2 (List.mem_map_of_mem hg)

/-! ## Equal values have the same place -/

/-- A case-insensitive set. -/
def isCaseless : Value → Bool
  | .collection type _ => type.discipline = .caseless
  | _ => false

theorem NamesApart.components {vs : List Value} (h : NamesApart named? vs) :
    NamesApart (·.ty.component?) vs := by
  have hnamed (v : Value) : ∀ t ∈ v.ty.component?, t ∈ v.named? := by
    intro t ht
    cases v <;> first | exact ht | cases ht
  exact fun x hx y hy hrank s hs t ht => h x hx y hy hrank s (hnamed x s hs) t (hnamed y t ht)

theorem map_orderKey_eq_of_equalLists
    (ih : ∀ a ∈ as, ∀ b ∈ bs, (a == b) = true → a.orderKey = b.orderKey)
    (h : equalLists as bs = true) : as.map orderKey = bs.map orderKey := by
  induction as generalizing bs with
  | nil =>
    cases bs with
    | nil => rfl
    | cons => cases h
  | cons a as ihas =>
    cases bs with
    | nil => cases h
    | cons b bs =>
      rw [equalLists, Bool.and_eq_true] at h
      rw [List.map_cons, List.map_cons, ih a List.mem_cons_self b List.mem_cons_self h.1,
        ihas (fun a ha b hb => ih a (.tail _ ha) b (.tail _ hb)) h.2]

theorem exists_of_searchSorted {key : OrderKey} (h : searchSorted key bs = true) :
    ∃ b ∈ bs, OrderKey.compare key b.orderKey = .eq := by
  induction bs with
  | nil => cases h
  | cons b bs ih =>
    rw [searchSorted] at h
    split at h
    · obtain ⟨c, hc, heq⟩ := ih h
      exact ⟨c, .tail _ hc, heq⟩
    · next heq => exact ⟨b, List.mem_cons_self, heq⟩
    · cases h

theorem nodup_map_orderKey {d : Discipline} (hd : d ≠ .sequence) (hcase : d ≠ .caseless)
    (hnames : NamesApart named? as) (hwell : ∀ a ∈ as, a.WellFormed) (h : d.Keeps as) :
    (as.map orderKey).Nodup := by
  refine List.pairwise_map.2 ?_
  cases d with
  | sequence => exact absurd rfl hd
  | caseless => exact absurd rfl hcase
  | hashed =>
    -- With the key of the earlier one, the later one would be equal to it.
    refine List.Pairwise.imp_of_mem (fun {a b} ha hb hne heq => ?_) h
    rw [beq_of_orderKey_eq (hnames.mono (by simp [ha, hb])) (hwell a ha) heq.symm] at hne
    cases hne
  | sorted =>
    refine List.Pairwise.imp (fun {a b} hlt heq => ?_) h
    rw [Value.compare, heq, OrderKey.compare_self] at hlt
    cases hlt

theorem perm_of_matches {d : Discipline} (hd : d ≠ .sequence) (hcase : d ≠ .caseless)
    (hnames : NamesApart named? (as ++ bs)) (hwell : ∀ a ∈ as, a.WellFormed) (has : d.Keeps as)
    (ih : ∀ a ∈ as, ∀ b ∈ bs, (a == b) = true → a.orderKey = b.orderKey)
    (hlen : as.length = bs.length) (h : Matches as bs d) :
    (as.map orderKey).Perm (bs.map orderKey) := by
  have hnodup := nodup_map_orderKey hd hcase (hnames.mono (by simp +contextual)) hwell has
  have hmem : ∀ a ∈ as, ∃ b ∈ bs, b.orderKey = a.orderKey := by
    intro a ha
    cases d with
    | sequence => exact absurd rfl hd
    | caseless => exact absurd rfl hcase
    | hashed =>
      obtain ⟨b, hb, heq⟩ := h a ha
      exact ⟨b, hb, (ih a ha b hb heq).symm⟩
    | sorted =>
      obtain ⟨b, hb, heq⟩ := exists_of_searchSorted (h a ha)
      have hkey := OrderKey.eq_of_compare_eq hnames.components.injOn
        (over_arrayComponents (by simp [ha])) (over_arrayComponents (by simp [hb])) heq
      exact ⟨b, hb, hkey.symm⟩
  -- As many keys, each once and each among the others: they are the others.
  have hsub : as.map orderKey ⊆ bs.map orderKey := by
    intro key hkey
    obtain ⟨a, ha, rfl⟩ := List.mem_map.1 hkey
    exact List.mem_map.2 (hmem a ha)
  exact (List.subperm_of_subset hnodup hsub).perm_of_length_le (by simp [hlen])

theorem perm_of_fieldsIn {fs gs : List (String × Value)} (hfs : (fs.map (·.1)).Nodup)
    (hgs : (gs.map (·.1)).Nodup)
    (ih : ∀ f ∈ fs, ∀ g ∈ gs, (f.2 == g.2) = true → f.2.orderKey = g.2.orderKey)
    (hlen : fs.length = gs.length) (h : fieldsIn fs gs = true) :
    (fieldKeys fs).Perm (fieldKeys gs) := by
  rw [fieldKeys_eq_map, fieldKeys_eq_map]
  refine (List.subperm_of_subset (List.pairwise_map.2 ?_) fun key hkey => ?_).perm_of_length_le
    (by simp [hlen])
  · refine List.Pairwise.imp (fun hne heq => hne ?_) (List.pairwise_map.1 hfs)
    simp only [OrderKey.tuple.injEq, List.cons.injEq, OrderKey.text.injEq] at heq
    exact heq.1
  · obtain ⟨f, hf, rfl⟩ := List.mem_map.1 hkey
    obtain ⟨w, hw, heq⟩ := fieldsIn_iff.1 h f hf
    have hg := (lookup_field_eq_some_iff hgs).1 hw
    refine List.mem_map.2 ⟨_, hg, ?_⟩
    simp only [ih f hf _ hg heq]

theorem orderKey_eq_of_beq (hnames : NamesApart named? [a, b]) (ha : a.WellFormed)
    (hb : b.WellFormed) (hcase : ∀ x ∈ a.parts, x.isCaseless = false) (h : (a == b) = true) :
    a.orderKey = b.orderKey := by
  induction a using inner_induction generalizing b with
  | step a ih =>
    have hinner : ∀ v ∈ a.inner, ∀ w ∈ b.inner, (v == w) = true → v.orderKey = w.orderKey :=
      fun v hv w hw => ih v hv (hnames.inner_pair hv hw) (ha.inner hv) (hb.inner hw)
        fun x hx => hcase x (mem_parts_of_inner hv hx)
    rcases rank_cases a with hlt | ⟨component, es, rfl⟩ | ⟨type, es, rfl⟩ | ⟨typeName, fs, rfl⟩
    · exact orderKey_eq_of_scalarEqual (beq_of_rank_lt hlt ▸ h)
    · cases b with
      | array component' es' =>
        rw [array_beq_iff] at h
        exact orderKey_array_eq_iff.2 ⟨h.1, map_orderKey_eq_of_equalLists hinner h.2⟩
      | _ => cases h
    · cases b with
      | collection type' es' =>
        obtain ⟨rfl, hlen, hmatch⟩ := collection_beq_iff.1 h
        refine (orderKey_collection_eq_iff fun _ => rfl).2 ⟨rfl, ?_⟩
        by_cases hd : type.discipline = .sequence
        · rw [if_pos hd]
          rw [hd] at hmatch
          exact map_orderKey_eq_of_equalLists hinner hmatch
        · rw [if_neg hd]
          have hcaseless : type.discipline ≠ .caseless := by
            simpa [isCaseless] using hcase _ (mem_parts_self _)
          have hnamesIn : NamesApart named? (es ++ es') := hnames.inner fun w hw => by
            simpa using hw
          refine sortBy_eq_of_perm (OrderKey.linearOn_less hnamesIn.components.injOn)
            (List.forall_mem_map.2 fun v hv => over_arrayComponents (by simp [hv])) ?_
          exact perm_of_matches hd hcaseless hnamesIn (fun v hv => ha.inner hv) ha.keeps hinner
            hlen hmatch
      | _ => cases h
    · cases b with
      | object typeName' fs' =>
        obtain ⟨rfl, hlen, hfields⟩ := object_beq_iff.1 h
        have hnamesIn : NamesApart named? (fs.map (·.2)) := hnames.inner fun w hw =>
          ⟨_, List.mem_cons_self, hw⟩
        refine orderKey_object_eq_iff.2 ⟨rfl, sortBy_eq_of_perm
          (OrderKey.linearOn_less hnamesIn.components.injOn)
          (over_fieldKeys fun w hw => over_arrayComponents hw) ?_⟩
        refine perm_of_fieldsIn ha.keeps hb.keeps (fun f hf g hg => ?_) hlen hfields
        exact hinner f.2 (List.mem_map_of_mem hf) g.2 (List.mem_map_of_mem hg)
      | _ => cases h

/-! ## Order and equality -/

/-- Well formed values of the same place are equal, and equal ones have the same place unless they
hold a case-insensitive set, where the names of types tell them apart. -/
theorem compare_agrees_beq (hnames : NamesApart named? [a, b]) (ha : a.WellFormed)
    (hb : b.WellFormed) :
    (a.compare b = .eq → (a == b) = true) ∧
      ((∀ x ∈ a.parts, x.isCaseless = false) → (a == b) = true → a.compare b = .eq) := by
  constructor
  · intro h
    refine beq_of_orderKey_eq hnames hb ?_
    exact OrderKey.eq_of_compare_eq hnames.components.injOn (over_arrayComponents (by simp))
      (over_arrayComponents (by simp)) h
  · intro hcase h
    rw [Value.compare, orderKey_eq_of_beq hnames ha hb hcase h, OrderKey.compare_self]

/-- A list of enum constants and a text, in a hash set. -/
def redAndText : Value :=
  .collection (.concrete .hashSet) [.list [.enum ⟨colors, 0⟩], .string "red"]

/-- The same set, filled the other way round. -/
def textAndRed : Value :=
  .collection (.concrete .hashSet) [.string "red", .list [.enum ⟨colors, 0⟩]]

theorem compare_agrees_beq_sets :
    (NamesApart named? [redAndText, textAndRed] ∧ redAndText.WellFormed ∧ textAndRed.WellFormed) ∧
      redAndText.compare textAndRed = .eq ∧ (redAndText == textAndRed) = true :=
  have hnames : NamesApart named? [redAndText, textAndRed] := by decide
  have hleft : redAndText.WellFormed := by decide
  have hright : textAndRed.WellFormed := by decide
  have hagrees := compare_agrees_beq hnames hleft hright
  ⟨⟨hnames, hleft, hright⟩, hagrees.2 (by decide) (by decide), hagrees.1 (by decide)⟩

/-- A case-insensitive set of one text. -/
def caselessSet (text : String) : Value :=
  .collection (.concrete .caseInsensitiveSet) [.string text]

/-- Two sets that are equal up to the case of their texts are ordered by those texts, and two
references to types of one name have the same place. -/
theorem compare_disagrees_beq :
    ((caselessSet "Alpha" == caselessSet "ALPHA") = true ∧
        (caselessSet "Alpha").compare (caselessSet "ALPHA") = .gt) ∧
      ((typeRef (.integral .integer) == typeRef (.named "Integer")) = false ∧
        (typeRef (.integral .integer)).compare (typeRef (.named "Integer")) = .eq) := by
  decide

end Value

end Recast
