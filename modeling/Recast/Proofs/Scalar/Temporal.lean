/-
What a temporal value stands for in a zone.

A date, a local time or a moment stands for a local time together with a moment
that shows it (`StandsFor`). There is such a pair where the calendar goes on
(`exists_standsFor_iff`), and then the value is moved to a type by taking the
part of the pair that the type keeps (`StandsFor.moveTemporal`); else it is
refused (`moveTemporal_of_not_inReach`). A part with both date and time of day
stands for the pair that it was taken from (`standsFor_part`), so nothing is
lost on the way to it.
-/
import Recast.Proofs.Scalar.Typing
import Recast.Proofs.Time.Seconds
import Recast.Standard

namespace Recast.Scalar

/-- The value stands for a local time and a moment that shows it. One that has no offset is taken at
that of the zone, and a date at its midnight. -/
inductive StandsFor (zone : Offset) : Value → LocalDateTime → DateTime → Prop
  | date (x : Date) {m : DateTime} (offset : m.offset = zone)
      (shown : m.local? = some ⟨x, .midnight⟩) : StandsFor zone (.date x) ⟨x, .midnight⟩ m
  | localDateTime {l : LocalDateTime} {m : DateTime} (offset : m.offset = zone)
      (shown : m.local? = some l) : StandsFor zone (.localDateTime l) l m
  | dateTime {l : LocalDateTime} {m : DateTime} (shown : m.local? = some l) :
      StandsFor zone (.dateTime m) l m
  | instant (u : LocalDateTime) {l : LocalDateTime}
      (shown : (DateTime.mk u zone).local? = some l) : StandsFor zone (.instant u) l ⟨u, zone⟩

/-- The calendar covers both the value and what it is moved to: a local time in UTC, a moment where
it is shown. -/
def InReach (zone : Offset) : Value → Prop
  | .date x => Calendar.Covers ((LocalDateTime.mk x .midnight).seconds - zone.seconds)
  | .localDateTime l => Calendar.Covers (l.seconds - zone.seconds)
  | .dateTime m => Calendar.Covers (m.utc.seconds + m.offset.seconds)
  | .instant m => Calendar.Covers (m.seconds + zone.seconds)
  | _ => False

/-- How a value out of reach is refused. -/
def outOfReach (v : Value) (t : Ty) : ConversionError :=
  match v with
  | .dateTime m => .outOfRange (.moment m.utc) t
  | .instant m => .outOfRange (.moment m) t
  | v => unsupported v t

/-- The value of a temporal type that a local time and a moment have for a part. -/
def part (l : LocalDateTime) (m : DateTime) : Ty → Value
  | .date => .date l.date
  | .localDateTime => .localDateTime l
  | .dateTime => .dateTime m
  | .time => .time l.time
  | _ => .instant m.utc

/-- The types that have both a date and a time of day. -/
def momentTypes : List Ty := [.localDateTime, .dateTime, .instant]

variable {zone : Offset} {v : Value} {t : Ty} {l : LocalDateTime} {m : DateTime}

theorem mem_temporalTypes : t ∈ Standard.temporalTypes ↔
    t = .date ∨ t = .localDateTime ∨ t = .dateTime ∨ t = .time ∨ t = .instant := by
  simp [Standard.temporalTypes]

theorem mem_momentTypes : t ∈ momentTypes ↔ t = .localDateTime ∨ t = .dateTime ∨ t = .instant := by
  simp [momentTypes]

theorem ne_of_mem_momentTypes (ht : t ∈ momentTypes) : t ≠ .time ∧ t ≠ .duration := by
  constructor <;> rintro rfl <;> simp [momentTypes] at ht

theorem momentTypes_subset : momentTypes ⊆ Standard.temporalTypes := by decide

theorem ty_part (l : LocalDateTime) (m : DateTime) (ht : t ∈ Standard.temporalTypes) :
    (part l m t).ty = t := by
  rcases mem_temporalTypes.1 ht with rfl | rfl | rfl | rfl | rfl <;> rfl

/-! ## What a value stands for -/

theorem StandsFor.shown (h : StandsFor zone v l m) : m.local? = some l := by
  cases h <;> assumption

theorem StandsFor.ty_mem (h : StandsFor zone v l m) : v.ty ∈ Standard.temporalTypes := by
  cases h <;> simp [Standard.temporalTypes, Value.ty]

theorem StandsFor.offset (h : StandsFor zone v l m) (hv : v.ty ≠ .dateTime) : m.offset = zone := by
  cases h with
  | dateTime => exact absurd rfl hv
  | instant => rfl
  | _ => assumption

theorem StandsFor.part_ty (h : StandsFor zone v l m) : part l m v.ty = v := by
  cases h <;> rfl

/-- Parts that have a date and a time of day stand for the whole. -/
theorem standsFor_part (ht : t ∈ momentTypes) (hzone : m.offset = zone)
    (hshown : m.local? = some l) : StandsFor zone (part l m t) l m := by
  subst hzone
  rcases mem_momentTypes.1 ht with rfl | rfl | rfl
  · exact .localDateTime rfl hshown
  · exact .dateTime hshown
  · exact .instant m.utc hshown

theorem exists_standsFor_iff : (∃ l m, StandsFor zone v l m) ↔ InReach zone v := by
  have hplace (l : LocalDateTime) : Calendar.Covers (l.seconds - zone.seconds) ↔
      ∃ m : DateTime, m.offset = zone ∧ m.local? = some l := by
    simp only [← DateTime.isSome_ofLocal?_iff, Option.isSome_iff_exists,
      DateTime.ofLocal?_eq_some_iff]
  have hshow (m : DateTime) : Calendar.Covers (m.utc.seconds + m.offset.seconds) ↔
      ∃ l, m.local? = some l := by
    rw [← DateTime.isSome_local?_iff, Option.isSome_iff_exists]
  cases v with
  | date x =>
    rw [InReach, hplace]
    exact ⟨fun ⟨_, m, .date _ ho hs⟩ => ⟨m, ho, hs⟩, fun ⟨m, ho, hs⟩ => ⟨_, m, .date x ho hs⟩⟩
  | localDateTime l =>
    rw [InReach, hplace]
    exact ⟨fun ⟨_, m, .localDateTime ho hs⟩ => ⟨m, ho, hs⟩,
      fun ⟨m, ho, hs⟩ => ⟨l, m, .localDateTime ho hs⟩⟩
  | dateTime m =>
    rw [InReach, hshow]
    exact ⟨fun ⟨l, _, .dateTime hs⟩ => ⟨l, hs⟩, fun ⟨l, hs⟩ => ⟨l, m, .dateTime hs⟩⟩
  | instant u =>
    rw [InReach, hshow ⟨u, zone⟩]
    exact ⟨fun ⟨l, _, .instant _ hs⟩ => ⟨l, hs⟩, fun ⟨l, hs⟩ => ⟨l, _, .instant u hs⟩⟩
  | _ =>
    refine ⟨?_, False.elim⟩
    rintro ⟨l, m, h⟩
    cases h

/-! ## Moving -/

theorem StandsFor.placed (h : StandsFor zone v l m) : placed zone v t = .ok (l, m) := by
  cases h with
  | date x ho hs =>
    show (expect (DateTime.ofLocal? ⟨x, .midnight⟩ zone) _ _ >>= _) = _
    rw [DateTime.ofLocal?_eq_some_iff.2 ⟨ho, hs⟩]
    rfl
  | localDateTime ho hs =>
    show (expect (DateTime.ofLocal? l zone) _ _ >>= _) = _
    rw [DateTime.ofLocal?_eq_some_iff.2 ⟨ho, hs⟩]
    rfl
  | dateTime hs =>
    show (localOf m t >>= _) = _
    rw [localOf, hs]
    rfl
  | instant u hs =>
    show (localOf ⟨u, zone⟩ t >>= _) = _
    rw [localOf, hs]
    rfl

theorem placed_of_not_inReach (h : ¬InReach zone v) :
    placed zone v t = .error (outOfReach v t) := by
  have hplace {l : LocalDateTime} (h : ¬Calendar.Covers (l.seconds - zone.seconds)) :
      DateTime.ofLocal? l zone = none := by
    rwa [← DateTime.isSome_ofLocal?_iff, Option.not_isSome_iff_eq_none] at h
  have hshow {m : DateTime} (h : ¬Calendar.Covers (m.utc.seconds + m.offset.seconds)) :
      m.local? = none := by
    rwa [← DateTime.isSome_local?_iff, Option.not_isSome_iff_eq_none] at h
  cases v with
  | date x =>
    show (expect (DateTime.ofLocal? ⟨x, .midnight⟩ zone) _ _ >>= _) = _
    rw [hplace h]
    rfl
  | localDateTime l =>
    show (expect (DateTime.ofLocal? l zone) _ _ >>= _) = _
    rw [hplace h]
    rfl
  | dateTime m =>
    show (localOf m t >>= _) = _
    rw [localOf, hshow h]
    rfl
  | instant u =>
    show (localOf ⟨u, zone⟩ t >>= _) = _
    rw [localOf, hshow (m := ⟨u, zone⟩) h]
    rfl
  | _ => rfl

/-- A value in reach becomes a part of what it stands for. -/
theorem StandsFor.moveTemporal (h : StandsFor zone v l m) (ht : t ∈ Standard.temporalTypes)
    (htime : v.ty = .date → t ≠ .time) : moveTemporal zone v t = .ok (part l m t) := by
  rw [Scalar.moveTemporal, h.placed]
  rcases mem_temporalTypes.1 ht with rfl | rfl | rfl | rfl | rfl
  case inr.inr.inr.inl =>
    cases h with
    | date => exact absurd rfl (htime rfl)
    | _ => rfl
  all_goals rfl

theorem moveTemporal_of_not_inReach (h : ¬InReach zone v) :
    moveTemporal zone v t = .error (outOfReach v t) := by
  rw [moveTemporal, placed_of_not_inReach h]
  rfl

/-! ## Milliseconds -/

theorem millis?_part (ht : t ∈ momentTypes) (hzone : m.offset = zone)
    (hshown : m.local? = some l) : millis? zone (part l m t) = some m.utc.millis := by
  rcases mem_momentTypes.1 ht with rfl | rfl | rfl
  · show (DateTime.ofLocal? l zone).map (·.utc.millis) = _
    rw [DateTime.ofLocal?_eq_some_iff.2 ⟨hzone, hshown⟩]
    rfl
  · rfl
  · rfl

theorem millisOf_long {n : Integral} (hn : n.width = .long) (t : Ty) :
    millisOf (.integral n) t = .ok n.val :=
  if_pos (hn ▸ n.holds : Width.long.Holds n.val)

end Recast.Scalar
