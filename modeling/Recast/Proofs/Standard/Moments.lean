/-
Dates, local times and moments converted into each other and into milliseconds.

What a temporal value becomes is a part of what it stands for in the zone of the
context (`convert_eq_ok_iff`), and a part with date and time of day stands for
the same again. So the conversion back gives the value back, in every zone
(`convert_moment_back`). A number of milliseconds becomes a part of the moment
so long after 1970, and comes back from it (`convert_millis_back`).

What is out of reach lies within a day of the ends of the calendar: there a
local time has no moment in the zone, or a moment no local time.
-/
import Recast.Proofs.Scalar.Temporal
import Recast.Proofs.Standard.Resolution

namespace Recast.Standard

open Scalar

variable {tie : TieBreak} {ctx : Context} {depth : Nat} {v : Value} {t : Ty} {c : Converted}
variable {l : LocalDateTime} {m : DateTime}

/-! ## Temporal values -/

theorem servedBy_move :
    ∀ s ∈ temporalTypes, ∀ t ∈ temporalTypes, s ≠ t → ServedBy .temporal s t := by decide

theorem convert_temporal (ho : ctx.overrides = []) (tie : TieBreak) (depth : Nat)
    (hv : v.ty ∈ temporalTypes) (ht : t ∈ temporalTypes) (hne : v.ty ≠ t) :
    registry.convert tie ctx (depth + 1) v t =
      some ((moveTemporal ctx.env.zone v t).map (⟨·, false⟩)) := by
  have hi : ⟨.temporal, t, temporalToTemporal⟩ ∈ items := by
    simp [items, temporalItems, ht]
  exact convert_of_servedBy ho tie depth (servedBy_move v.ty hv t ht hne) hi

theorem convert_of_standsFor (ho : ctx.overrides = []) (tie : TieBreak) (depth : Nat)
    (h : StandsFor ctx.env.zone v l m) (ht : t ∈ temporalTypes) (hne : v.ty ≠ t)
    (htime : v.ty = .date → t ≠ .time) :
    registry.convert tie ctx (depth + 1) v t = some (.ok ⟨part l m t, false⟩) := by
  rw [convert_temporal ho tie depth h.ty_mem ht hne, h.moveTemporal ht htime]
  rfl

theorem convert_of_not_inReach (ho : ctx.overrides = []) (tie : TieBreak) (depth : Nat)
    (h : ¬InReach ctx.env.zone v) (hv : v.ty ∈ temporalTypes) (ht : t ∈ temporalTypes)
    (hne : v.ty ≠ t) :
    registry.convert tie ctx (depth + 1) v t = some (.error (outOfReach v t)) := by
  rw [convert_temporal ho tie depth hv ht hne, moveTemporal_of_not_inReach h]
  rfl

/-- A temporal value becomes a part of what it stands for, or nothing. -/
theorem convert_eq_ok_iff (ho : ctx.overrides = []) (hv : v.ty ∈ temporalTypes)
    (ht : t ∈ momentTypes) (hne : v.ty ≠ t) :
    registry.convert tie ctx (depth + 1) v t = some (.ok c) ↔
      ∃ l m, StandsFor ctx.env.zone v l m ∧ c = ⟨part l m t, false⟩ := by
  have htime : v.ty = .date → t ≠ .time := fun _ => (ne_of_mem_momentTypes ht).1
  constructor
  · intro hc
    by_cases h : InReach ctx.env.zone v
    · obtain ⟨l, m, h⟩ := exists_standsFor_iff.2 h
      rw [convert_of_standsFor ho tie depth h (momentTypes_subset ht) hne htime] at hc
      cases hc
      exact ⟨l, m, h, rfl⟩
    · rw [convert_of_not_inReach ho tie depth h hv (momentTypes_subset ht) hne] at hc
      cases hc
  · rintro ⟨l, m, h, rfl⟩
    exact convert_of_standsFor ho tie depth h (momentTypes_subset ht) hne htime

theorem exists_convert_iff (ho : ctx.overrides = []) (tie : TieBreak) (depth : Nat)
    (hv : v.ty ∈ temporalTypes) (ht : t ∈ momentTypes) (hne : v.ty ≠ t) :
    (∃ c, registry.convert tie ctx (depth + 1) v t = some (.ok c)) ↔
      InReach ctx.env.zone v := by
  simp only [convert_eq_ok_iff ho hv ht hne, ← exists_standsFor_iff]
  constructor
  · rintro ⟨-, l, m, h, -⟩
    exact ⟨l, m, h⟩
  · rintro ⟨l, m, h⟩
    exact ⟨_, l, m, h, rfl⟩

/-! ## There and back -/

theorem convert_part_back (ho : ctx.overrides = []) (tie : TieBreak) (depth : Nat)
    (h : StandsFor ctx.env.zone v l m) (hzone : m.offset = ctx.env.zone) (ht : t ∈ momentTypes)
    (hne : v.ty ≠ t) :
    registry.convert tie ctx (depth + 1) (part l m t) v.ty = some (.ok ⟨v, false⟩) := by
  have hty := ty_part l m (momentTypes_subset ht)
  have hpart := standsFor_part ht hzone h.shown
  have hdate : (part l m t).ty = .date → v.ty ≠ .time := by
    rw [hty]
    rintro rfl
    simp [momentTypes] at ht
  have hback := convert_of_standsFor ho tie depth hpart h.ty_mem (by rw [hty]; exact hne.symm) hdate
  rwa [h.part_ty] at hback

/-- **Between local time and moments, and back.** A date, a local time or an instant is converted to
a type with date and time of day just when it is in reach, and the result is converted back to it.
A moment with an offset is converted to an instant just when it is in reach; and the instant, when
it is in reach, to the same moment at the offset of the zone. -/
theorem convert_moment_back (ho : ctx.overrides = []) (tie : TieBreak) (depth : Nat) :
    let convert := registry.convert tie ctx (depth + 1)
    (∀ v : Value, v.ty ∈ [.date, .localDateTime, .instant] → ∀ t ∈ momentTypes, v.ty ≠ t →
      ((∃ c, convert v t = some (.ok c)) ↔ InReach ctx.env.zone v) ∧
        ∀ c, convert v t = some (.ok c) → convert c.value v.ty = some (.ok ⟨v, false⟩)) ∧
      ∀ m : DateTime,
        ((∃ c, convert (.dateTime m) .instant = some (.ok c)) ↔
          InReach ctx.env.zone (.dateTime m)) ∧
        ∀ c, convert (.dateTime m) .instant = some (.ok c) → c.value = .instant m.utc ∧
          ((∃ d, convert c.value .dateTime = some (.ok d)) ↔
            InReach ctx.env.zone (.instant m.utc)) ∧
          ∀ d, convert c.value .dateTime = some (.ok d) →
            d.value = .dateTime ⟨m.utc, ctx.env.zone⟩ := by
  intro convert
  constructor
  · intro v hv t ht hne
    have htemporal : v.ty ∈ temporalTypes ∧ v.ty ≠ .dateTime := by
      simp only [List.mem_cons, List.not_mem_nil, or_false] at hv
      rcases hv with hv | hv | hv <;> simp [temporalTypes, hv]
    refine ⟨exists_convert_iff ho tie depth htemporal.1 ht hne, fun c hc => ?_⟩
    obtain ⟨l, m, h, rfl⟩ := (convert_eq_ok_iff ho htemporal.1 ht hne).1 hc
    exact convert_part_back ho tie depth h (h.offset htemporal.2) ht hne
  · intro m
    have hinstant : Ty.instant ∈ momentTypes ∧ Ty.dateTime ≠ .instant := by decide
    have hdateTime : Ty.dateTime ∈ momentTypes ∧ Ty.instant ≠ .dateTime := by decide
    refine ⟨exists_convert_iff ho tie depth (v := .dateTime m) (momentTypes_subset hdateTime.1)
      hinstant.1 hinstant.2, fun c hc => ?_⟩
    obtain ⟨l, -, ⟨⟩, rfl⟩ := (convert_eq_ok_iff ho (v := .dateTime m)
      (momentTypes_subset hdateTime.1) hinstant.1 hinstant.2).1 hc
    refine ⟨rfl, exists_convert_iff ho tie depth (v := .instant m.utc)
      (momentTypes_subset hinstant.1) hdateTime.1 hdateTime.2, fun d hd => ?_⟩
    obtain ⟨l, -, ⟨⟩, rfl⟩ := (convert_eq_ok_iff ho (v := .instant m.utc)
      (momentTypes_subset hinstant.1) hdateTime.1 hdateTime.2).1 hd
    rfl

/-- A leap second, a date and a moment on another day, in a zone with seconds. -/
theorem convert_moment_back_leap :
    let zone : Offset := ⟨-18123, by decide, by decide⟩
    let ctx : Context := { Context.default with env := { Environment.default with zone } }
    let convert := registry.convert .registryOrder ctx 1
    let leap : LocalDateTime := ⟨⟨⟨2016, 12, 31⟩, by decide, by decide⟩,
      ⟨86399, 1500000000, by decide, by decide⟩⟩
    let m : DateTime := ⟨leap, ⟨3600, by decide, by decide⟩⟩
    ctx.overrides = [] ∧
      (∃ c, convert (.localDateTime leap) .dateTime = some (.ok c) ∧
        convert c.value .localDateTime = some (.ok ⟨.localDateTime leap, false⟩)) ∧
      (∃ c, convert (.date leap.date) .instant = some (.ok c) ∧
        convert c.value .date = some (.ok ⟨.date leap.date, false⟩)) ∧
      (∃ c, convert (.instant leap) .localDateTime = some (.ok c) ∧
        convert c.value .instant = some (.ok ⟨.instant leap, false⟩)) ∧
      ∃ c d, convert (.dateTime m) .instant = some (.ok c) ∧
        convert c.value .dateTime = some (.ok d) ∧ d.value = .dateTime ⟨leap, zone⟩ := by
  intro zone ctx convert leap m
  have ho : ctx.overrides = [] := rfl
  obtain ⟨hback, hmoment⟩ := convert_moment_back ho .registryOrder 0
  obtain ⟨hlocal, hdate, hinstant, hdateTime⟩ : Calendar.Covers (leap.seconds - zone.seconds) ∧
      Calendar.Covers ((LocalDateTime.mk leap.date .midnight).seconds - zone.seconds) ∧
      Calendar.Covers (leap.seconds + zone.seconds) ∧
      Calendar.Covers (leap.seconds + m.offset.seconds) := by decide
  have hthere {v : Value} {t : Ty} (hv : v.ty ∈ [.date, .localDateTime, .instant])
      (ht : t ∈ momentTypes) (hne : v.ty ≠ t) (hreach : InReach zone v) :
      ∃ c, convert v t = some (.ok c) ∧ convert c.value v.ty = some (.ok ⟨v, false⟩) := by
    obtain ⟨hiff, hundo⟩ := hback v hv t ht hne
    obtain ⟨c, hc⟩ := hiff.2 hreach
    exact ⟨c, hc, hundo c hc⟩
  obtain ⟨c, hc⟩ := (hmoment m).1.2 hdateTime
  obtain ⟨-, hiff, hzone⟩ := (hmoment m).2 c hc
  obtain ⟨d, hd⟩ := hiff.2 hinstant
  exact ⟨ho, hthere (v := .localDateTime leap) (by decide) (by decide) (by decide) hlocal,
    hthere (v := .date leap.date) (by decide) (by decide) (by decide) hdate,
    hthere (v := .instant leap) (by decide) (by decide) (by decide) hinstant,
    c, d, hc, hd, hzone d hd⟩

/-! ## Milliseconds -/

theorem servedBy_millis :
    (∀ s ∈ numericTypes, ∀ t ∈ .duration :: momentTypes, ServedBy .number s t) ∧
      (∀ s ∈ temporalTypes, ServedBy .temporal s (.integral .long)) ∧
      ServedBy .duration .duration (.integral .long) := by
  decide +kernel

theorem convert_number_duration (ho : ctx.overrides = []) (tie : TieBreak) (depth : Nat)
    (hv : v.ty ∈ numericTypes) : registry.convert tie ctx (depth + 1) v .duration =
      some ((millisOf v .duration >>= fun n =>
        match Span.of? (n * 1000000) with
        | some s => .ok (.duration s)
        | none => .error (.outOfRange (.integer n) .duration)).map (⟨·, false⟩)) := by
  have hi : ⟨.number, .duration, millisToTemporal⟩ ∈ items := by simp [items, temporalItems]
  rw [convert_of_servedBy ho tie depth (servedBy_millis.1 v.ty hv .duration (by simp)) hi]
  rfl

theorem convert_number_moment (ho : ctx.overrides = []) (tie : TieBreak) (depth : Nat)
    (hv : v.ty ∈ numericTypes) (ht : t ∈ momentTypes) :
    registry.convert tie ctx (depth + 1) v t =
      some ((millisOf v t >>= fun n =>
        match LocalDateTime.ofMillis? n with
        | some m => moveTemporal ctx.env.zone (.instant m) t
        | none => .error (.outOfRange (.integer n) t)).map (⟨·, false⟩)) := by
  have hne := ne_of_mem_momentTypes ht
  have hi : ⟨.number, t, millisToTemporal⟩ ∈ items := by
    simp [items, temporalItems, momentTypes_subset ht, hne]
  rw [convert_of_servedBy ho tie depth (servedBy_millis.1 v.ty hv t (by simp [ht])) hi]
  show some (Except.map _ (millisOf v t >>= fun n => if t = .duration then _ else _)) = _
  simp only [if_neg hne.2]
  rfl

theorem convert_to_long (ho : ctx.overrides = []) (tie : TieBreak) (depth : Nat) {n : Integral}
    (hn : n.width = .long) (hv : v.ty ∈ .duration :: temporalTypes)
    (hmillis : millis? ctx.env.zone v = some n.val) :
    registry.convert tie ctx (depth + 1) v (.integral .long) =
      some (.ok ⟨.integral n, false⟩) := by
  have hitem : ∃ general, ServedBy general v.ty (.integral .long) ∧
      ⟨general, .integral .long, temporalToMillis⟩ ∈ items := by
    rcases List.mem_cons.1 hv with hduration | htemporal
    · exact ⟨.duration, hduration ▸ servedBy_millis.2.2, by simp [items, temporalItems]⟩
    · exact ⟨.temporal, servedBy_millis.2.1 _ htemporal, by simp [items, temporalItems]⟩
  obtain ⟨general, hserved, hi⟩ := hitem
  rw [convert_of_servedBy ho tie depth hserved hi]
  show some (Except.map _ (expect (millis? ctx.env.zone v) v _ >>= Numeric.integralValue .long)) = _
  have hvalue : Integral.ofInt? .long n.val = some n := Integral.ofInt?_eq_some.2 ⟨hn, rfl⟩
  rw [hmillis]
  show some (Except.map _ (Numeric.integralValue .long n.val)) = _
  rw [Numeric.integralValue, hvalue]
  rfl

/-- The milliseconds are converted to a value of the type, and the value back to them. -/
def MillisComeBack (tie : TieBreak) (ctx : Context) (depth : Nat) (n : Integral) (t : Ty) : Prop :=
  ∃ c, registry.convert tie ctx (depth + 1) (.integral n) t = some (.ok c) ∧
    registry.convert tie ctx (depth + 1) c.value (.integral .long) = some (.ok ⟨.integral n, false⟩)

/-- The value is too large or too small for the type. -/
def Exceeds (tie : TieBreak) (ctx : Context) (depth : Nat) (v : Value) (t : Ty) : Prop :=
  ∃ e, registry.convert tie ctx (depth + 1) v t = some (.error (.outOfRange e t))

theorem numeric_of_long {n : Integral} (hn : n.width = .long) :
    (Value.integral n).ty ∈ numericTypes := by
  simp [Value.ty, hn, numericTypes]

theorem convert_long_moment (ho : ctx.overrides = []) (tie : TieBreak) (depth : Nat) {n : Integral}
    (hn : n.width = .long) (ht : t ∈ momentTypes) :
    registry.convert tie ctx (depth + 1) (.integral n) t =
      some (match LocalDateTime.ofMillis? n.val with
        | some u => (moveTemporal ctx.env.zone (.instant u) t).map (⟨·, false⟩)
        | none => .error (.outOfRange (.integer n.val) t)) := by
  rw [convert_number_moment ho tie depth (numeric_of_long hn) ht, millisOf_long hn]
  simp only [bind, Except.bind]
  cases LocalDateTime.ofMillis? n.val <;> rfl

theorem convert_long_duration (ho : ctx.overrides = []) (tie : TieBreak) (depth : Nat)
    {n : Integral} (hn : n.width = .long) :
    registry.convert tie ctx (depth + 1) (.integral n) .duration =
      some (match Span.of? (n.val * 1000000) with
        | some s => .ok ⟨.duration s, false⟩
        | none => .error (.outOfRange (.integer n.val) .duration)) := by
  rw [convert_number_duration ho tie depth (numeric_of_long hn), millisOf_long hn]
  simp only [bind, Except.bind]
  cases Span.of? (n.val * 1000000) <;> rfl

theorem millisComeBack_moment (ho : ctx.overrides = []) (tie : TieBreak) (depth : Nat)
    {n : Integral} (hn : n.width = .long) (ht : t ∈ momentTypes)
    (hutc : Calendar.Covers (n.val / 1000))
    (hlocal : Calendar.Covers (n.val / 1000 + ctx.env.zone.seconds)) :
    MillisComeBack tie ctx depth n t := by
  obtain ⟨u, hu⟩ := Option.isSome_iff_exists.1 (LocalDateTime.isSome_ofMillis?_iff.2 hutc)
  obtain ⟨hseconds, hmillis⟩ := LocalDateTime.of_ofMillis?_eq_some hu
  rw [← hseconds] at hlocal
  obtain ⟨l, m, h⟩ := exists_standsFor_iff.2 (show InReach ctx.env.zone (.instant u) from hlocal)
  have hzone := h.offset (by simp [Value.ty])
  have hmove := h.moveTemporal (momentTypes_subset ht) (by simp [Value.ty])
  have hcount := millis?_part ht hzone h.shown
  have hty : (part l m t).ty ∈ .duration :: temporalTypes :=
    List.mem_cons_of_mem _ (standsFor_part ht hzone h.shown).ty_mem
  cases h
  refine ⟨⟨part l ⟨u, ctx.env.zone⟩ t, false⟩, ?_,
    convert_to_long ho tie depth hn hty (hmillis ▸ hcount)⟩
  rw [convert_long_moment ho tie depth hn ht]
  simp only [hu, hmove]
  rfl

/-- Milliseconds are too large or too small where there is no such instant, or it has no local
time. -/
theorem exceeds_moment (ho : ctx.overrides = []) (tie : TieBreak) (depth : Nat) {n : Integral}
    (hn : n.width = .long) (ht : t ∈ momentTypes)
    (h : ¬(Calendar.Covers (n.val / 1000) ∧
      Calendar.Covers (n.val / 1000 + ctx.env.zone.seconds))) :
    Exceeds tie ctx depth (.integral n) t := by
  have hconvert := convert_long_moment ho tie depth hn ht
  cases hu : LocalDateTime.ofMillis? n.val with
  | none =>
    simp only [hu] at hconvert
    exact ⟨_, hconvert⟩
  | some u =>
    have hutc := LocalDateTime.isSome_ofMillis?_iff.1 (Option.isSome_iff_exists.2 ⟨u, hu⟩)
    have hout : ¬InReach ctx.env.zone (.instant u) := by
      rw [InReach, (LocalDateTime.of_ofMillis?_eq_some hu).1]
      exact fun hlocal => h ⟨hutc, hlocal⟩
    simp only [hu, moveTemporal_of_not_inReach hout] at hconvert
    exact ⟨_, hconvert⟩

/-- **Milliseconds to time and back.** A long becomes an instant, a moment or a local time, and
comes back from it, just when the calendar covers its second both in UTC and in the zone; and a
duration unless it is the least long. Else it is out of range. -/
theorem convert_millis_back (ho : ctx.overrides = []) (tie : TieBreak) (depth : Nat) {n : Integral}
    (hn : n.width = .long) :
    (∀ t ∈ momentTypes,
      (Calendar.Covers (n.val / 1000) ∧ Calendar.Covers (n.val / 1000 + ctx.env.zone.seconds) →
        MillisComeBack tie ctx depth n t) ∧
      (¬(Calendar.Covers (n.val / 1000) ∧
          Calendar.Covers (n.val / 1000 + ctx.env.zone.seconds)) →
        Exceeds tie ctx depth (.integral n) t)) ∧
      (n.val ≠ Width.long.min → MillisComeBack tie ctx depth n .duration) ∧
      (n.val = Width.long.min → Exceeds tie ctx depth (.integral n) .duration) := by
  refine ⟨fun t ht => ⟨fun h => millisComeBack_moment ho tie depth hn ht h.1 h.2,
    exceeds_moment ho tie depth hn ht⟩, ?_⟩
  have hconvert := convert_long_duration ho tie depth hn
  have hholds : Width.long.Holds n.val := hn ▸ n.holds
  simp only [Width.Holds, Width.min, Width.max, Width.bits] at hholds
  constructor
  · intro hne
    simp only [Width.min, Width.bits] at hne
    obtain ⟨s, hs⟩ := Option.isSome_iff_exists.1
      (Span.isSome_of?_millis_iff.2 (by omega : n.val.natAbs < 2 ^ 63))
    rw [hs] at hconvert
    have hcount : millis? ctx.env.zone (.duration s) = some n.val :=
      congrArg some (Span.millis_of_of?_eq_some hs)
    exact ⟨_, hconvert, convert_to_long ho tie depth hn (by simp [Value.ty]) hcount⟩
  · intro hmin
    have hspan : Span.of? (n.val * 1000000) = none := by
      rw [hmin]
      decide
    rw [hspan] at hconvert
    exact ⟨_, hconvert⟩

/-- The last millisecond before 1970 comes back in a zone with seconds; the least long is out of
range both for moments and for durations. -/
theorem convert_millis_back_before_1970 :
    let ctx : Context := { Context.default with
      env := { Environment.default with zone := ⟨-18123, by decide, by decide⟩ } }
    let last : Integral := ⟨.long, -1, by decide⟩
    let least : Integral := ⟨.long, Width.long.min, by decide⟩
    ctx.overrides = [] ∧ last.width = .long ∧ least.width = .long ∧
      MillisComeBack .registryOrder ctx 0 last .instant ∧
      MillisComeBack .registryOrder ctx 0 last .dateTime ∧
      MillisComeBack .registryOrder ctx 0 last .localDateTime ∧
      MillisComeBack .registryOrder ctx 0 last .duration ∧
      Exceeds .registryOrder ctx 0 (.integral least) .localDateTime ∧
      Exceeds .registryOrder ctx 0 (.integral least) .duration := by
  intro ctx last least
  have ho : ctx.overrides = [] := rfl
  have hlast : last.width = .long := rfl
  have hleast : least.width = .long := rfl
  obtain ⟨hmoment, hduration, -⟩ := convert_millis_back ho .registryOrder 0 hlast
  obtain ⟨hfar, -, hlong⟩ := convert_millis_back ho .registryOrder 0 hleast
  have hback {t : Ty} (ht : t ∈ momentTypes) := (hmoment t ht).1 (by decide)
  exact ⟨ho, hlast, hleast, hback (by decide), hback (by decide), hback (by decide),
    hduration (by decide), (hfar .localDateTime (by decide)).2 (by decide), hlong rfl⟩

end Recast.Standard
