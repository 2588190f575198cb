/-
What the zone of the context decides.

Some types take from a value nothing but what it has without a zone
(`zoneFree`): the date and the time of day of a local time, the midnight of a
date, anything of a moment with an offset, and an instant itself. Yet the value
is first placed in the zone, and one that is out of reach there is refused. So
two zones agree on it just when it is in reach in both or in neither
(`moveTemporal_eq_iff`), and at the ends of the calendar they do not
(`zones_differ_at_calendar_end`).
-/
import Recast.Proofs.Standard.Moments

namespace Recast

/-- The context with another zone and all else as it is. -/
def Context.inZone (ctx : Context) (zone : Offset) : Context :=
  { ctx with env := { ctx.env with zone } }

namespace Scalar

/-- Pairs of types of which the second takes only what the first has without a zone. -/
def zoneFree : List (Ty × Ty) :=
  [(.date, .localDateTime), (.localDateTime, .date), (.localDateTime, .time), (.dateTime, .date),
   (.dateTime, .time), (.dateTime, .localDateTime), (.dateTime, .instant), (.instant, .instant)]

/-- The value is in reach in both zones or in neither. -/
def ReachAlike (zone zone' : Offset) (v : Value) : Prop := InReach zone v ↔ InReach zone' v

variable {zone zone' : Offset} {v : Value} {t : Ty} {l l' : LocalDateTime} {m m' : DateTime}

theorem zoneFree_target : ∀ p ∈ zoneFree,
    p.2 ∈ Standard.temporalTypes ∧ (p.1 = .date → p.2 ≠ .time) := by decide

theorem part_eq_of_zoneFree (h : StandsFor zone v l m) (h' : StandsFor zone' v l' m')
    (hfree : (v.ty, t) ∈ zoneFree) : part l m t = part l' m' t := by
  cases h with
  | date =>
    cases h'
    obtain rfl : t = .localDateTime := by simpa [zoneFree, Value.ty] using hfree
    rfl
  | localDateTime =>
    cases h'
    obtain rfl | rfl : t = .date ∨ t = .time := by simpa [zoneFree, Value.ty] using hfree
    · rfl
    · rfl
  | dateTime hs =>
    cases h' with
    | dateTime hs' => rw [Option.some_inj.1 (hs.symm.trans hs')]
  | instant =>
    cases h'
    obtain rfl : t = .instant := by simpa [zoneFree, Value.ty] using hfree
    rfl

/-- A value is moved alike in two zones, without need of them, just when it is reached alike. -/
theorem moveTemporal_eq_iff (hfree : (v.ty, t) ∈ zoneFree) :
    moveTemporal zone v t = moveTemporal zone' v t ↔ ReachAlike zone zone' v := by
  obtain ⟨ht, htime⟩ := zoneFree_target _ hfree
  by_cases h : InReach zone v <;> by_cases h' : InReach zone' v
  · obtain ⟨l, m, hl⟩ := exists_standsFor_iff.2 h
    obtain ⟨l', m', hl'⟩ := exists_standsFor_iff.2 h'
    rw [hl.moveTemporal ht htime, hl'.moveTemporal ht htime, part_eq_of_zoneFree hl hl' hfree]
    simp [ReachAlike, h, h']
  · obtain ⟨l, m, hl⟩ := exists_standsFor_iff.2 h
    rw [hl.moveTemporal ht htime, moveTemporal_of_not_inReach h']
    simp [ReachAlike, h, h']
  · obtain ⟨l', m', hl'⟩ := exists_standsFor_iff.2 h'
    rw [hl'.moveTemporal ht htime, moveTemporal_of_not_inReach h]
    simp [ReachAlike, h, h']
  · rw [moveTemporal_of_not_inReach h, moveTemporal_of_not_inReach h']
    simp [ReachAlike, h, h']

end Scalar

namespace Standard

open Scalar

variable {ctx : Context} {zone : Offset} {v : Value} {t : Ty}

theorem map_made_inj {x y : Except ConversionError Value} :
    x.map (Converted.mk · false) = y.map (Converted.mk · false) ↔ x = y := by
  cases x <;> cases y <;> simp [Except.map]

/-- A temporal value is converted alike in two zones, without need of them, just when it is reached
alike. -/
theorem convert_temporal_in_zones (ho : ctx.overrides = []) (tie : TieBreak) (depth : Nat)
    (hv : v.ty ∈ temporalTypes) (hne : v.ty ≠ t) (hfree : (v.ty, t) ∈ zoneFree) :
    registry.convert tie ctx (depth + 1) v t =
        registry.convert tie (ctx.inZone zone) (depth + 1) v t ↔
      ReachAlike ctx.env.zone zone v := by
  have ho' : (ctx.inZone zone).overrides = [] := ho
  have ht := (zoneFree_target _ hfree).1
  rw [convert_temporal ho tie depth hv ht hne, convert_temporal ho' tie depth hv ht hne,
    Option.some_inj, map_made_inj, ← moveTemporal_eq_iff hfree]
  rfl

/-- A number is converted to an instant alike in two zones just when the instant that it counts is
reached alike. -/
theorem convert_number_in_zones (ho : ctx.overrides = []) (tie : TieBreak) (depth : Nat)
    (hv : v.ty ∈ numericTypes) :
    registry.convert tie ctx (depth + 1) v .instant =
        registry.convert tie (ctx.inZone zone) (depth + 1) v .instant ↔
      ∀ n, millisOf v .instant = .ok n → ∀ u, LocalDateTime.ofMillis? n = some u →
        ReachAlike ctx.env.zone zone (.instant u) := by
  have ho' : (ctx.inZone zone).overrides = [] := ho
  have ht : Ty.instant ∈ momentTypes := by decide
  have hmove (u : LocalDateTime) : moveTemporal ctx.env.zone (.instant u) .instant =
      moveTemporal zone (.instant u) .instant ↔ ReachAlike ctx.env.zone zone (.instant u) :=
    moveTemporal_eq_iff (v := .instant u) (show (Ty.instant, Ty.instant) ∈ zoneFree by decide)
  rw [convert_number_moment ho tie depth hv ht, convert_number_moment ho' tie depth hv ht,
    Option.some_inj, map_made_inj]
  cases millisOf v .instant with
  | error e => simp [bind, Except.bind]
  | ok n =>
    cases hu : LocalDateTime.ofMillis? n <;> simp [bind, Except.bind, hu, Context.inZone, hmove]

/-- **What does not need the zone.** In two zones a moment with an offset is converted alike, and so
is a number to a duration. A local time is converted to its date and its time of day, a date to its
midnight, and a number to an instant alike just when it is in reach in both zones or in neither. -/
theorem convert_in_zones_iff (ho : ctx.overrides = []) (tie : TieBreak) (depth : Nat)
    (zone : Offset) :
    let here := registry.convert tie ctx (depth + 1)
    let there := registry.convert tie (ctx.inZone zone) (depth + 1)
    (∀ m : DateTime, ∀ t ∈ [.date, .time, .localDateTime, .instant],
      here (.dateTime m) t = there (.dateTime m) t) ∧
      (∀ l : LocalDateTime, ∀ t ∈ [.date, .time],
        here (.localDateTime l) t = there (.localDateTime l) t ↔
          ReachAlike ctx.env.zone zone (.localDateTime l)) ∧
      (∀ d : Date, here (.date d) .localDateTime = there (.date d) .localDateTime ↔
        ReachAlike ctx.env.zone zone (.date d)) ∧
      ∀ v : Value, v.ty ∈ numericTypes → here v .duration = there v .duration ∧
        (here v .instant = there v .instant ↔
          ∀ n, millisOf v .instant = .ok n → ∀ u, LocalDateTime.ofMillis? n = some u →
            ReachAlike ctx.env.zone zone (.instant u)) := by
  intro here there
  refine ⟨fun m t ht => ?_, fun l t ht => ?_, fun d => ?_, fun v hv => ⟨?_, ?_⟩⟩
  · obtain ⟨hv, hne, hfree⟩ :
        Ty.dateTime ∈ temporalTypes ∧ Ty.dateTime ≠ t ∧ (Ty.dateTime, t) ∈ zoneFree := by
      revert t
      decide
    exact (convert_temporal_in_zones ho tie depth (v := .dateTime m) hv hne hfree).2 Iff.rfl
  · obtain ⟨hv, hne, hfree⟩ : Ty.localDateTime ∈ temporalTypes ∧ Ty.localDateTime ≠ t ∧
        (Ty.localDateTime, t) ∈ zoneFree := by
      revert t
      decide
    exact convert_temporal_in_zones ho tie depth (v := .localDateTime l) hv hne hfree
  · obtain ⟨hv, hne, hfree⟩ : Ty.date ∈ temporalTypes ∧ Ty.date ≠ .localDateTime ∧
        (Ty.date, .localDateTime) ∈ zoneFree := by decide
    exact convert_temporal_in_zones ho tie depth (v := .date d) hv hne hfree
  · have ho' : (ctx.inZone zone).overrides = [] := ho
    exact (convert_number_duration ho tie depth hv).trans
      (convert_number_duration ho' tie depth hv).symm
  · exact convert_number_in_zones ho tie depth hv

/-- Around the end of a year all of them are converted in a zone with seconds as in UTC. -/
theorem convert_in_zones_iff_leap :
    let zone : Offset := ⟨-18123, by decide, by decide⟩
    let here := registry.convert .registryOrder .default 1
    let there := registry.convert .registryOrder (Context.default.inZone zone) 1
    let leap : LocalDateTime := ⟨⟨⟨2016, 12, 31⟩, by decide, by decide⟩,
      ⟨86399, 1500000000, by decide, by decide⟩⟩
    let m : DateTime := ⟨leap, ⟨3600, by decide, by decide⟩⟩
    let millis : Value := .integral ⟨.long, -1, by decide⟩
    Context.default.overrides = [] ∧ here (.dateTime m) .time = there (.dateTime m) .time ∧
      here (.localDateTime leap) .date = there (.localDateTime leap) .date ∧
      here (.date leap.date) .localDateTime = there (.date leap.date) .localDateTime ∧
      here millis .duration = there millis .duration ∧
      here millis .instant = there millis .instant := by
  intro zone here there leap m millis
  have ho : Context.default.overrides = [] := rfl
  obtain ⟨hmoment, hlocal, hdate, hnumber⟩ := convert_in_zones_iff ho .registryOrder 0 zone
  obtain ⟨hduration, hinstant⟩ := hnumber millis (by decide)
  have hleap : Calendar.Covers (leap.seconds - Offset.utc.seconds) ∧
      Calendar.Covers (leap.seconds - zone.seconds) := by decide
  have hmidnight : Calendar.Covers ((LocalDateTime.mk leap.date .midnight).seconds -
        Offset.utc.seconds) ∧
      Calendar.Covers ((LocalDateTime.mk leap.date .midnight).seconds - zone.seconds) := by decide
  have hbefore : Calendar.Covers (-1 + Offset.utc.seconds) ∧
      Calendar.Covers (-1 + zone.seconds) := by decide
  refine ⟨ho, hmoment m .time (by decide),
    (hlocal leap .date (by decide)).2 (iff_of_true hleap.1 hleap.2),
    (hdate leap.date).2 (iff_of_true hmidnight.1 hmidnight.2), hduration, hinstant.2 ?_⟩
  rintro n hn u hu
  cases hn
  have hseconds : u.seconds = -1 := (LocalDateTime.of_ofMillis?_eq_some hu).1
  rw [ReachAlike, InReach, InReach, hseconds]
  exact iff_of_true hbefore.1 hbefore.2

/-- The last second of the calendar has a date in UTC, and none a second west of it; its
milliseconds make an instant in UTC, and none a second east of it. -/
theorem zones_differ_at_calendar_end :
    let last : LocalDateTime := ⟨⟨⟨262142, 12, 31⟩, by decide, by decide⟩,
      ⟨86399, 0, by decide, by decide⟩⟩
    let millis : Integral := ⟨.long, 8210266876799000, by decide⟩
    let west : Context := Context.default.inZone ⟨-1, by decide, by decide⟩
    let east : Context := Context.default.inZone ⟨1, by decide, by decide⟩
    (registry.convert .registryOrder .default 1 (.localDateTime last) .date =
        some (.ok ⟨.date last.date, false⟩) ∧
      registry.convert .registryOrder west 1 (.localDateTime last) .date =
        some (.error (.unsupported .localDateTime .date))) ∧
      registry.convert .registryOrder .default 1 (.integral millis) .instant =
          some (.ok ⟨.instant last, false⟩) ∧
        registry.convert .registryOrder east 1 (.integral millis) .instant =
          some (.error (.outOfRange (.moment last) .instant)) := by
  intro last millis west east
  have ho : Context.default.overrides = [] := rfl
  have howest : west.overrides = [] := rfl
  have hoeast : east.overrides = [] := rfl
  have hshown : (DateTime.mk last .utc).local? = some last := by decide
  have hmillis : LocalDateTime.ofMillis? millis.val = some last := by decide
  have hwest : ¬InReach west.env.zone (.localDateTime last) := by
    show ¬Calendar.Covers _
    decide
  have heast : ¬InReach east.env.zone (.instant last) := by
    show ¬Calendar.Covers _
    decide
  have hdate : Ty.localDateTime ∈ temporalTypes ∧ Ty.date ∈ temporalTypes ∧
      Ty.localDateTime ≠ .date := by decide
  have hhere := convert_long_moment ho .registryOrder 0 (n := millis) rfl
    (show Ty.instant ∈ momentTypes by decide)
  have hthere := convert_long_moment hoeast .registryOrder 0 (n := millis) rfl
    (show Ty.instant ∈ momentTypes by decide)
  simp only [hmillis, moveTemporal_of_not_inReach heast] at hthere
  have hmoved : moveTemporal Offset.utc (.instant last) .instant = .ok (.instant last) :=
    (StandsFor.instant last hshown).moveTemporal (t := .instant) (by decide) (by simp [Value.ty])
  simp only [hmillis] at hhere
  refine ⟨⟨?_, ?_⟩, ?_, hthere⟩
  · exact convert_of_standsFor ho .registryOrder 0
      (StandsFor.localDateTime (m := ⟨last, .utc⟩) rfl hshown) hdate.2.1 hdate.2.2 (by simp)
  · exact convert_of_not_inReach howest .registryOrder 0 hwest hdate.1 hdate.2.1 hdate.2.2
  · exact hhere.trans (congrArg (fun moved => some (moved.map (Converted.mk · false))) hmoved)

end Standard

end Recast
