/-
Moments as seconds and milliseconds since 1970, and spans as milliseconds.

The seconds that lie in the calendar are an interval, `Calendar.Covers`. There
is a moment at each of them (`ofSeconds?_eq_some_iff`, `isSome_ofSeconds?_iff`),
and going ahead from a moment ends at one just when the second there is covered
(`isSome_ahead?_iff`). So local time and UTC can be told from each other except
at the two ends of the calendar.
-/
import Recast.Proofs.Time.Moment
import Recast.Proofs.Time.Text
import Recast.Time.Span

namespace Recast

/-- A second since 1970 is one of a day of the calendar. -/
def Calendar.Covers (second : Int) : Prop :=
  Civil.newYear (-262143) ≤ second / 86400 ∧ second / 86400 < Civil.newYear 262143

instance (second : Int) : Decidable (Calendar.Covers second) :=
  inferInstanceAs (Decidable (_ ∧ _))

theorem Date.isSome_ofCivil?_iff {c : Civil} (h : c.Exists) : (ofCivil? c).isSome ↔
    Civil.newYear (-262143) ≤ c.days ∧ c.days < Civil.newYear 262143 := by
  rw [← h.inCalendar_iff]
  simp [ofCivil?, h]

namespace LocalDateTime

variable {m : LocalDateTime} {second shift millis : Int} {nano : Nat}

/-- There is a moment at a second and nanoseconds exactly when it has them. -/
theorem ofSeconds?_eq_some_iff :
    ofSeconds? second nano = some m ↔ m.seconds = second ∧ m.time.nano = nano := by
  constructor
  · intro h
    unfold ofSeconds? at h
    split at h
    · next date time hdate htime =>
      cases h
      have hdays : date.days = second / 86400 := by
        rw [Date.ofCivil?_eq_some hdate, Civil.days_ofDays]
      obtain ⟨hseconds, hnano⟩ := Clock.of?_eq_some_iff.1 htime
      refine ⟨?_, hnano.symm⟩
      show date.days * 86400 + (time.seconds : Int) = second
      omega
    · cases h
  · rintro ⟨rfl, rfl⟩
    have hlt := m.time.seconds_lt
    have hday : m.seconds / 86400 = m.date.days := by
      unfold seconds
      omega
    have hdate : Date.ofDays? (m.seconds / 86400) = some m.date := by
      rw [hday, Date.ofDays?, Civil.ofDays_days m.date.exist, Date.ofCivil?_toCivil]
    have htime : Clock.of? (m.seconds % 86400).toNat m.time.nano = some m.time := by
      refine Clock.of?_eq_some_iff.2 ⟨?_, rfl⟩
      unfold seconds
      omega
    unfold ofSeconds?
    rw [hdate, htime]

/-- A covered second has a moment for all nanoseconds there are. -/
theorem isSome_ofSeconds?_iff (hnano : nano < 2000000000) :
    (ofSeconds? second nano).isSome ↔ Calendar.Covers second := by
  have htime : Clock.of? (second % 86400).toNat nano =
      some ⟨(second % 86400).toNat, nano, by omega, hnano⟩ :=
    Clock.of?_eq_some_iff.2 ⟨rfl, rfl⟩
  have hdate := Date.isSome_ofCivil?_iff (Civil.exists_ofDays (second / 86400))
  rw [Civil.days_ofDays] at hdate
  unfold ofSeconds?
  rw [htime, Calendar.Covers, ← hdate, Date.ofDays?]
  cases Date.ofCivil? (Civil.ofDays (second / 86400)) <;> simp

/-- Ahead of a moment there is another one where the calendar goes on. -/
theorem isSome_ahead?_iff : (m.ahead? shift).isSome ↔ Calendar.Covers (m.seconds + shift) := by
  have hday : (m.seconds + shift) / 86400 =
      m.date.days + (m.time.seconds + shift) / 86400 := by
    unfold seconds
    omega
  have hdate := Date.isSome_ofCivil?_iff (m.exists_wallAhead shift)
  rw [wallAhead_date, Civil.days_ofDays] at hdate
  rw [ahead?, Option.isSome_map, wallAhead_date, hdate, Calendar.Covers, hday]

/-! ## Milliseconds -/

/-- A moment made from milliseconds is at their second, and has just these milliseconds. -/
theorem of_ofMillis?_eq_some (h : ofMillis? millis = some m) :
    m.seconds = millis / 1000 ∧ m.millis = millis := by
  obtain ⟨hseconds, hnano⟩ := ofSeconds?_eq_some_iff.1 h
  refine ⟨hseconds, ?_⟩
  rw [LocalDateTime.millis, hseconds, hnano]
  omega

theorem isSome_ofMillis?_iff : (ofMillis? millis).isSome ↔ Calendar.Covers (millis / 1000) :=
  isSome_ofSeconds?_iff (by omega)

end LocalDateTime

namespace DateTime

theorem isSome_local?_iff {m : DateTime} :
    m.local?.isSome ↔ Calendar.Covers (m.utc.seconds + m.offset.seconds) :=
  LocalDateTime.isSome_ahead?_iff

theorem isSome_ofLocal?_iff {l : LocalDateTime} {o : Offset} :
    (ofLocal? l o).isSome ↔ Calendar.Covers (l.seconds - o.seconds) := by
  rw [ofLocal?, Option.isSome_map, LocalDateTime.isSome_ahead?_iff, ← Int.sub_eq_add_neg]

end DateTime

namespace Span

variable {s : Span} {millis : Int}

theorem millis_of_of?_eq_some (h : of? (millis * 1000000) = some s) : s.millis = millis := by
  unfold of? at h
  split at h
  · cases h
    exact Int.mul_tdiv_cancel millis (by decide)
  · cases h

theorem isSome_of?_millis_iff : (of? (millis * 1000000)).isSome ↔ millis.natAbs < 2 ^ 63 := by
  unfold of?
  split <;> simp only [Option.isSome_some, Option.isSome_none, Bool.false_eq_true, true_iff,
    false_iff] <;> omega

end Span

end Recast
