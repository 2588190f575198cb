/-
What a clock shows that is ahead, and back again.

The shown date is that of the day the clock has come to (`wallAhead_date`), so
it always exists. Going ahead and going back by the same number of seconds are
inverse (`ahead?_eq_some_iff`); for a moment at an offset this says that a local
time is placed at it exactly when a clock there shows that local time
(`DateTime.ofLocal?_eq_some_iff`).
-/
import Recast.Proofs.Time.Calendar
import Recast.Time.Moment

namespace Recast

theorem Date.ofCivil?_eq_some_iff {c : Civil} {d : Date} :
    Date.ofCivil? c = some d ↔ d.toCivil = c :=
  ⟨Date.ofCivil?_eq_some, fun h => h ▸ Date.ofCivil?_toCivil d⟩

theorem WallTime.ext_parts {w w' : WallTime} (hdate : w.date = w'.date)
    (hseconds : w.time.seconds = w'.time.seconds) (hnano : w.time.nano = w'.time.nano) :
    w = w' := by
  obtain ⟨date, seconds, nano, _, _⟩ := w
  obtain ⟨date', seconds', nano', _, _⟩ := w'
  cases hdate
  cases hseconds
  cases hnano
  rfl

namespace LocalDateTime

variable {m l : LocalDateTime} {shift : Int}

/-- The shown date is that of its day, also within the same day. -/
theorem wallAhead_date (m : LocalDateTime) (shift : Int) : (m.wallAhead shift).date =
    Civil.ofDays (m.date.days + (m.time.seconds + shift) / 86400) := by
  simp only [wallAhead]
  split
  · next hsame => rw [hsame, Int.add_zero, Civil.ofDays_days m.date.exist]
  · rfl

theorem exists_wallAhead (m : LocalDateTime) (shift : Int) : (m.wallAhead shift).date.Exists := by
  rw [wallAhead_date]
  exact Civil.exists_ofDays _

theorem ahead?_eq_some : m.ahead? shift = some l ↔ m.wallAhead shift = l.toWall := by
  obtain ⟨date, time⟩ := l
  simp only [ahead?, Option.map_eq_some_iff, Date.ofCivil?_eq_some_iff, toWall]
  constructor
  · rintro ⟨d, hd, heq⟩
    cases heq
    rw [hd]
  · intro h
    rw [h]
    exact ⟨date, rfl, rfl⟩

theorem wallAhead_neg (h : m.wallAhead shift = l.toWall) : l.wallAhead (-shift) = m.toWall := by
  have hdate : l.date.days = m.date.days + (m.time.seconds + shift) / 86400 := by
    rw [show l.date.toCivil = (m.wallAhead shift).date by rw [h]; rfl, wallAhead_date,
      Civil.days_ofDays]
  obtain ⟨hseconds, hnano⟩ :
      l.time.seconds = ((m.time.seconds + shift) % 86400).toNat ∧ l.time.nano = m.time.nano := by
    rw [show l.time = (m.wallAhead shift).time by rw [h]; rfl]
    exact ⟨rfl, rfl⟩
  have hlt := m.time.seconds_lt
  have hday : l.date.days + (l.time.seconds + -shift) / 86400 = m.date.days := by omega
  refine WallTime.ext_parts ?_ ?_ hnano
  · rw [wallAhead_date, hday, Civil.ofDays_days m.date.exist]
    rfl
  · show ((l.time.seconds + -shift) % 86400).toNat = m.time.seconds
    omega

/-- Going ahead and going back by the same seconds are inverse. -/
theorem ahead?_eq_some_iff : m.ahead? shift = some l ↔ l.ahead? (-shift) = some m := by
  rw [ahead?_eq_some, ahead?_eq_some]
  refine ⟨wallAhead_neg, fun h => ?_⟩
  have hback := wallAhead_neg h
  rwa [Int.neg_neg] at hback

end LocalDateTime

namespace DateTime

variable {m : DateTime} {l : LocalDateTime} {o : Offset}

/-- A local time is placed at an offset just where a clock at the offset shows it. -/
theorem ofLocal?_eq_some_iff : ofLocal? l o = some m ↔ m.offset = o ∧ m.local? = some l := by
  obtain ⟨utc, offset⟩ := m
  rw [local?, LocalDateTime.ahead?_eq_some_iff, ofLocal?, Option.map_eq_some_iff]
  constructor
  · rintro ⟨u, hu, heq⟩
    cases heq
    exact ⟨rfl, hu⟩
  · rintro ⟨rfl, hu⟩
    exact ⟨utc, hu, rfl⟩

end DateTime

end Recast
