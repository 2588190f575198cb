/-
What the texts of dates, times and moments are made of.

The parts of a time have the widths they are written with (`Clock.parts_lt`),
no text has a blank in it (`noBlanks_date`, `noBlanks_time`,
`noBlanks_moment`), and an offset does not begin as a fraction goes on
(`endsFraction_minuteText`). The text of a moment rounds the offset to the
minute, which changes just the offsets with seconds (`nearestMinute_eq_iff`).
-/
import Recast.Proofs.Text.Digits
import Recast.Time.Moment

namespace Recast

/-! ## Parts -/

/-- A leap second comes after second 59 of its minute. -/
def Clock.LeapInPlace (t : Clock) : Prop := 1000000000 ≤ t.nano → t.second = 59

instance (t : Clock) : Decidable t.LeapInPlace := inferInstanceAs (Decidable (_ → _))

/-- The parts of a time that are shown have two digits, and its fraction has nine. -/
theorem Clock.parts_lt (t : Clock) :
    t.hour < 100 ∧ t.minute < 100 ∧ t.shown.1 < 100 ∧ t.shown.2 < 1000000000 := by
  have hseconds := t.seconds_lt
  have hnano := t.nano_lt
  simp only [shown, hour, minute, second]
  split <;> omega

theorem Clock.of?_eq_some_iff {seconds nano : Nat} {t : Clock} :
    Clock.of? seconds nano = some t ↔ seconds = t.seconds ∧ nano = t.nano := by
  constructor
  · intro h
    unfold Clock.of? at h
    split at h
    · cases h
      exact ⟨rfl, rfl⟩
    · cases h
  · rintro ⟨rfl, rfl⟩
    exact t.of?_parts

/-- The seconds of an offset to the nearest minute, half a minute away from zero. -/
def Offset.nearestMinute (o : Offset) : Int :=
  let n : Nat := (o.seconds.natAbs + 30) / 60 * 60
  if o.seconds < 0 then -n else n

theorem Offset.nearestMinute_eq_iff {o : Offset} :
    o.nearestMinute = o.seconds ↔ o.seconds % 60 = 0 := by
  simp only [nearestMinute]
  split <;> omega

theorem Offset.of?_eq_some_iff {seconds : Int} {o : Offset} :
    Offset.of? seconds = some o ↔ o.seconds = seconds := by
  constructor
  · intro h
    unfold Offset.of? at h
    split at h
    · cases h
      rfl
    · cases h
  · rintro rfl
    exact o.of?_seconds

namespace Time

open Text

/-! ## Texts without blanks -/

theorem yearText_ne_nil (y : Int) : Civil.yearText y ≠ [] := by
  unfold Civil.yearText
  split
  · exact padded_ne_nil _ _
  · exact List.cons_ne_nil _ _

theorem noBlanks_yearText (y : Int) : NoBlanks (Civil.yearText y) := by
  have hsign : isBlank (if y < 0 then '-' else '+') = false := by split <;> rfl
  unfold Civil.yearText
  split
  · exact noBlanks_padded _ _
  · exact noBlanks_cons.2 ⟨hsign, noBlanks_padded _ _⟩

theorem noBlanks_date (c : Civil) : NoBlanks c.text := by
  simp only [Civil.text, noBlanks_append, noBlanks_cons, noBlanks_padded, noBlanks_yearText]
  decide

theorem noBlanks_fractionText (nano : Nat) : NoBlanks (Clock.fractionText nano) := by
  have hpoint (places n : Nat) : NoBlanks ('.' :: padded places n) :=
    noBlanks_cons.2 ⟨rfl, noBlanks_padded _ _⟩
  unfold Clock.fractionText
  split
  · decide
  split
  · exact hpoint _ _
  split
  · exact hpoint _ _
  · exact hpoint _ _

theorem noBlanks_time (t : Clock) : NoBlanks t.text := by
  simp only [Clock.text, noBlanks_append, noBlanks_cons, noBlanks_padded, noBlanks_fractionText]
  decide

theorem noBlanks_offset (o : Offset) (zulu : Bool) : NoBlanks (o.minuteText zulu) := by
  have hsign : isBlank o.sign = false := by
    unfold Offset.sign
    split <;> rfl
  unfold Offset.minuteText
  split
  · decide
  · simp only [noBlanks_append, noBlanks_cons, noBlanks_padded, hsign]
    decide

theorem noBlanks_wall (w : WallTime) : NoBlanks (w.text 'T') := by
  simp only [WallTime.text, noBlanks_append, noBlanks_cons, noBlanks_date, noBlanks_time]
  decide

theorem noBlanks_moment (m : DateTime) (zulu : Bool) : NoBlanks (m.text zulu) := by
  simp only [DateTime.text, noBlanks_append, noBlanks_wall, noBlanks_offset, and_self]

/-! ## Ends -/

/-- Neither a digit nor a point stands at the front. -/
def EndsFraction (rest : List Char) : Prop := ∀ c ∈ rest.head?, isDigit c = false ∧ c ≠ '.'

theorem endsFraction_nil : EndsFraction [] := by simp [EndsFraction]

theorem endsFraction_minuteText (o : Offset) (zulu : Bool) :
    EndsFraction (o.minuteText zulu) := by
  unfold Offset.minuteText Offset.sign
  split
  · simp [EndsFraction]; decide
  · split <;> simp [EndsFraction] <;> decide

end Time

end Recast
