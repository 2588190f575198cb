/-
Dates, times and moments are read back from their texts.

Each item of a pattern takes what was written for it and leaves the rest
(`readItems?_date`, `readItems?_seconds`), so a pattern that was written is
taken whole. Dates are read back always; times and local times when a leap
second is at the end of its minute (`readDate?_text`, `readClock?_text`,
`readLocal?_text`), as a time that shows second 60 in any other place is that of
another second. The text of a moment is read back as the moment of the shown
local time at the offset to the minute, if the shown year has four digits
(`readMoment?_text`).
-/
import Recast.Proofs.Time.Moment
import Recast.Proofs.Time.Text
import Recast.Time.Reading

namespace Recast.Time

open Text

variable {width least most n : Nat} {ds cs rest : List Char} {f : Fields}

/-! ## Numbers -/

theorem number?_digits (hds : ∀ c ∈ ds, isDigit c) (hleast : least ≤ ds.length)
    (hmost : ds.length = most ∨ ds.length ≤ most ∧ EndsDigits rest) :
    number? least most (ds ++ rest) = some (natOfDigits ds, rest) := by
  have hdigits : ((ds ++ rest).takeWhile isDigit).take most = ds := by
    rcases hmost with rfl | ⟨hle, hrest⟩
    · rw [List.takeWhile_append_of_pos hds, List.take_left]
    · rw [takeWhile_digits hds hrest, List.take_of_length_le hle]
  simp only [number?, hdigits]
  rw [if_neg (Nat.not_lt.2 hleast), List.drop_left]

theorem number?_padded (hwidth : 0 < width) (hleast : least ≤ width) (hn : n < 10 ^ width) :
    number? least width (padded width n ++ rest) = some (n, rest) := by
  have hlength := length_padded hwidth hn
  rw [number?_digits (fun _ => isDigit_of_mem_padded) (by omega) (.inl hlength),
    natOfDigits_padded]

theorem number?_two (hn : n < 100) : number? 2 2 (padded 2 n ++ rest) = some (n, rest) :=
  number?_padded (by decide) (by decide) hn

theorem number?_four (hn : n < 10000) : number? 4 4 (padded 4 n ++ rest) = some (n, rest) :=
  number?_padded (by decide) (by decide) hn

theorem trimStart_padded (width n : Nat) (rest : List Char) :
    trimStart (padded width n ++ rest) = padded width n ++ rest :=
  trimStart_append (padded_ne_nil width n) (noBlanks_padded width n) rest

theorem year?_yearText (y : Int) (rest : List Char) :
    year? (Civil.yearText y ++ '-' :: rest) = some (y, '-' :: rest) := by
  have hends : EndsDigits ('-' :: rest) := fun c hc => by cases hc; rfl
  have hnumber (most : Nat) (h : (padded 4 y.natAbs).length ≤ most) :
      number? 1 most (padded 4 y.natAbs ++ '-' :: rest) = some (y.natAbs, '-' :: rest) := by
    have hlength := le_length_padded 4 y.natAbs
    rw [number?_digits (fun _ => isDigit_of_mem_padded) (by omega) (.inr ⟨h, hends⟩),
      natOfDigits_padded]
  unfold Civil.yearText
  split
  · next hshort =>
    have hwidth : (padded 4 y.natAbs).length = 4 := length_padded (by decide) (by omega)
    obtain ⟨c, cs, hcs⟩ := List.exists_cons_of_ne_nil (padded_ne_nil 4 y.natAbs)
    have hmem : c ∈ padded 4 y.natAbs := by simp [hcs]
    have hc : isDigit c := isDigit_of_mem_padded hmem
    have hread := hnumber 4 (by omega)
    rw [hcs] at hread ⊢
    rw [List.cons_append] at hread ⊢
    unfold year?
    split
    · next heq => cases heq; cases hc
    · next heq => cases heq; cases hc
    · rw [hread]
      show some ((y.natAbs : Int), '-' :: rest) = _
      rw [Int.natAbs_of_nonneg hshort.1]
  · next hlong =>
    have hread := hnumber (padded 4 y.natAbs ++ '-' :: rest).length (by simp)
    split
    · next hneg =>
      rw [List.cons_append, year?, hread]
      show some (-(y.natAbs : Int), '-' :: rest) = _
      rw [Int.ofNat_natAbs_of_nonpos (by omega), Int.neg_neg]
    · next hpos =>
      rw [List.cons_append, year?, hread]
      show some ((y.natAbs : Int), '-' :: rest) = _
      rw [Int.natAbs_of_nonneg (by omega)]

theorem fraction?_padded {places : Nat} (hplaces : 0 < places ∧ places ≤ 9)
    (hn : n < 10 ^ places) (hrest : EndsFraction rest) :
    fraction? ('.' :: padded places n ++ rest) = some (n * 10 ^ (9 - places), rest) := by
  have hlength := length_padded hplaces.1 hn
  have hspan : spanDigits (padded places n ++ rest) = (padded places n, rest) :=
    spanDigits_append (fun _ => isDigit_of_mem_padded) fun c hc => (hrest c hc).1
  simp only [List.cons_append, fraction?, hspan]
  rw [if_neg (padded_ne_nil places n), List.take_of_length_le (by omega), natOfDigits_padded,
    hlength]

theorem fraction?_fractionText (hn : n < 1000000000) (hrest : EndsFraction rest) :
    fraction? (Clock.fractionText n ++ rest) = some (n, rest) := by
  unfold Clock.fractionText
  split
  · next hzero =>
    subst hzero
    unfold fraction?
    split
    · next heq =>
      exact absurd rfl (hrest '.' (by rw [List.nil_append] at heq; rw [heq]; rfl)).2
    · rfl
  split
  · next hmillis =>
    rw [fraction?_padded (by decide) (by omega) hrest]
    simp only [Option.some.injEq, Prod.mk.injEq, and_true]
    omega
  split
  · next hmicros =>
    rw [fraction?_padded (by decide) (by omega) hrest]
    simp only [Option.some.injEq, Prod.mk.injEq, and_true]
    omega
  · rw [fraction?_padded (by decide) (by omega) hrest]
    simp

/-! ## The fields of a date and a time -/

/-- The fields with those of a date. -/
def Fields.withDate (f : Fields) (c : Civil) : Fields :=
  { f with year := c.year, month := c.month, day := c.day }

/-- The fields with those of a time, the second and the fraction as they are shown. -/
def Fields.withTime (f : Fields) (t : Clock) : Fields :=
  { f with hour := t.hour, minute := t.minute, second := t.shown.1, nano := t.shown.2 }

@[simp] theorem Fields.date?_withTime (f : Fields) (t : Clock) :
    (f.withTime t).date? = f.date? := rfl

theorem Fields.clock?_of_lt (hhour : f.hour < 24) (hminute : f.minute < 60)
    (hsecond : f.second < 60) :
    f.clock? = Clock.of? (f.hour * 3600 + f.minute * 60 + f.second) f.nano := by
  simp [Fields.clock?, hhour, hminute, Nat.le_of_lt hsecond, Nat.ne_of_lt hsecond]

theorem Fields.clock?_of_leap (hhour : f.hour < 24) (hminute : f.minute < 60)
    (hsecond : f.second = 60) :
    f.clock? = Clock.of? (f.hour * 3600 + f.minute * 60 + 59) (f.nano + 1000000000) := by
  simp [Fields.clock?, hhour, hminute, hsecond]

theorem Fields.clock?_withTime_eq_some_iff {t : Clock} :
    (f.withTime t).clock? = some t ↔ t.LeapInPlace := by
  have hhour : (f.withTime t).hour < 24 := by
    have hseconds := t.seconds_lt
    simp only [withTime, Clock.hour]
    omega
  have hminute : (f.withTime t).minute < 60 := by
    simp only [withTime, Clock.minute]
    omega
  have hsum : t.hour * 3600 + t.minute * 60 + t.second = t.seconds := by
    unfold Clock.hour Clock.minute Clock.second
    omega
  have hlt : t.second < 60 := by unfold Clock.second; omega
  unfold Clock.LeapInPlace
  by_cases hleap : 1000000000 ≤ t.nano
  · have hshown : t.shown = (t.second + 1, t.nano - 1000000000) := if_pos hleap
    by_cases hlast : t.second = 59
    · rw [clock?_of_leap hhour hminute (by simp [withTime, hshown, hlast]), Clock.of?_eq_some_iff]
      simp only [withTime, hshown]
      omega
    · rw [clock?_of_lt hhour hminute (by simp only [withTime, hshown]; omega),
        Clock.of?_eq_some_iff]
      simp only [withTime, hshown]
      omega
  · have hshown : t.shown = (t.second, t.nano) := if_neg hleap
    rw [clock?_of_lt hhour hminute (by simpa only [withTime, hshown]), Clock.of?_eq_some_iff]
    simp [withTime, hshown, hsum, hleap]

theorem Fields.local?_eq_some_iff {w : WallTime} {l : LocalDateTime} (h : w = l.toWall) :
    ((f.withDate w.date).withTime w.time).local? = some l ↔ w.time.LeapInPlace := by
  subst h
  obtain ⟨date, time⟩ := l
  have hdate : (f.withDate date.toCivil).date? = some date := Date.ofCivil?_toCivil date
  have htime := Fields.clock?_withTime_eq_some_iff (f := f.withDate date.toCivil) (t := time)
  simp [Fields.local?, LocalDateTime.toWall, hdate, ← htime, Option.bind_eq_some_iff]

/-! ## Items -/

theorem readItems?_append (as bs : List Item) (f : Fields) (cs : List Char) :
    readItems? (as ++ bs) f cs =
      (readItems? as f cs).bind fun (f, rest) => readItems? bs f rest := by
  induction as generalizing f cs with
  | nil => rfl
  | cons a as ih =>
    simp only [List.cons_append, readItems?, Option.bind_assoc]
    congr 1
    funext ⟨f, rest⟩
    exact ih f rest

/-- The items of a date read its text. -/
theorem readItems?_date {c : Civil} (hmonth : c.month < 100) (hday : c.day < 100) (f : Fields)
    (rest : List Char) : readItems? dateItems f (c.text ++ rest) =
      some (f.withDate c, rest) := by
  have hyear (rest : List Char) :
      trimStart (Civil.yearText c.year ++ rest) = Civil.yearText c.year ++ rest :=
    trimStart_append (yearText_ne_nil c.year) (noBlanks_yearText c.year) rest
  simp [dateItems, readItems?, Item.read?, Civil.text, hyear, year?_yearText, trimStart_padded,
    number?_padded, hmonth, hday, Fields.withDate]

theorem readItems?_minutes {hour minute : Nat} (hhour : hour < 100) (hminute : minute < 100)
    (f : Fields) (rest : List Char) :
    readItems? minuteItems f (padded 2 hour ++ ':' :: (padded 2 minute ++ rest)) =
      some ({ f with hour, minute }, rest) := by
  simp [minuteItems, readItems?, Item.read?, trimStart_padded, number?_padded, hhour, hminute]

/-- The items of a time with seconds read its text, the second and the fraction as shown. -/
theorem readItems?_seconds (t : Clock) (f : Fields) (hrest : EndsFraction rest) :
    readItems? secondItems f (t.text ++ rest) = some (f.withTime t, rest) := by
  obtain ⟨hhour, hminute, hsecond, hnano⟩ := t.parts_lt
  have htext : t.text ++ rest = padded 2 t.hour ++ ':' :: (padded 2 t.minute ++
      ':' :: (padded 2 t.shown.1 ++ (Clock.fractionText t.shown.2 ++ rest))) := by
    simp [Clock.text]
  rw [htext, secondItems, readItems?_append, readItems?_minutes hhour hminute]
  simp [readItems?, Item.read?, trimStart_padded, number?_padded, hsecond,
    fraction?_fractionText hnano hrest, Fields.withTime]

/-! ## Whole texts -/

theorem readAll?_of_nil {items : List Item} (h : readItems? items {} cs = some (f, [])) :
    readAll? items cs = some f := by
  simp [readAll?, h]

theorem readAll?_of_ne_nil {items : List Item} (h : readItems? items {} cs = some (f, rest))
    (hrest : rest ≠ []) : readAll? items cs = none := by
  obtain ⟨c, rest, rfl⟩ := List.exists_cons_of_ne_nil hrest
  simp [readAll?, h]

/-- The date is read back. -/
theorem readDate?_text (d : Date) : readDate? d.toCivil.text = some d := by
  have hread := readItems?_date d.exist.two_digits.1 d.exist.two_digits.2 {} []
  rw [List.append_nil] at hread
  rw [readDate?, readAll?_of_nil hread]
  exact Date.ofCivil?_toCivil d

/-- The time is read back, if a leap second is in its place. -/
theorem readClock?_text {t : Clock} (h : t.LeapInPlace) : readClock? t.text = some t := by
  have hread := readItems?_seconds t {} endsFraction_nil
  rw [List.append_nil] at hread
  simp [readClock?, readAll?_of_nil hread, Fields.clock?_withTime_eq_some_iff.2 h]

variable {w : WallTime}

theorem readItems?_wall (hdate : w.date.Exists) (hrest : EndsFraction rest) :
    readItems? (dateItems ++ .literal 'T' :: secondItems) {} (w.text 'T' ++ rest) =
      some ((Fields.withDate {} w.date).withTime w.time, rest) := by
  have htext : w.text 'T' ++ rest = w.date.text ++ ('T' :: (w.time.text ++ rest)) := by
    simp [WallTime.text]
  rw [htext, readItems?_append, readItems?_date hdate.two_digits.1 hdate.two_digits.2]
  simp [readItems?, Item.read?, readItems?_seconds w.time _ hrest]

/-- The local time is read back, if a leap second is in its place. -/
theorem readLocal?_text {m : LocalDateTime} (h : m.time.LeapInPlace) :
    readLocal? (m.toWall.text 'T') = some m := by
  have hread := readItems?_wall (w := m.toWall) m.date.exist endsFraction_nil
  rw [List.append_nil] at hread
  have hlocal := (Fields.local?_eq_some_iff (f := {}) (w := m.toWall) rfl).2 h
  rw [readLocal?, localPatterns, List.findSome?_cons, readAll?_of_nil hread, Option.bind_some,
    hlocal]
  rfl

theorem readLocal?_of_ne_nil (hdate : w.date.Exists) (hrest : EndsFraction rest)
    (hne : rest ≠ []) : readLocal? (w.text 'T' ++ rest) = none := by
  have htext : w.text 'T' ++ rest = w.date.text ++ ('T' :: (w.time.text ++ rest)) := by
    simp [WallTime.text]
  have hread := readItems?_date hdate.two_digits.1 hdate.two_digits.2 {}
    ('T' :: (w.time.text ++ rest))
  rw [← htext] at hread
  have hseconds := readAll?_of_ne_nil (readItems?_wall hdate hrest) hne
  have hminutes : readAll? (dateItems ++ .literal 'T' :: minuteItems) (w.text 'T' ++ rest) =
      none := by
    have hcolon : readItems? (dateItems ++ .literal 'T' :: minuteItems) {} (w.text 'T' ++ rest) =
        some ({ Fields.withDate {} w.date with hour := w.time.hour, minute := w.time.minute },
          ':' :: (padded 2 w.time.shown.1 ++ (Clock.fractionText w.time.shown.2 ++ rest))) := by
      rw [readItems?_append, hread]
      simp [readItems?, Item.read?, Clock.text, readItems?_minutes w.time.parts_lt.1
        w.time.parts_lt.2.1]
    exact readAll?_of_ne_nil hcolon (List.cons_ne_nil _ _)
  have hblanks (items : List Item) :
      readAll? (dateItems ++ .blanks :: .hour :: items) (w.text 'T' ++ rest) = none := by
    have hnone : readItems? (dateItems ++ .blanks :: .hour :: items) {} (w.text 'T' ++ rest) =
        none := by
      rw [readItems?_append, hread]
      rfl
    simp [readAll?, hnone]
  have hdateonly : readDate? (w.text 'T' ++ rest) = none := by
    rw [readDate?, readAll?_of_ne_nil hread (List.cons_ne_nil _ _)]
    rfl
  have hpatterns : ∀ items ∈ localPatterns, readAll? items (w.text 'T' ++ rest) = none := by
    simp only [localPatterns, List.forall_mem_cons]
    exact ⟨hseconds, hblanks _, hminutes, hblanks _, by simp⟩
  have hnone : (localPatterns.findSome? fun items =>
      (readAll? items (w.text 'T' ++ rest)).bind Fields.local?) = none :=
    List.findSome?_eq_none_iff.2 fun items hitems => by rw [hpatterns items hitems]; rfl
  rw [readLocal?, hnone, hdateonly]
  rfl

/-! ## Moments with an offset -/

theorem offset?_signed {hours minutes : Nat} (hhours : hours < 100) (hminutes : minutes < 60)
    {sign : Char} (hsign : sign = '+' ∨ sign = '-') :
    offset? (char? (· = ':')) (sign :: (padded 2 hours ++ ':' :: padded 2 minutes)) =
      some (if sign = '+' then (hours * 3600 + minutes * 60 : Int)
        else -(hours * 3600 + minutes * 60 : Int), []) := by
  have hlast := @number?_two minutes [] (by omega)
  rw [List.append_nil] at hlast
  have hletter : (decide (sign = 'Z') || decide (sign = 'z')) = false := by
    rcases hsign with rfl | rfl <;> rfl
  have hsigned : (decide (sign = '+') || decide (sign = '-') || decide (sign = '−')) = true := by
    rcases hsign with rfl | rfl <;> rfl
  rw [offset?, hletter, if_neg (by decide), if_pos hsigned]
  simp only [number?_two hhours, hlast, char?, decide_true, if_true, Option.bind_eq_bind,
    Option.bind_some, if_neg (Nat.not_le.2 hminutes)]
  rfl

theorem offset?_minuteText (o : Offset) (zulu : Bool) :
    offset? (char? (· = ':')) (o.minuteText zulu) = some (o.nearestMinute, []) := by
  have hlower := o.lower
  have hupper := o.upper
  unfold Offset.minuteText
  split
  · next hz =>
    have hzero : o.seconds = 0 := of_decide_eq_true (Bool.and_eq_true_iff.1 hz).2
    simp [offset?, Offset.nearestMinute, hzero]
  · have hsign : o.sign = '+' ∨ o.sign = '-' := by
      unfold Offset.sign
      split
      · exact .inr rfl
      · exact .inl rfl
    have hpositive : o.sign = '+' ↔ 0 ≤ o.seconds := by
      unfold Offset.sign
      split
      · exact ⟨fun h => absurd h (by decide), fun h => by omega⟩
      · exact ⟨fun _ => by omega, fun _ => rfl⟩
    simp only [List.cons_append]
    rw [offset?_signed (by omega) (by omega) hsign, Offset.nearestMinute, Option.some.injEq,
      Prod.mk.injEq]
    refine ⟨?_, rfl⟩
    simp only [hpositive]
    split <;> split <;> omega

theorem readMoment?_fields {year month day hour minute second nano : Nat} {seconds : Int}
    {fraction : List Char} (hyear : year < 10000) (hmonth : month < 100) (hday : day < 100)
    (hhour : hour < 100) (hminute : minute < 100) (hsecond : second < 100)
    (hfraction : fraction? fraction = some (nano, rest))
    (hoffset : offset? (char? (· = ':')) rest = some (seconds, [])) :
    readMoment? (padded 4 year ++ '-' :: (padded 2 month ++ '-' :: (padded 2 day ++ 'T' ::
      (padded 2 hour ++ ':' :: (padded 2 minute ++ ':' :: (padded 2 second ++ fraction)))))) =
      moment? ⟨year, month, day, hour, minute, second, nano⟩ seconds := by
  have hbind {α β : Type} (a : α) (f : α → Option β) : (some a >>= f) = f a := rfl
  simp only [readMoment?, number?_four hyear, number?_two hmonth, number?_two hday,
    number?_two hhour, number?_two hminute, number?_two hsecond, hfraction, hoffset, char?,
    decide_true, Bool.true_or, if_true, hbind]

variable {m : DateTime}

/-- The text of a moment is read as that of the shown local time at the nearest minute, if the
shown year has four digits. -/
theorem readMoment?_text (m : DateTime) (zulu : Bool) : readMoment? (m.text zulu) =
    if 0 ≤ m.wall.date.year ∧ m.wall.date.year ≤ 9999 then
      moment? ((Fields.withDate {} m.wall.date).withTime m.wall.time) m.offset.nearestMinute
    else none := by
  have hdate : m.wall.date.Exists := m.utc.exists_wallAhead m.offset.seconds
  obtain ⟨hmonth, hday⟩ := hdate.two_digits
  obtain ⟨hhour, hminute, hsecond, hnano⟩ := m.wall.time.parts_lt
  split
  · next hyear =>
    have hdigits : m.wall.date.year.natAbs < 10000 := by omega
    have hfraction := fraction?_fractionText hnano (endsFraction_minuteText m.offset zulu)
    have hread := readMoment?_fields hdigits hmonth hday hhour hminute hsecond hfraction
      (offset?_minuteText m.offset zulu)
    rw [Int.natAbs_of_nonneg hyear.1] at hread
    simpa only [DateTime.text, WallTime.text, Civil.text, Civil.yearText, if_pos hyear, Clock.text,
      List.append_assoc, List.cons_append, Fields.withDate, Fields.withTime] using hread
  · next hyear =>
    have hnone : number? 4 4 (m.text zulu) = none := by
      simp only [DateTime.text, WallTime.text, Civil.text, Civil.yearText, if_neg hyear]
      split <;> rfl
    rw [readMoment?, hnone]
    rfl

theorem moment?_eq_some_iff {seconds : Int} : moment? f seconds = some m ↔
    m.offset.seconds = seconds ∧ ∃ l, f.local? = some l ∧ m.local? = some l := by
  simp only [moment?, Option.bind_eq_bind, Option.bind_eq_some_iff, DateTime.ofLocal?_eq_some_iff,
    Offset.of?_eq_some_iff]
  constructor
  · rintro ⟨l, hl, o, ho, rfl, hshown⟩
    exact ⟨ho, l, hl, hshown⟩
  · rintro ⟨ho, l, hl, hshown⟩
    exact ⟨l, hl, m.offset, ho, rfl, hshown⟩

theorem offset_of_readMoment?_text {n : DateTime} {zulu : Bool}
    (h : readMoment? (m.text zulu) = some n) : n.offset.seconds = m.offset.nearestMinute := by
  rw [readMoment?_text] at h
  split at h
  · exact (moment?_eq_some_iff.1 h).1
  · cases h

/-- A moment is read back from its text just when its offset is whole minutes, the shown year has
four digits and a leap second is shown as second 60. -/
theorem readMoment?_text_eq_some_iff (m : DateTime) (zulu : Bool) :
    readMoment? (m.text zulu) = some m ↔
    m.offset.seconds % 60 = 0 ∧ (0 ≤ m.wall.date.year ∧ m.wall.date.year ≤ 9999) ∧
      m.wall.time.LeapInPlace := by
  have hlocal (l : LocalDateTime) : m.local? = some l ↔ m.wall = l.toWall :=
    LocalDateTime.ahead?_eq_some
  rw [readMoment?_text]
  split
  · next hyear =>
    simp only [moment?_eq_some_iff, hlocal, hyear, and_self, true_and]
    rw [eq_comm, Offset.nearestMinute_eq_iff]
    refine and_congr_right fun _ => ⟨?_, fun hleap => ?_⟩
    · rintro ⟨l, hl, hwall⟩
      exact (Fields.local?_eq_some_iff hwall).1 hl
    · have hexists : m.wall.date.Exists := m.utc.exists_wallAhead m.offset.seconds
      have hcalendar : m.wall.date.InCalendar := by
        unfold Civil.InCalendar
        omega
      have hwall : m.wall = LocalDateTime.toWall ⟨⟨m.wall.date, hexists, hcalendar⟩, m.wall.time⟩ :=
        rfl
      exact ⟨_, (Fields.local?_eq_some_iff hwall).2 hleap, hwall⟩
  · next hyear => simp [hyear]

theorem readMomentIn?_text (zone : Offset) (m : DateTime) (zulu : Bool) :
    readMomentIn? zone (m.text zulu) = readMoment? (m.text zulu) := by
  have hdate : m.wall.date.Exists := m.utc.exists_wallAhead m.offset.seconds
  have hlocal : readLocal? (m.text zulu) = none :=
    readLocal?_of_ne_nil hdate (endsFraction_minuteText m.offset zulu) (by
      unfold Offset.minuteText
      split <;> simp)
  rw [readMomentIn?, hlocal]
  cases readMoment? (m.text zulu) <;> rfl

end Recast.Time
