/-
Dates, times, moments and durations as text, and back.

Every one of them is converted to a text without a blank. A text is converted
back as it is read (`convert_text`), so what survives is decided by the readers
alone: dates always; times and local times when a leap second comes after second
59 of its minute (`convert_local_text`); moments when in addition the offset is
whole minutes and the shown year has four digits (`convert_moment_text`);
durations when their nanoseconds are below `2 ^ 63` (`convert_duration_text`).
The zone of the context plays no part, as the text of a moment has its own
offset.

Offsets are read from texts of their grammar, and from texts whose colons stand
elsewhere (`convert_offset_text`).
-/
import Recast.Proofs.Standard.Resolution
import Recast.Proofs.Time.Offset
import Recast.Proofs.Time.Reading
import Recast.Proofs.Time.Span

namespace Recast

theorem DateTime.wall_utc (m : LocalDateTime) : (DateTime.mk m .utc).wall = m.toWall := by
  have hlt := m.time.seconds_lt
  have hday : m.date.days + (m.time.seconds + Offset.utc.seconds) / 86400 = m.date.days := by
    show m.date.days + (m.time.seconds + 0) / 86400 = _
    omega
  refine WallTime.ext_parts ?_ ?_ rfl
  · rw [wall, LocalDateTime.wallAhead_date, hday, Civil.ofDays_days m.date.exist]
    rfl
  · show ((m.time.seconds + 0) % 86400 : Int).toNat = m.time.seconds
    omega

namespace Standard

variable {tie : TieBreak} {ctx : Context} {depth : Nat} {v : Value} {t : Ty} {cs : List Char}

/-! ## The conversions -/

theorem servedBy_temporal :
    (∀ t ∈ temporalTypes, ServedBy .temporal t .string) ∧
      ServedBy .duration .duration .string ∧
      ∀ t ∈ .duration :: temporalTypes, ServedBy .charSequence .string t := by
  decide

theorem convert_to_text (ho : ctx.overrides = []) (tie : TieBreak) (depth : Nat)
    (ht : v.ty ∈ .duration :: temporalTypes) (htext : Scalar.temporalText? v = some cs) :
    registry.convert tie ctx (depth + 1) v .string = some (.ok ⟨.string (.ofList cs), false⟩) := by
  have hitem : ∃ general, ServedBy general v.ty .string ∧
      ⟨general, .string, Scalar.temporalToString⟩ ∈ items := by
    rcases List.mem_cons.1 ht with hduration | htemporal
    · exact ⟨.duration, hduration ▸ servedBy_temporal.2.1, by simp [items, temporalItems]⟩
    · exact ⟨.temporal, servedBy_temporal.1 _ htemporal, by simp [items, temporalItems]⟩
  obtain ⟨general, hserved, hi⟩ := hitem
  rw [convert_of_servedBy ho tie depth hserved hi]
  show some (Except.map _ (Scalar.expect (Scalar.temporalText? v) v _ >>= _)) = _
  rw [htext]
  rfl

theorem convert_of_text (ho : ctx.overrides = []) (tie : TieBreak) (depth : Nat) {s : String}
    (hv : v.text? = some s) (hserved : ServedBy .charSequence v.ty t)
    (hi : ⟨.charSequence, t, Scalar.textToTemporal⟩ ∈ items) {r : Option Value}
    (hread : Scalar.readTemporal ctx.env.zone (Text.trim s.toList) t = some r) :
    registry.convert tie ctx (depth + 1) v t =
      some (r.elim (.error (.invalidFormat t s .isoText)) fun v => .ok ⟨v, false⟩) := by
  rw [convert_of_servedBy ho tie depth hserved hi, hv]
  show some (Except.map _ (Scalar.expect (Scalar.readTemporal ctx.env.zone
    (Text.trim s.toList) t) _ _ >>= _)) = _
  rw [hread]
  cases r <;> rfl

/-- A text becomes the temporal value that is read from it. -/
theorem convert_text (ho : ctx.overrides = []) (tie : TieBreak) (depth : Nat)
    (ht : t ∈ .duration :: temporalTypes) (hblanks : Text.NoBlanks cs) {r : Option Value}
    (hread : Scalar.readTemporal ctx.env.zone cs t = some r) :
    registry.convert tie ctx (depth + 1) (.string (.ofList cs)) t =
      some (r.elim (.error (.invalidFormat t (.ofList cs) .isoText)) fun v => .ok ⟨v, false⟩) := by
  have hi : ⟨.charSequence, t, Scalar.textToTemporal⟩ ∈ items := by
    rcases List.mem_cons.1 ht with rfl | htemporal
    · simp [items, temporalItems]
    · simp [items, temporalItems, htemporal]
  refine convert_of_text ho tie depth (v := .string (.ofList cs)) rfl
    (servedBy_temporal.2.2 t ht) hi ?_
  rwa [String.toList_ofList, Text.trim_eq_self hblanks]

/-- The value is converted to a text, and that text back to the value. -/
def SurvivesText (tie : TieBreak) (ctx : Context) (depth : Nat) (v : Value) : Prop :=
  ∃ s, registry.convert tie ctx (depth + 1) v .string = some (.ok ⟨.string s, false⟩) ∧
    registry.convert tie ctx (depth + 1) (.string s) v.ty = some (.ok ⟨v, false⟩)

theorem survivesText_iff (ho : ctx.overrides = []) (tie : TieBreak) (depth : Nat)
    (ht : v.ty ∈ .duration :: temporalTypes) (htext : Scalar.temporalText? v = some cs)
    (hblanks : Text.NoBlanks cs) {r : Option Value}
    (hread : Scalar.readTemporal ctx.env.zone cs v.ty = some r) :
    SurvivesText tie ctx depth v ↔ r = some v := by
  have hto := convert_to_text ho tie depth ht htext
  have hback := convert_text ho tie depth ht hblanks hread
  constructor
  · rintro ⟨s, hs, hsback⟩
    cases hs.symm.trans hto
    cases r with
    | none => cases hsback.symm.trans hback
    | some w =>
      cases hsback.symm.trans hback
      rfl
  · rintro rfl
    exact ⟨_, hto, hback⟩

/-! ## Local values -/

/-- **Local values survive text.** Every date, and every local time and time of day whose leap
second comes after second 59, is converted to a text, and the text back to it, in every zone. -/
theorem convert_local_text (ho : ctx.overrides = []) (tie : TieBreak) (depth : Nat) :
    (∀ d, SurvivesText tie ctx depth (.date d)) ∧
      (∀ m : LocalDateTime, m.time.LeapInPlace → SurvivesText tie ctx depth (.localDateTime m)) ∧
      ∀ t : Clock, t.LeapInPlace → SurvivesText tie ctx depth (.time t) := by
  refine ⟨fun d => ?_, fun m hleap => ?_, fun t hleap => ?_⟩
  · rw [survivesText_iff ho tie depth (v := .date d) (by simp [Value.ty, temporalTypes]) rfl
      (Time.noBlanks_date _) rfl, Time.readDate?_text]
    rfl
  · rw [survivesText_iff ho tie depth (v := .localDateTime m) (by simp [Value.ty, temporalTypes])
      rfl (Time.noBlanks_wall _) rfl, Time.readLocal?_text hleap]
    rfl
  · rw [survivesText_iff ho tie depth (v := .time t) (by simp [Value.ty, temporalTypes]) rfl
      (Time.noBlanks_time _) rfl, Time.readClock?_text hleap]
    rfl

/-- In a zone of half hours the first date of the calendar, a leap second and both together
survive. -/
theorem convert_local_text_leap :
    let ctx : Context := { Context.default with
      env := { Environment.default with zone := ⟨19800, by decide, by decide⟩ } }
    let d : Date := ⟨⟨-262143, 1, 1⟩, by decide, by decide⟩
    let t : Clock := ⟨86399, 1999999999, by decide, by decide⟩
    ctx.overrides = [] ∧ t.LeapInPlace ∧
      SurvivesText .registryOrder ctx 0 (.date d) ∧
      SurvivesText .registryOrder ctx 0 (.localDateTime ⟨d, t⟩) ∧
      SurvivesText .registryOrder ctx 0 (.time t) := by
  intro ctx d t
  have ho : ctx.overrides = [] := rfl
  have hleap : t.LeapInPlace := by decide
  obtain ⟨hdate, hlocal, htime⟩ := convert_local_text ho .registryOrder 0
  exact ⟨ho, hleap, hdate d, hlocal ⟨d, t⟩ hleap, htime t hleap⟩

/-! ## Moments -/

theorem survivesText_dateTime_iff (ho : ctx.overrides = []) (tie : TieBreak) (depth : Nat)
    (m : DateTime) : SurvivesText tie ctx depth (.dateTime m) ↔
      m.offset.seconds % 60 = 0 ∧ (0 ≤ m.wall.date.year ∧ m.wall.date.year ≤ 9999) ∧
        m.wall.time.LeapInPlace := by
  rw [← Time.readMoment?_text_eq_some_iff m false,
    survivesText_iff ho tie depth (v := .dateTime m) (by simp [Value.ty, temporalTypes]) rfl
      (Time.noBlanks_moment m false) rfl, Time.readMomentIn?_text]
  simp

theorem survivesText_instant_iff (ho : ctx.overrides = []) (tie : TieBreak) (depth : Nat)
    (m : LocalDateTime) : SurvivesText tie ctx depth (.instant m) ↔
      (0 ≤ m.date.year ∧ m.date.year ≤ 9999) ∧ m.time.LeapInPlace := by
  have hwall := DateTime.wall_utc m
  have hiff := Time.readMoment?_text_eq_some_iff ⟨m, .utc⟩ true
  rw [hwall] at hiff
  rw [survivesText_iff ho tie depth (v := .instant m) (by simp [Value.ty, temporalTypes]) rfl
    (Time.noBlanks_moment _ true) rfl, Time.readMomentIn?_text, Option.map_eq_some_iff]
  constructor
  · rintro ⟨⟨utc, offset⟩, hread, heq⟩
    cases heq
    have hoffset : offset = .utc :=
      Offset.eq_of_seconds_eq ((Time.offset_of_readMoment?_text hread).trans
        (Offset.nearestMinute_eq_iff.2 rfl))
    rw [hoffset] at hread
    exact (hiff.1 hread).2
  · exact fun h => ⟨_, hiff.2 ⟨rfl, h⟩, rfl⟩

/-- **Moments as text.** Every moment at an offset and every instant is converted to a text, in
every zone. The text is converted back to a moment at an offset just when the offset is whole
minutes, the year shown there has four digits, and a leap second is shown as second 60; and back to
an instant just when its year has four digits and its leap second comes after second 59. -/
theorem convert_moment_text (ho : ctx.overrides = []) (tie : TieBreak) (depth : Nat) :
    (∀ m : DateTime, (∃ s, registry.convert tie ctx (depth + 1) (.dateTime m) .string =
        some (.ok ⟨.string s, false⟩)) ∧
      (SurvivesText tie ctx depth (.dateTime m) ↔ m.offset.seconds % 60 = 0 ∧
        (0 ≤ m.wall.date.year ∧ m.wall.date.year ≤ 9999) ∧ m.wall.time.LeapInPlace)) ∧
      ∀ m : LocalDateTime, (∃ s, registry.convert tie ctx (depth + 1) (.instant m) .string =
        some (.ok ⟨.string s, false⟩)) ∧
      (SurvivesText tie ctx depth (.instant m) ↔
        (0 ≤ m.date.year ∧ m.date.year ≤ 9999) ∧ m.time.LeapInPlace) :=
  ⟨fun m => ⟨⟨_, convert_to_text ho tie depth (by simp [Value.ty, temporalTypes]) rfl⟩,
      survivesText_dateTime_iff ho tie depth m⟩,
    fun m => ⟨⟨_, convert_to_text ho tie depth (by simp [Value.ty, temporalTypes]) rfl⟩,
      survivesText_instant_iff ho tie depth m⟩⟩

/-- A moment at an offset of half an hour, with a leap second, survives. -/
theorem convert_moment_text_leap :
    let m : DateTime := ⟨⟨⟨⟨2016, 12, 31⟩, by decide, by decide⟩,
      ⟨86399, 1000000001, by decide, by decide⟩⟩, ⟨19800, by decide, by decide⟩⟩
    Context.default.overrides = [] ∧ SurvivesText .registryOrder .default 0 (.dateTime m) ∧
      SurvivesText .registryOrder .default 0 (.instant m.utc) := by
  intro m
  have ho : Context.default.overrides = [] := rfl
  obtain ⟨hdateTime, hinstant⟩ := convert_moment_text ho .registryOrder 0
  exact ⟨ho, (hdateTime m).2.2 (by decide), (hinstant m.utc).2.2 (by decide)⟩

/-- A moment at an offset of half a minute comes back half a minute earlier, and an instant of the
year 10000 does not come back. -/
theorem moment_lost_in_text :
    let m : DateTime := ⟨⟨⟨⟨2024, 1, 1⟩, by decide, by decide⟩, .midnight⟩,
      ⟨30, by decide, by decide⟩⟩
    let moved : DateTime := ⟨⟨⟨⟨2023, 12, 31⟩, by decide, by decide⟩,
      ⟨86370, 0, by decide, by decide⟩⟩, ⟨60, by decide, by decide⟩⟩
    let far : LocalDateTime := ⟨⟨⟨10000, 1, 1⟩, by decide, by decide⟩, .midnight⟩
    (registry.convert .registryOrder .default 1 (.dateTime m) .string =
        some (.ok ⟨.string "2024-01-01T00:00:30+00:01", false⟩) ∧
      registry.convert .registryOrder .default 1 (.string "2024-01-01T00:00:30+00:01") .dateTime =
        some (.ok ⟨.dateTime moved, false⟩)) ∧
      ¬SurvivesText .registryOrder .default 0 (.dateTime m) ∧
      ¬SurvivesText .registryOrder .default 0 (.instant far) := by
  intro m moved far
  have ho : Context.default.overrides = [] := rfl
  have htext : m.text false = "2024-01-01T00:00:30+00:01".toList := by decide
  have hread : Time.readMomentIn? .utc (m.text false) = some moved := by decide
  have hto := convert_to_text ho .registryOrder 0 (v := .dateTime m)
    (by simp [Value.ty, temporalTypes]) rfl
  have hback := convert_text ho .registryOrder 0 (t := .dateTime)
    (by simp [temporalTypes]) (Time.noBlanks_moment m false)
    (congrArg (fun r => some (Option.map Value.dateTime r)) hread)
  rw [htext, String.ofList_toList] at hto hback
  exact ⟨⟨hto, hback⟩, fun h => absurd ((survivesText_dateTime_iff ho .registryOrder 0 m).1 h)
    (by decide), fun h => absurd ((survivesText_instant_iff ho .registryOrder 0 far).1 h)
    (by decide)⟩

/-! ## Durations -/

/-- **Durations as text.** Every duration is converted to a text. The text is converted back to it
when it is shorter than `2 ^ 63` nanoseconds, and is refused as no duration when it is not. -/
theorem convert_duration_text (ho : ctx.overrides = []) (tie : TieBreak) (depth : Nat) (s : Span) :
    ∃ text, registry.convert tie ctx (depth + 1) (.duration s) .string =
        some (.ok ⟨.string text, false⟩) ∧
      registry.convert tie ctx (depth + 1) (.string text) .duration =
        some (if s.nanos.natAbs < 2 ^ 63 then .ok ⟨.duration s, false⟩
          else .error (.invalidFormat .duration text .isoText)) := by
  refine ⟨_, convert_to_text ho tie depth (by simp [Value.ty]) rfl, ?_⟩
  rw [convert_text ho tie depth (by simp) s.noBlanks_text rfl, Span.read?_text]
  split <;> rfl

/-- The longest negative duration that is read back. -/
theorem convert_duration_text_negative :
    Context.default.overrides = [] ∧ ∃ text,
      registry.convert .registryOrder .default 1
        (.duration ⟨-9223372036854775807, by decide, by decide⟩) .string =
        some (.ok ⟨.string text, false⟩) ∧
      registry.convert .registryOrder .default 1 (.string text) .duration =
        some (.ok ⟨.duration ⟨-9223372036854775807, by decide, by decide⟩, false⟩) :=
  ⟨rfl, convert_duration_text rfl .registryOrder 0 ⟨-9223372036854775807, by decide, by decide⟩⟩

/-- A duration of `2 ^ 63` nanoseconds has a text that is refused. -/
theorem long_duration_refused :
    let s : Span := ⟨9223372036854775808, by decide, by decide⟩
    registry.convert .registryOrder .default 1 (.duration s) .string =
        some (.ok ⟨.string "PT9223372036.854775808S", false⟩) ∧
      registry.convert .registryOrder .default 1 (.string "PT9223372036.854775808S") .duration =
        some (.error (.invalidFormat .duration "PT9223372036.854775808S" .isoText)) ∧
      ¬SurvivesText .registryOrder .default 0 (.duration s) := by
  intro s
  have ho : Context.default.overrides = [] := rfl
  have htext : s.text = "PT9223372036.854775808S".toList := by decide
  have hread : Span.read? s.text = none := s.read?_text
  have hto := convert_to_text ho .registryOrder 0 (v := .duration s) (by simp [Value.ty]) rfl
  have hback := convert_text ho .registryOrder 0 (t := .duration) (by simp) s.noBlanks_text rfl
  have hiff := survivesText_iff ho .registryOrder 0 (v := .duration s) (by simp [Value.ty]) rfl
    s.noBlanks_text rfl
  rw [hread] at hback hiff
  rw [htext, String.ofList_toList] at hto hback
  exact ⟨hto, hback, fun h => Option.some_ne_none _ (hiff.1 h).symm⟩

/-! ## Offsets -/

theorem convert_text_to_offset (ho : ctx.overrides = []) (tie : TieBreak) (depth : Nat)
    {s : String} (hv : v.text? = some s) :
    registry.convert tie ctx (depth + 1) v .zoneOffset =
      some ((Offset.read? (Text.trim s.toList)).elim
        (.error (.invalidFormat .zoneOffset s .isoText)) fun o => .ok ⟨.zoneOffset o, false⟩) := by
  have hi : ⟨.charSequence, .zoneOffset, Scalar.textToTemporal⟩ ∈ items := by
    simp [items, temporalItems]
  have hserved : ∀ t ∈ [Ty.string, .stringBuilder], ServedBy .charSequence t .zoneOffset := by
    decide
  rw [convert_of_text ho tie depth hv (hserved _ (ty_of_text? hv)) hi rfl]
  cases Offset.read? (Text.trim s.toList) <;> rfl

/-- **Text as offsets.** Trimmed of blanks, a text that denotes an offset becomes that offset, and
so does a signed text that denotes one when all its colons are dropped, wherever they stood. Every
other text is refused. -/
theorem convert_offset_text (ho : ctx.overrides = []) (tie : TieBreak) (depth : Nat) {s : String}
    (hv : v.text? = some s) :
    let cs := Text.trim s.toList
    let Read (o : Offset) : Prop :=
      Offset.Denotes cs o ∨ Offset.IsSigned cs ∧ Offset.Denotes (Offset.withoutColons cs) o
    (∀ o, registry.convert tie ctx (depth + 1) v .zoneOffset =
        some (.ok ⟨.zoneOffset o, false⟩) ↔ Read o) ∧
      (registry.convert tie ctx (depth + 1) v .zoneOffset =
        some (.error (.invalidFormat .zoneOffset s .isoText)) ↔ ∀ o, ¬Read o) := by
  intro cs Read
  have hread (o : Offset) : Offset.read? cs = some o ↔ Read o := Offset.read?_eq_some_iff
  rw [convert_text_to_offset ho tie depth hv]
  simp only [← hread]
  cases Offset.read? cs with
  | none => simp
  | some p => simp

/-- An offset to the second among blanks, and a whole day, which is no offset. -/
theorem convert_offset_text_day :
    let convert (s : String) := registry.convert .registryOrder .default 1 (.string s) .zoneOffset
    Context.default.overrides = [] ∧ (Value.string " -05:00:01 ").text? = some " -05:00:01 " ∧
      convert " -05:00:01 " = some (.ok ⟨.zoneOffset ⟨-18001, by decide, by decide⟩, false⟩) ∧
      convert "+24" = some (.error (.invalidFormat .zoneOffset "+24" .isoText)) := by
  intro convert
  refine ⟨rfl, rfl, ?_, ?_⟩
  · refine ((convert_offset_text rfl .registryOrder 0 rfl).1 _).2 (.inl ?_)
    have hfields : Offset.Fields ("05".toList ++ [':'] ++ "00".toList ++ [':'] ++ "01".toList)
        5 0 1 :=
      .seconds (.inr rfl) ⟨rfl, List.all_eq_true.1 rfl, rfl⟩ ⟨rfl, List.all_eq_true.1 rfl, rfl⟩
        ⟨rfl, List.all_eq_true.1 rfl, rfl⟩
    exact .signed (.inr rfl) hfields (by decide) (by decide) rfl
  · refine (convert_offset_text rfl .registryOrder 0 rfl).2.2 fun o h => ?_
    have hread : Offset.read? (Text.trim "+24".toList) = none := by decide
    exact Option.some_ne_none o ((Offset.read?_eq_some_iff.2 h).symm.trans hread)

/-- A colon in the middle of the hours is not seen: no offset is written like this, and this is
read as ten hours. -/
theorem misplaced_colon_read :
    (∀ o, ¬Offset.Denotes "+1:000".toList o) ∧
      registry.convert .registryOrder .default 1 (.string "+1:000") .zoneOffset =
        some (.ok ⟨.zoneOffset ⟨36000, by decide, by decide⟩, false⟩) := by
  refine ⟨fun o h => ?_, ?_⟩
  · cases h with
    | utc name => simp [Offset.utcNames] at name
    | signed _ fields =>
      have hcolon := fields.isDigit_of_mem_take ':' (by decide)
      cases hcolon
  · have hread : Offset.read? (Text.trim "+1:000".toList) =
        some ⟨36000, by decide, by decide⟩ := by decide
    rw [convert_text_to_offset rfl .registryOrder 0 rfl, hread]
    rfl

end Standard

end Recast
