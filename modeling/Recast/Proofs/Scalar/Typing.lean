/-
What scalar conversions make.

`Makes f t` says that the conversion `f`, asked for `t`, asks for no other
conversion and returns, if anything, a well typed value of exactly the type
`t`. Conversions into numbers, times and enum types read the target and make
it, whichever it is; the others make one fixed type. Which source a value has
does not matter: a conversion that meets a value it cannot read fails.
-/
import Recast.Proofs.Conversion.Procedure
import Recast.Proofs.Value.Typing
import Recast.Scalar.Enum
import Recast.Scalar.Null
import Recast.Scalar.Temporal
import Recast.Scalar.Text

namespace Recast.Scalar

/-- Asked for a type, a conversion asks for no other, and makes values of exactly that type. -/
def Makes (f : Conversion) (t : Ty) : Prop :=
  ∀ v call, call.target = t →
    (f v call).Ensures (fun _ => False) (fun _ _ => True) fun w => w.Inhabits t

variable {t : Ty} {v w : Value}

theorem makes_ofPure {f : Value → Call → Except ConversionError Value}
    (h : ∀ v call w, call.target = t → f v call = .ok w → w.Inhabits t) : Makes (.ofPure f) t :=
  fun v call ht => Procedure.ensures_ofExcept fun w hw => h v call w ht hw

theorem makes_map {α : Type} {read : Value → Call → Except ConversionError α} {wrap : α → Value}
    (h : ∀ a, (wrap a).Inhabits t) :
    Makes (.ofPure fun v call => read v call >>= fun a => pure (wrap a)) t := by
  refine makes_ofPure fun v call w _ hw => ?_
  obtain ⟨a, -, ha⟩ := bind_eq_ok_iff.1 hw
  cases ha
  exact h a

theorem expect_eq_ok_iff {α : Type} {found : Option α} {a : α} :
    expect found v t = .ok a ↔ found = some a := by
  cases found <;> simp [expect]

/-! ## Numbers -/

theorem inhabits_integralValue {width : Width} {n : Int}
    (h : Numeric.integralValue width n = .ok w) : w.Inhabits (.integral width) := by
  unfold Numeric.integralValue at h
  cases hn : Integral.ofInt? width n with
  | none => simp [hn] at h
  | some i =>
    simp only [hn, Except.ok.injEq] at h
    subst h
    exact ⟨rfl, congrArg Ty.integral (Integral.ofInt?_eq_some.1 hn).1⟩

theorem inhabits_toSingle {x : Numeric} (h : x.toSingle = .ok w) : w.Inhabits .float := by
  simp only [Numeric.toSingle] at h
  split at h
  · split at h
    · cases h
    · cases h
      exact ⟨rfl, rfl⟩
  · cases h
    exact ⟨rfl, rfl⟩

theorem inhabits_toDecimal {x : Numeric} (h : x.toDecimal = .ok w) : w.Inhabits .decimal := by
  simp only [Numeric.toDecimal] at h
  split at h
  · cases h
    exact ⟨rfl, rfl⟩
  · cases h

theorem inhabits_toValue {x : Numeric} (h : x.toValue t = .ok w) : w.Inhabits t := by
  cases t with
  | integral width =>
    obtain ⟨n, -, hn⟩ := bind_eq_ok_iff.1 h
    exact inhabits_integralValue hn
  | float => exact inhabits_toSingle h
  | double =>
    cases h
    exact ⟨rfl, rfl⟩
  | decimal => exact inhabits_toDecimal h
  | _ =>
    obtain ⟨n, -, hn⟩ := bind_eq_ok_iff.1 h
    cases hn

theorem makes_numberToNumber (t : Ty) : Makes numberToNumber t := by
  refine makes_ofPure fun v call w ht hw => ?_
  obtain ⟨x, -, hx⟩ := bind_eq_ok_iff.1 hw
  exact inhabits_toValue (ht ▸ hx)

theorem makes_textToNumber (t : Ty) : Makes textToNumber t := by
  refine makes_ofPure fun v call w ht hw => ?_
  obtain ⟨text, -, hw⟩ := bind_eq_ok_iff.1 hw
  obtain ⟨x, -, hx⟩ := bind_eq_ok_iff.1 hw
  exact inhabits_toValue (ht ▸ hx)

theorem makes_booleanToNumber (t : Ty) : Makes booleanToNumber t := by
  refine makes_ofPure fun v call w ht hw => ?_
  cases v with
  | boolean b => exact inhabits_toValue (ht ▸ hw)
  | _ => cases hw

theorem makes_charToNumber (t : Ty) : Makes charToNumber t := by
  refine makes_ofPure fun v call w ht hw => ?_
  cases v with
  | char c => exact inhabits_toValue (ht ▸ hw)
  | _ => cases hw

/-! ## Constants -/

theorem targetEnum?_eq_some_iff {E : EnumType} : targetEnum? t = some E ↔ t = .enum E := by
  cases t <;> simp [targetEnum?]

theorem find_type {E : EnumType} {limit : Nat} {name : String} {c : Constant}
    (h : Constant.find E limit name = .ok c) : c.type = E := by
  simp only [Constant.find] at h
  split at h
  · cases h
  split at h
  next found hfound =>
    cases h
    obtain ⟨n, -, rfl⟩ := Option.map_eq_some_iff.1 hfound
    rfl
  next => cases h

theorem findOrdinal_type {E : EnumType} {n : Int} {c : Constant}
    (h : Constant.findOrdinal E n = .ok c) : c.type = E := by
  simp only [Constant.findOrdinal] at h
  split at h
  next found hfound =>
    cases h
    split at hfound
    · unfold Constant.ofOrdinal? at hfound
      split at hfound
      · cases hfound
        rfl
      · cases hfound
    · cases hfound
  next => cases h

theorem inhabits_enum {E : EnumType} {c : Constant} (ht : targetEnum? t = some E)
    (hc : c.type = E) : (Value.enum c).Inhabits t := by
  rw [targetEnum?_eq_some_iff.1 ht, ← hc]
  exact ⟨rfl, rfl⟩

theorem makes_nameToEnum (t : Ty) : Makes nameToEnum t := by
  refine makes_ofPure fun v call w ht hw => ?_
  subst ht
  obtain ⟨E, hE, hw⟩ := bind_eq_ok_iff.1 hw
  obtain ⟨name, -, hw⟩ := bind_eq_ok_iff.1 hw
  obtain ⟨c, hc, hw⟩ := bind_eq_ok_iff.1 hw
  cases hw
  exact inhabits_enum (expect_eq_ok_iff.1 hE) (find_type hc)

theorem makes_ordinalToEnum (t : Ty) : Makes ordinalToEnum t := by
  refine makes_ofPure fun v call w ht hw => ?_
  subst ht
  obtain ⟨E, hE, hw⟩ := bind_eq_ok_iff.1 hw
  split at hw
  · obtain ⟨c, hc, hw⟩ := bind_eq_ok_iff.1 hw
    cases hw
    exact inhabits_enum (expect_eq_ok_iff.1 hE) (findOrdinal_type hc)
  · cases hw

theorem makes_enumToEnum (t : Ty) : Makes enumToEnum t := by
  refine makes_ofPure fun v call w ht hw => ?_
  subst ht
  obtain ⟨E, hE, hw⟩ := bind_eq_ok_iff.1 hw
  obtain ⟨d, -, hw⟩ := bind_eq_ok_iff.1 hw
  obtain ⟨c, hc, hw⟩ := bind_eq_ok_iff.1 hw
  cases hw
  exact inhabits_enum (expect_eq_ok_iff.1 hE) (find_type hc)

theorem makes_enumToName : Makes enumToName .string := makes_map fun _ => ⟨rfl, rfl⟩

theorem makes_enumToOrdinal (width : Width) : Makes enumToOrdinal (.integral width) := by
  refine makes_ofPure fun v call w ht hw => ?_
  obtain ⟨c, -, hw⟩ := bind_eq_ok_iff.1 hw
  rw [ht] at hw
  exact inhabits_integralValue hw

theorem makes_enumToType : Makes enumToType .typeRef := makes_map fun _ => ⟨rfl, rfl⟩

/-! ## Text, truth values and characters -/

theorem makes_scalarToString : Makes scalarToString .string := makes_map fun _ => ⟨rfl, rfl⟩

theorem makes_textToBuilder : Makes textToBuilder .stringBuilder := makes_map fun _ => ⟨rfl, rfl⟩

theorem makes_bytesToString : Makes bytesToString .string := by
  refine makes_ofPure fun v call w _ hw => ?_
  obtain ⟨es, -, hw⟩ := bind_eq_ok_iff.1 hw
  obtain ⟨bytes, -, hw⟩ := bind_eq_ok_iff.1 hw
  obtain ⟨text, -, hw⟩ := bind_eq_ok_iff.1 hw
  cases hw
  exact ⟨rfl, rfl⟩

theorem makes_charsToString : Makes charsToString .string := by
  refine makes_ofPure fun v call w _ hw => ?_
  obtain ⟨es, -, hw⟩ := bind_eq_ok_iff.1 hw
  obtain ⟨cs, -, hw⟩ := bind_eq_ok_iff.1 hw
  cases hw
  exact ⟨rfl, rfl⟩

theorem inhabits_array {α : Type} (element : α → Value) (h : ∀ a, (element a).Inhabits t)
    (as : List α) : (Value.array t (as.map element)).Inhabits (.array t) := by
  refine ⟨Value.isWellTyped_array_iff.2 fun e he => ?_, rfl⟩
  obtain ⟨a, -, rfl⟩ := List.mem_map.1 he
  exact ⟨(h a).fits, (h a).1⟩

theorem makes_textToBytes : Makes textToBytes (.array (.integral .byte)) := by
  refine makes_ofPure fun v call w _ hw => ?_
  obtain ⟨text, -, hw⟩ := bind_eq_ok_iff.1 hw
  obtain ⟨bytes, -, hw⟩ := bind_eq_ok_iff.1 hw
  cases hw
  exact inhabits_array (fun b => .integral (.ofByte b)) (fun _ => ⟨rfl, rfl⟩) bytes

theorem makes_textToChars : Makes textToChars (.array .char) :=
  makes_map fun text => inhabits_array .char (fun _ => ⟨rfl, rfl⟩) text.toList

theorem makes_charToBoolean : Makes charToBoolean .boolean := by
  refine makes_ofPure fun v call w _ hw => ?_
  cases v with
  | char c =>
    simp only at hw
    split at hw
    · cases hw
      exact ⟨rfl, rfl⟩
    split at hw
    · cases hw
      exact ⟨rfl, rfl⟩
    · cases hw
  | _ => cases hw

theorem makes_textToBoolean : Makes textToBoolean .boolean := by
  refine makes_ofPure fun v call w _ hw => ?_
  obtain ⟨text, -, hw⟩ := bind_eq_ok_iff.1 hw
  split at hw <;> cases hw
  exact ⟨rfl, rfl⟩

theorem makes_numberToBoolean : Makes numberToBoolean .boolean := makes_map fun _ => ⟨rfl, rfl⟩

theorem makes_booleanToChar : Makes booleanToChar .char := by
  refine makes_ofPure fun v call w _ hw => ?_
  cases v with
  | boolean b =>
    cases hw
    exact ⟨rfl, rfl⟩
  | _ => cases hw

theorem makes_textToChar : Makes textToChar .char := by
  refine makes_ofPure fun v call w _ hw => ?_
  obtain ⟨text, -, hw⟩ := bind_eq_ok_iff.1 hw
  split at hw <;> cases hw
  exact ⟨rfl, rfl⟩

theorem makes_numberToChar : Makes numberToChar .char := by
  refine makes_ofPure fun v call w _ hw => ?_
  obtain ⟨n, -, hw⟩ := bind_eq_ok_iff.1 hw
  obtain ⟨code, -, hw⟩ := bind_eq_ok_iff.1 hw
  split at hw <;> cases hw
  exact ⟨rfl, rfl⟩

theorem makes_textToLocale : Makes textToLocale .locale := by
  refine makes_ofPure fun v call w _ hw => ?_
  obtain ⟨text, -, hw⟩ := bind_eq_ok_iff.1 hw
  split at hw <;> cases hw
  exact ⟨rfl, rfl⟩

theorem makes_textToType : Makes textToType .typeRef := by
  refine makes_ofPure fun v call w _ hw => ?_
  obtain ⟨text, -, hw⟩ := bind_eq_ok_iff.1 hw
  split at hw <;> cases hw
  exact ⟨rfl, rfl⟩

/-! ## Times -/

theorem inhabits_readTemporal {zone : Offset} {cs : List Char}
    (h : readTemporal zone cs t = some (some w)) : w.Inhabits t := by
  cases t <;> simp only [readTemporal, Option.some.injEq, reduceCtorEq] at h <;>
    obtain ⟨x, -, rfl⟩ := Option.map_eq_some_iff.1 h <;> exact ⟨rfl, rfl⟩

theorem makes_textToTemporal (t : Ty) : Makes textToTemporal t := by
  refine makes_ofPure fun v call w ht hw => ?_
  subst ht
  obtain ⟨text, -, hw⟩ := bind_eq_ok_iff.1 hw
  obtain ⟨found, hfound, hw⟩ := bind_eq_ok_iff.1 hw
  split at hw <;> cases hw
  exact inhabits_readTemporal (expect_eq_ok_iff.1 hfound)

theorem inhabits_moveTemporal {zone : Offset} (h : moveTemporal zone v t = .ok w) :
    w.Inhabits t := by
  obtain ⟨⟨wall, moment⟩, -, h⟩ := bind_eq_ok_iff.1 h
  simp only at h
  split at h <;> cases h <;> exact ⟨rfl, rfl⟩

theorem makes_temporalToTemporal (t : Ty) : Makes temporalToTemporal t :=
  makes_ofPure fun _ _ _ ht hw => inhabits_moveTemporal (ht ▸ hw)

theorem makes_millisToTemporal (t : Ty) : Makes millisToTemporal t := by
  refine makes_ofPure fun v call w ht hw => ?_
  subst ht
  obtain ⟨millis, -, hw⟩ := bind_eq_ok_iff.1 hw
  simp only at hw
  split at hw
  next hduration =>
    rw [hduration]
    split at hw <;> cases hw
    exact ⟨rfl, rfl⟩
  next =>
    split at hw
    · exact inhabits_moveTemporal hw
    · cases hw

theorem makes_temporalToString : Makes temporalToString .string := makes_map fun _ => ⟨rfl, rfl⟩

theorem makes_temporalToMillis : Makes temporalToMillis (.integral .long) := by
  refine makes_ofPure fun v call w _ hw => ?_
  obtain ⟨millis, -, hw⟩ := bind_eq_ok_iff.1 hw
  exact inhabits_integralValue hw

theorem makes_offsetOf : Makes offsetOf .zoneOffset := by
  refine makes_ofPure fun v call w _ hw => ?_
  cases v with
  | dateTime m =>
    cases hw
    exact ⟨rfl, rfl⟩
  | _ => cases hw

/-! ## Null -/

theorem inhabits_zeroOf (h : zeroOf t ≠ .null) : (zeroOf t).Inhabits t := by
  cases t <;> first | exact ⟨rfl, rfl⟩ | exact absurd rfl h

theorem makes_nullToZero (h : zeroOf t ≠ .null) : Makes nullToZero t := by
  refine makes_ofPure fun v call w ht hw => ?_
  cases hw
  rw [ht]
  exact inhabits_zeroOf h

theorem makes_nullToZone : Makes nullToZone .zoneOffset := by
  refine makes_ofPure fun v call w _ hw => ?_
  cases hw
  exact ⟨rfl, rfl⟩

theorem makes_nullToLocale : Makes nullToLocale .locale := by
  refine makes_ofPure fun v call w _ hw => ?_
  cases hw
  exact ⟨rfl, rfl⟩

end Recast.Scalar
