/-
Text as an array of bytes, and arrays of bytes as text.

The array of some bytes is converted to a text exactly when the text is
converted to that array: the conversions are the two directions of the
character set of the context, and the signed bytes of an array keep the bits of
the bytes (`Integral.ofByte_toByte`). What a conversion gives is therefore
converted back to what it was made of, and a conversion that gives nothing says
that the text or the bytes are not in the set (`convert_text_and_bytes`).
-/
import Recast.Proofs.Standard.Resolution
import Recast.Proofs.Text.Charset

namespace Recast

/-- A number of width byte is that of its bits. -/
theorem Integral.ofByte_toByte {n : Integral} (h : n.width = .byte) : ofByte n.toByte = n := by
  obtain ⟨width, val, holds⟩ := n
  obtain rfl : width = .byte := h
  have hval : -2 ^ 7 ≤ val ∧ val < 2 ^ 7 := by
    simp only [Width.Holds, Width.min, Width.max, Width.bits] at holds
    omega
  simp [ofByte, toByte, Int8.toInt_ofInt_of_le hval.1 hval.2]

namespace Value

/-- The array of some bytes. -/
def bytes (bs : List UInt8) : Value :=
  .array (.integral .byte) (bs.map fun b => .integral (.ofByte b))

theorem exists_bytes {es : List Value} (h : ∀ e ∈ es, ∃ n, e = .integral n ∧ n.width = .byte) :
    ∃ bs, .array (.integral .byte) es = bytes bs := by
  induction es with
  | nil => exact ⟨[], rfl⟩
  | cons e es ih =>
    obtain ⟨⟨n, rfl, hn⟩, hes⟩ := List.forall_mem_cons.1 h
    obtain ⟨bs, hbs⟩ := ih hes
    refine ⟨n.toByte :: bs, ?_⟩
    simp only [bytes, array.injEq, true_and] at hbs
    simp [bytes, hbs, Integral.ofByte_toByte hn]

end Value

namespace Scalar

theorem bytesOf_map (bs : List UInt8) :
    bytesOf (bs.map fun b => .integral (.ofByte b)) = .ok bs := by
  induction bs with
  | nil => rfl
  | cons b bs ih =>
    have hwidth : (Integral.ofByte b).width = .byte := rfl
    simp [bytesOf, hwidth, ih, Except.map]

end Scalar

namespace Standard

variable {tie : TieBreak} {ctx : Context} {es : List Value}

theorem servedBy_bytes :
    ServedBy .charSequence .string (.array (.integral .byte)) ∧
      ServedBy (.array (.integral .byte)) (.array (.integral .byte)) .string := by
  decide

theorem convert_text_bytes (ho : ctx.overrides = []) (tie : TieBreak) (depth : Nat) (s : String) :
    registry.convert tie ctx (depth + 1) (.string s) (.array (.integral .byte)) =
      match ctx.env.charset.encode s.toList with
      | .ok bs => some (.ok ⟨.bytes bs, false⟩)
      | .error c => some (.error
          (.invalidFormat (.array (.integral .byte)) s (.notRepresentable c ctx.env.charset))) := by
  have hi : ⟨.charSequence, .array (.integral .byte), Scalar.textToBytes⟩ ∈ items := by
    simp [items, textItems]
  rw [convert_of_servedBy ho tie depth servedBy_bytes.1 hi]
  show some (Except.map _ (Scalar.encode ctx.env.charset s >>= _)) = _
  rw [Scalar.encode]
  cases ctx.env.charset.encode s.toList <;> rfl

theorem convert_bytes_text (ho : ctx.overrides = []) (tie : TieBreak) (depth : Nat)
    (bs : List UInt8) :
    registry.convert tie ctx (depth + 1) (.bytes bs) .string =
      match ctx.env.charset.decode bs with
      | .ok cs => some (.ok ⟨.string (.ofList cs), false⟩)
      | .error e => some (.error
          (.invalidFormat .string (Scalar.bytesText bs) (.notDecodable e))) := by
  have hi : ⟨.array (.integral .byte), .string, Scalar.bytesToString⟩ ∈ items := by
    simp [items, textItems]
  rw [convert_of_servedBy ho tie depth servedBy_bytes.2 hi]
  show some (Except.map _ (Scalar.bytesOf (bs.map _) >>= _)) = _
  rw [Scalar.bytesOf_map]
  show some (Except.map _ (Scalar.decode ctx.env.charset bs >>= _)) = _
  rw [Scalar.decode]
  cases ctx.env.charset.decode bs <;> rfl

/-- **Text and bytes.** In every character set, bytes are decoded to a text exactly when it is
encoded as them. So a text that is converted to an array of bytes is what the array is converted
back to, and an array of bytes that is converted to a text is what the text is converted back to.
Else the text has a character that the set lacks, or the bytes are none of the set. -/
theorem convert_text_and_bytes (ho : ctx.overrides = []) (tie : TieBreak) (depth depth' : Nat) :
    let toBytes (v : Value) := registry.convert tie ctx (depth + 1) v (.array (.integral .byte))
    let toText (v : Value) := registry.convert tie ctx (depth' + 1) v .string
    (∀ (charset : Charset) cs bs, charset.decode bs = .ok cs ↔ charset.encode cs = .ok bs) ∧
      (∀ s, (∃ c, toBytes (.string s) = some (.ok c) ∧
          toText c.value = some (.ok ⟨.string s, false⟩)) ∨
        ∃ c ∈ s.toList, toBytes (.string s) = some (.error
          (.invalidFormat (.array (.integral .byte)) s (.notRepresentable c ctx.env.charset)))) ∧
      ∀ es, (∀ e ∈ es, ∃ n, e = .integral n ∧ n.width = .byte) →
        (∃ s, toText (.array (.integral .byte) es) = some (.ok ⟨.string s, false⟩) ∧
          toBytes (.string s) = some (.ok ⟨.array (.integral .byte) es, false⟩)) ∨
        ∃ input e, toText (.array (.integral .byte) es) =
          some (.error (.invalidFormat .string input (.notDecodable e))) := by
  intro toBytes toText
  refine ⟨fun charset cs bs => charset.decode_eq_ok_iff, fun s => ?_, fun es hes => ?_⟩
  · have hbytes := convert_text_bytes ho tie depth s
    cases hencode : ctx.env.charset.encode s.toList with
    | ok bs =>
      simp only [hencode] at hbytes
      have hdecode := ctx.env.charset.decode_eq_ok_iff.2 hencode
      refine .inl ⟨_, hbytes, ?_⟩
      simp [toText, convert_bytes_text ho, hdecode]
    | error c =>
      simp only [hencode] at hbytes
      exact .inr ⟨c, Charset.mem_of_encode_eq_error hencode, hbytes⟩
  · obtain ⟨bs, hbs⟩ := Value.exists_bytes hes
    rw [hbs]
    have htext := convert_bytes_text ho tie depth' bs
    cases hdecode : ctx.env.charset.decode bs with
    | ok cs =>
      simp only [hdecode] at htext
      have hencode := ctx.env.charset.decode_eq_ok_iff.1 hdecode
      refine .inl ⟨_, htext, ?_⟩
      simp [toBytes, convert_text_bytes ho, hencode]
    | error e =>
      simp only [hdecode] at htext
      exact .inr ⟨_, e, htext⟩

/-- In UTF-8 a text of two characters comes back from its three bytes, the bytes come back from it,
and the first byte alone ends inside a character. -/
theorem convert_text_and_bytes_accent :
    let toBytes (v : Value) :=
      registry.convert .registryOrder .default 1 v (.array (.integral .byte))
    let toText (v : Value) := registry.convert .registryOrder .default 1 v .string
    let whole : List Value := [.integral (.ofByte 0xC3), .integral (.ofByte 0xA9),
      .integral (.ofByte 0x21)]
    let cut : List Value := [.integral (.ofByte 0xC3)]
    (∀ e ∈ whole, ∃ n, e = .integral n ∧ n.width = .byte) ∧
      (∀ e ∈ cut, ∃ n, e = .integral n ∧ n.width = .byte) ∧
      (∃ c, toBytes (.string "é!") = some (.ok c) ∧
        toText c.value = some (.ok ⟨.string "é!", false⟩)) ∧
      (∃ s, toText (.array (.integral .byte) whole) = some (.ok ⟨.string s, false⟩) ∧
        toBytes (.string s) = some (.ok ⟨.array (.integral .byte) whole, false⟩)) ∧
      ∃ input e, toText (.array (.integral .byte) cut) =
        some (.error (.invalidFormat .string input (.notDecodable e))) := by
  intro toBytes toText whole cut
  have hwhole : ∀ e ∈ whole, ∃ n, e = .integral n ∧ n.width = .byte := by
    simp [whole, Integral.ofByte]
  have hcut : ∀ e ∈ cut, ∃ n, e = .integral n ∧ n.width = .byte := by
    simp [cut, Integral.ofByte]
  have ho : Context.default.overrides = [] := rfl
  obtain ⟨-, htext, hbytes⟩ := convert_text_and_bytes ho .registryOrder 0 0
  have hencoded : toBytes (.string "é!") = some (.ok ⟨.array (.integral .byte) whole, false⟩) :=
    convert_text_bytes ho .registryOrder 0 "é!"
  have hdecoded : toText (.array (.integral .byte) whole) = some (.ok ⟨.string "é!", false⟩) :=
    convert_bytes_text ho .registryOrder 0 [0xC3, 0xA9, 0x21]
  have hended : toText (.array (.integral .byte) cut) =
      some (.error (.invalidFormat .string "[195]" (.notDecodable (.utf8 ⟨0, none⟩)))) :=
    convert_bytes_text ho .registryOrder 0 [0xC3]
  refine ⟨hwhole, hcut, (htext "é!").resolve_right ?_, (hbytes whole hwhole).resolve_right ?_,
    (hbytes cut hcut).resolve_left ?_⟩
  · rintro ⟨c, -, herror⟩
    cases hencoded.symm.trans herror
  · rintro ⟨input, e, herror⟩
    cases hdecoded.symm.trans herror
  · rintro ⟨s, hok, -⟩
    cases hended.symm.trans hok

end Standard

end Recast
