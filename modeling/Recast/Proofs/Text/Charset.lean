/-
Encoding and decoding undo each other, in every character set.

Some bytes are decoded to a text exactly when the text is encoded as these
bytes (`decode_eq_ok_iff`). In the sets with one byte for a character that is
one statement about both, `encodeBelow_eq_ok_iff`: a text is encoded as the
bytes below the limit whose characters it has.
-/
import Recast.Proofs.Text.Utf8
import Recast.Text.Charset

namespace Recast.Charset

variable {limit : Nat} {cs : List Char} {bytes : List UInt8}

theorem encodeBelow_cons_eq_ok_iff {c : Char} : encodeBelow limit (c :: cs) = .ok bytes ↔
    c.toNat < limit ∧ ∃ rest, encodeBelow limit cs = .ok rest ∧
      bytes = UInt8.ofNat c.toNat :: rest := by
  rw [encodeBelow]
  split
  next hc =>
    cases encodeBelow limit cs with
    | error e => simp [Except.map]
    | ok rest => simp [Except.map, hc, eq_comm]
  next hc => simp [hc]

theorem char_byte_iff {c : Char} {b : UInt8} (h : limit ≤ 256) :
    c.toNat < limit ∧ b = UInt8.ofNat c.toNat ↔ b.toNat < limit ∧ Char.ofNat b.toNat = c := by
  constructor
  · rintro ⟨hc, rfl⟩
    rw [Text.Utf8.toNat_byte (by omega)]
    exact ⟨hc, Char.ofNat_toNat c⟩
  · rintro ⟨hb, rfl⟩
    have hvalid : b.toNat.isValidChar := .inl (by have := b.toNat_lt; omega)
    rw [Text.Utf8.toNat_ofNat hvalid]
    exact ⟨hb, UInt8.ofNat_toNat.symm⟩

/-- A text is encoded as the bytes below the limit whose characters it has. -/
theorem encodeBelow_eq_ok_iff (h : limit ≤ 256) : encodeBelow limit cs = .ok bytes ↔
    (∀ b ∈ bytes, b.toNat < limit) ∧ decodeEach bytes = cs := by
  induction cs generalizing bytes with
  | nil =>
    cases bytes <;> simp [encodeBelow, decodeEach]
  | cons c cs ih =>
    rw [encodeBelow_cons_eq_ok_iff]
    constructor
    · rintro ⟨hc, rest, hrest, rfl⟩
      obtain ⟨hb, hchar⟩ := (char_byte_iff h).1 ⟨hc, rfl⟩
      obtain ⟨hbelow, rfl⟩ := ih.1 hrest
      exact ⟨List.forall_mem_cons.2 ⟨hb, hbelow⟩, congrArg (· :: decodeEach rest) hchar⟩
    · cases bytes with
      | nil =>
        rintro ⟨-, hnil⟩
        cases hnil
      | cons b rest =>
        rintro ⟨hbelow, hcons⟩
        obtain ⟨hb, hbelow⟩ := List.forall_mem_cons.1 hbelow
        obtain ⟨hchar, htail⟩ := List.cons.inj hcons
        obtain ⟨hc, hbyte⟩ := (char_byte_iff h).2 ⟨hb, hchar⟩
        exact ⟨hc, rest, ih.2 ⟨hbelow, htail⟩, congrArg (· :: rest) hbyte⟩

/-- Bytes are decoded to a text exactly when it is encoded as these bytes. -/
theorem decode_eq_ok_iff (charset : Charset) :
    charset.decode bytes = .ok cs ↔ charset.encode cs = .ok bytes := by
  cases charset with
  | utf8 =>
    rw [encode, Except.ok.injEq, ← Text.Utf8.decode_eq_ok_iff, decode]
    cases Text.Utf8.decode bytes <;> simp
  | latin1 =>
    have hbelow : ∀ b ∈ bytes, b.toNat < 256 := fun b _ => b.toNat_lt
    rw [encode, encodeBelow_eq_ok_iff (by decide), decode, Except.ok.injEq,
      and_iff_right hbelow]
  | ascii =>
    rw [encode, encodeBelow_eq_ok_iff (by decide), decode]
    cases hfind : bytes.find? fun b => 128 ≤ b.toNat with
    | none => simp_all
    | some b =>
      have hb : b ∈ bytes := List.mem_of_find?_eq_some hfind
      have hhigh : 128 ≤ b.toNat := by simpa using List.find?_some hfind
      have hnot : ¬ ∀ b ∈ bytes, b.toNat < 128 := fun hall => absurd (hall b hb) (by omega)
      simp [hnot]

theorem mem_of_encodeBelow_eq_error {c : Char} (h : encodeBelow limit cs = .error c) : c ∈ cs := by
  induction cs with
  | nil => cases h
  | cons d cs ih =>
    rw [encodeBelow] at h
    split at h
    next =>
      cases hrest : encodeBelow limit cs with
      | error e =>
        rw [hrest] at h
        cases h
        exact List.mem_cons_of_mem d (ih hrest)
      | ok rest =>
        rw [hrest] at h
        cases h
    next =>
      cases h
      exact List.mem_cons_self

theorem mem_of_encode_eq_error {charset : Charset} {c : Char} (h : charset.encode cs = .error c) :
    c ∈ cs := by
  cases charset with
  | utf8 => cases h
  | latin1 | ascii => exact mem_of_encodeBelow_eq_error h

end Recast.Charset
