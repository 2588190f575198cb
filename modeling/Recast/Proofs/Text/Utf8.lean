/-
UTF-8 text and its bytes determine each other.

Between the bytes of a character and what decoding takes off the front of some
bytes stands one notion, a sequence that writes a code point (`Writes`): a
character is encoded as such a sequence, such a sequence is the encoding of its
character and of no other, and decoding takes nothing but such sequences. So
bytes are decoded exactly when they are the bytes of a text, and to that text
(`decode_eq_ok_iff`): overlong forms, surrogates and sequences cut short are
not the bytes of any.
-/
import Recast.Text.Utf8

namespace Recast.Text.Utf8

/-- The bytes of a sequence as decoding takes them, and the code point that they write. -/
inductive Writes : List UInt8 → Nat → Prop
  | one {b : UInt8} (h : b.toNat < 0x80) : Writes [b] b.toNat
  | two {b b₁ : UInt8} {lead : Lead} (hlead : lead? b = some lead) (hmore : lead.more = 1)
      (hlow : lead.low ≤ b₁.toNat) (hhigh : b₁.toNat ≤ lead.high) :
      Writes [b, b₁] (push lead.bits b₁)
  | three {b b₁ b₂ : UInt8} {lead : Lead} (hlead : lead? b = some lead) (hmore : lead.more = 2)
      (hlow : lead.low ≤ b₁.toNat) (hhigh : b₁.toNat ≤ lead.high) (h₂ : isTail b₂) :
      Writes [b, b₁, b₂] (push (push lead.bits b₁) b₂)
  | four {b b₁ b₂ b₃ : UInt8} {lead : Lead} (hlead : lead? b = some lead) (hmore : lead.more = 3)
      (hlow : lead.low ≤ b₁.toNat) (hhigh : b₁.toNat ≤ lead.high) (h₂ : isTail b₂)
      (h₃ : isTail b₃) : Writes [b, b₁, b₂, b₃] (push (push (push lead.bits b₁) b₂) b₃)

variable {b b₁ b₂ b₃ : UInt8} {lead : Lead} {n index : Nat} {s rest bytes : List UInt8}
variable {cs : List Char}

theorem isTail_iff : isTail b ↔ 0x80 ≤ b.toNat ∧ b.toNat ≤ 0xBF := by
  simp [isTail]

/-! ## Lead bytes -/

theorem lead?_eq_some_iff : lead? b = some lead ↔
    0xC2 ≤ b.toNat ∧ b.toNat < 0xE0 ∧ lead = ⟨1, 0x80, 0xBF, b.toNat - 0xC0⟩ ∨
    0xE0 ≤ b.toNat ∧ b.toNat < 0xF0 ∧ lead = ⟨2, if b.toNat = 0xE0 then 0xA0 else 0x80,
      if b.toNat = 0xED then 0x9F else 0xBF, b.toNat - 0xE0⟩ ∨
    0xF0 ≤ b.toNat ∧ b.toNat < 0xF5 ∧ lead = ⟨3, if b.toNat = 0xF0 then 0x90 else 0x80,
      if b.toNat = 0xF4 then 0x8F else 0xBF, b.toNat - 0xF0⟩ := by
  unfold lead?
  grind

theorem le_of_lead?_eq_some (h : lead? b = some lead) : 0x80 ≤ b.toNat := by
  rw [lead?_eq_some_iff] at h
  omega

theorem more_of_lead?_eq_some (h : lead? b = some lead) :
    lead.more = 1 ∨ lead.more = 2 ∨ lead.more = 3 := by
  rcases lead?_eq_some_iff.1 h with ⟨-, -, rfl⟩ | ⟨-, -, rfl⟩ | ⟨-, -, rfl⟩ <;> simp

theorem lead?_of_more_one (h : lead? b = some lead) (hmore : lead.more = 1) :
    0xC2 ≤ b.toNat ∧ b.toNat < 0xE0 ∧ lead.bits = b.toNat - 0xC0 ∧ lead.low = 0x80 ∧
      lead.high = 0xBF := by
  rcases lead?_eq_some_iff.1 h with ⟨hlow, hhigh, rfl⟩ | ⟨-, -, rfl⟩ | ⟨-, -, rfl⟩
  · exact ⟨hlow, hhigh, rfl, rfl, rfl⟩
  · cases hmore
  · cases hmore

/-- The byte after `E0` starts at `A0`, so that three bytes are needed, and the one after `ED` ends
at `9F`, before the surrogates. -/
theorem lead?_of_more_two (h : lead? b = some lead) (hmore : lead.more = 2) :
    0xE0 ≤ b.toNat ∧ b.toNat < 0xF0 ∧ lead.bits = b.toNat - 0xE0 ∧
      (0x80 ≤ lead.low ∧ lead.high ≤ 0xBF) ∧ (b.toNat = 0xE0 → 0xA0 ≤ lead.low) ∧
      (b.toNat = 0xED → lead.high ≤ 0x9F) := by
  rcases lead?_eq_some_iff.1 h with ⟨-, -, rfl⟩ | ⟨hlow, hhigh, rfl⟩ | ⟨-, -, rfl⟩
  · cases hmore
  · refine ⟨hlow, hhigh, rfl, ?_, ?_, ?_⟩ <;> grind
  · cases hmore

/-- The byte after `F0` starts at `90`, so that four bytes are needed, and the one after `F4` ends
at `8F`, with the last code point. -/
theorem lead?_of_more_three (h : lead? b = some lead) (hmore : lead.more = 3) :
    0xF0 ≤ b.toNat ∧ b.toNat < 0xF5 ∧ lead.bits = b.toNat - 0xF0 ∧
      (0x80 ≤ lead.low ∧ lead.high ≤ 0xBF) ∧ (b.toNat = 0xF0 → 0x90 ≤ lead.low) ∧
      (b.toNat = 0xF4 → lead.high ≤ 0x8F) := by
  rcases lead?_eq_some_iff.1 h with ⟨-, -, rfl⟩ | ⟨-, -, rfl⟩ | ⟨hlow, hhigh, rfl⟩
  · cases hmore
  · cases hmore
  · refine ⟨hlow, hhigh, rfl, ?_, ?_, ?_⟩ <;> grind

/-! ## The bytes of a character -/

theorem toNat_ofNat {n : Nat} (h : n.isValidChar) : (Char.ofNat n).toNat = n := by
  rw [Char.ofNat, dif_pos h]
  rfl

theorem toNat_byte {n : Nat} (h : n < 256) : (UInt8.ofNat n).toNat = n :=
  UInt8.toNat_ofNat_of_lt h

theorem byte_eq {n : Nat} (h : n = b.toNat) : UInt8.ofNat n = b := by
  rw [h, UInt8.ofNat_toNat]

/-- A sequence writes a code point that is a character, no surrogate and none past the last. -/
theorem Writes.isValidChar (h : Writes s n) : n.isValidChar := by
  show n < 0xD800 ∨ 0xDFFF < n ∧ n < 0x110000
  cases h with
  | one h => omega
  | two hlead hmore hlow hhigh =>
    have hrange := lead?_of_more_one hlead hmore
    unfold push
    omega
  | three hlead hmore hlow hhigh h₂ =>
    have hrange := lead?_of_more_two hlead hmore
    rw [isTail_iff] at h₂
    unfold push
    omega
  | four hlead hmore hlow hhigh h₂ h₃ =>
    have hrange := lead?_of_more_three hlead hmore
    rw [isTail_iff] at h₂ h₃
    unfold push
    omega

theorem Writes.encodeChar_eq (h : Writes s n) : encodeChar (Char.ofNat n) = s := by
  have hn := toNat_ofNat h.isValidChar
  unfold encodeChar
  simp only [hn]
  clear hn
  cases h with
  | one h => simp [h]
  | two hlead hmore hlow hhigh =>
    have hrange := lead?_of_more_one hlead hmore
    unfold push
    rw [if_neg (by omega), if_pos (by omega)]
    simp only [List.cons.injEq, and_true]
    exact ⟨byte_eq (by omega), byte_eq (by omega)⟩
  | three hlead hmore hlow hhigh h₂ =>
    have hrange := lead?_of_more_two hlead hmore
    rw [isTail_iff] at h₂
    unfold push
    rw [if_neg (by omega), if_neg (by omega), if_pos (by omega)]
    simp only [List.cons.injEq, and_true]
    exact ⟨byte_eq (by omega), byte_eq (by omega), byte_eq (by omega)⟩
  | four hlead hmore hlow hhigh h₂ h₃ =>
    have hrange := lead?_of_more_three hlead hmore
    rw [isTail_iff] at h₂ h₃
    unfold push
    rw [if_neg (by omega), if_neg (by omega), if_neg (by omega)]
    simp only [List.cons.injEq, and_true]
    exact ⟨byte_eq (by omega), byte_eq (by omega), byte_eq (by omega), byte_eq (by omega)⟩

theorem writes_two (hb : 0xC2 ≤ b.toNat ∧ b.toNat < 0xE0) (h₁ : isTail b₁) :
    Writes [b, b₁] (push (b.toNat - 0xC0) b₁) := by
  rw [isTail_iff] at h₁
  have hlead := lead?_eq_some_iff.2 (.inl ⟨hb.1, hb.2, rfl⟩)
  exact (Writes.two hlead rfl h₁.1 h₁.2 :)

theorem writes_three (hb : 0xE0 ≤ b.toNat ∧ b.toNat < 0xF0) (h₁ : isTail b₁) (h₂ : isTail b₂)
    (hlow : b.toNat = 0xE0 → 0xA0 ≤ b₁.toNat) (hhigh : b.toNat = 0xED → b₁.toNat ≤ 0x9F) :
    Writes [b, b₁, b₂] (push (push (b.toNat - 0xE0) b₁) b₂) := by
  rw [isTail_iff] at h₁
  have hlead := lead?_eq_some_iff.2 (.inr (.inl ⟨hb.1, hb.2, rfl⟩))
  exact (@Writes.three b b₁ b₂ _ hlead rfl (by grind) (by grind) h₂ :)

theorem writes_four (hb : 0xF0 ≤ b.toNat ∧ b.toNat < 0xF5) (h₁ : isTail b₁) (h₂ : isTail b₂)
    (h₃ : isTail b₃) (hlow : b.toNat = 0xF0 → 0x90 ≤ b₁.toNat)
    (hhigh : b.toNat = 0xF4 → b₁.toNat ≤ 0x8F) :
    Writes [b, b₁, b₂, b₃] (push (push (push (b.toNat - 0xF0) b₁) b₂) b₃) := by
  rw [isTail_iff] at h₁
  have hlead := lead?_eq_some_iff.2 (.inr (.inr ⟨hb.1, hb.2, rfl⟩))
  exact (@Writes.four b b₁ b₂ b₃ _ hlead rfl (by grind) (by grind) h₂ h₃ :)

theorem isTail_byte (n : Nat) : isTail (.ofNat (0x80 + n % 64)) := by
  rw [isTail_iff, toNat_byte (by omega)]
  omega

theorem writes_encodeChar (c : Char) : Writes (encodeChar c) c.toNat := by
  have hvalid : c.toNat < 0xD800 ∨ 0xDFFF < c.toNat ∧ c.toNat < 0x110000 := c.valid
  unfold encodeChar
  simp only [Nat.pow_zero, Nat.div_one]
  generalize c.toNat = n at hvalid ⊢
  have hsix (k : Nat) : (UInt8.ofNat (0x80 + k % 64)).toNat = 0x80 + k % 64 :=
    toNat_byte (by omega)
  split
  next h₁ =>
    have hb : (UInt8.ofNat n).toNat = n := toNat_byte (by omega)
    have hwrites := Writes.one (b := .ofNat n) (by omega)
    rwa [hb] at hwrites
  next h₁ =>
    split
    next h₂ =>
      have hb : (UInt8.ofNat (0xC0 + n / 64)).toNat = 0xC0 + n / 64 := toNat_byte (by omega)
      have hwrites := writes_two (b := .ofNat (0xC0 + n / 64)) (by omega) (isTail_byte n)
      unfold push at hwrites
      rwa [hb, hsix, show (0xC0 + n / 64 - 0xC0) * 64 + (0x80 + n % 64 - 0x80) = n by omega]
        at hwrites
    next h₂ =>
      split
      next h₃ =>
        have hb : (UInt8.ofNat (0xE0 + n / 4096)).toNat = 0xE0 + n / 4096 := toNat_byte (by omega)
        have hwrites := writes_three (b := .ofNat (0xE0 + n / 4096)) (by omega)
          (isTail_byte (n / 64)) (isTail_byte n) (by rw [hb, hsix]; omega) (by rw [hb, hsix]; omega)
        unfold push at hwrites
        rwa [hb, hsix, hsix, show ((0xE0 + n / 4096 - 0xE0) * 64 +
          (0x80 + n / 64 % 64 - 0x80)) * 64 + (0x80 + n % 64 - 0x80) = n by omega] at hwrites
      next h₃ =>
        have hb : (UInt8.ofNat (0xF0 + n / 262144)).toNat = 0xF0 + n / 262144 :=
          toNat_byte (by omega)
        have hwrites := writes_four (b := .ofNat (0xF0 + n / 262144)) (by omega)
          (isTail_byte (n / 4096)) (isTail_byte (n / 64)) (isTail_byte n)
          (by rw [hb, hsix]; omega) (by rw [hb, hsix]; omega)
        unfold push at hwrites
        rwa [hb, hsix, hsix, hsix, show (((0xF0 + n / 262144 - 0xF0) * 64 +
          (0x80 + n / 4096 % 64 - 0x80)) * 64 + (0x80 + n / 64 % 64 - 0x80)) * 64 +
          (0x80 + n % 64 - 0x80) = n by omega] at hwrites

/-! ## Decoding -/

theorem decodeFrom_append (h : Writes s n) (index : Nat) (rest : List UInt8) :
    decodeFrom index (s ++ rest) =
      (decodeFrom (index + s.length) rest).map (Char.ofNat n :: ·) := by
  cases h with
  | one h =>
    rw [List.singleton_append, decodeFrom.eq_def]
    simp [h]
  | @two b b₁ lead hlead hmore hlow hhigh =>
    have hb : ¬ b.toNat < 0x80 := Nat.not_lt.2 (le_of_lead?_eq_some hlead)
    have hb₁ : ¬ (b₁.toNat < lead.low ∨ lead.high < b₁.toNat) := by omega
    simp [decodeFrom, *]
  | @three b b₁ b₂ lead hlead hmore hlow hhigh h₂ =>
    have hb : ¬ b.toNat < 0x80 := Nat.not_lt.2 (le_of_lead?_eq_some hlead)
    have hb₁ : ¬ (b₁.toNat < lead.low ∨ lead.high < b₁.toNat) := by omega
    simp [decodeFrom, *]
  | @four b b₁ b₂ b₃ lead hlead hmore hlow hhigh h₂ h₃ =>
    have hb : ¬ b.toNat < 0x80 := Nat.not_lt.2 (le_of_lead?_eq_some hlead)
    have hb₁ : ¬ (b₁.toNat < lead.low ∨ lead.high < b₁.toNat) := by omega
    simp [decodeFrom, *]

theorem decodeFrom_encode (index : Nat) (cs : List Char) :
    decodeFrom index (encode cs) = .ok cs := by
  induction cs generalizing index with
  | nil => rfl
  | cons c cs ih =>
    rw [encode, List.flatMap_cons, decodeFrom_append (writes_encodeChar c), Char.ofNat_toNat]
    exact congrArg (Except.map _) (ih _)

theorem encode_of_map {x : Except Failure (List Char)} (hs : Writes s n)
    (ih : ∀ cs, x = .ok cs → encode cs = rest) (h : x.map (Char.ofNat n :: ·) = .ok cs) :
    encode cs = s ++ rest := by
  cases x with
  | error e => cases h
  | ok cs' =>
    cases h
    rw [encode, List.flatMap_cons, hs.encodeChar_eq, ← ih cs' rfl]
    rfl

theorem encode_of_decodeFrom (h : decodeFrom index bytes = .ok cs) : encode cs = bytes := by
  -- Of the cases of decoding four take a sequence, of one to four bytes; the others fail.
  fun_induction decodeFrom index bytes generalizing cs with
  | case1 =>
    cases h
    rfl
  | case2 index b rest hb ih => exact encode_of_map (.one hb) (fun _ => ih) h
  | case6 index b hb lead b₁ rest hlead n hrange hmore =>
    rename_i ih
    simp only [Bool.or_eq_true, decide_eq_true_eq, not_or, Nat.not_lt] at hrange
    exact encode_of_map (.two hlead hmore hrange.1 hrange.2) (fun _ => ih) h
  | case9 index b hb lead b₁ hlead n hrange hmore₁ b₂ rest n₂ h₂ hmore =>
    rename_i ih
    simp only [Bool.or_eq_true, decide_eq_true_eq, not_or, Nat.not_lt] at hrange
    simp only [Bool.not_eq_true', Bool.not_eq_false] at h₂
    exact encode_of_map (.three hlead hmore hrange.1 hrange.2 h₂) (fun _ => ih) h
  | case12 index b hb lead b₁ hlead n hrange hmore₁ b₂ n₂ h₂ hmore₂ b₃ rest h₃ =>
    rename_i ih
    simp only [Bool.or_eq_true, decide_eq_true_eq, not_or, Nat.not_lt] at hrange
    simp only [Bool.not_eq_true', Bool.not_eq_false] at h₂ h₃
    have hmore : lead.more = 3 := by
      have hthree := more_of_lead?_eq_some hlead
      omega
    exact encode_of_map (.four hlead hmore hrange.1 hrange.2 h₂ h₃) (fun _ => ih) h
  | _ => cases h

/-- Bytes are decoded exactly when they are the bytes of a text, and then to that text. -/
theorem decode_eq_ok_iff : decode bytes = .ok cs ↔ encode cs = bytes := by
  constructor
  · exact encode_of_decodeFrom
  · rintro rfl
    exact decodeFrom_encode 0 cs

end Recast.Text.Utf8
