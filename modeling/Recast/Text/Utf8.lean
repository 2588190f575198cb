/-
UTF-8: characters as one to four bytes, and bytes back as characters.

Decoding refuses overlong forms, surrogates and code points above U+10FFFF
where they first show: at the lead byte, or at the second byte, whose range
the lead byte narrows. The error says where the sequence starts and how many
of its bytes were seen to be wrong, or that the input ended inside it.
-/
import Recast.Number.Power

namespace Recast.Text.Utf8

/-- The bytes of a character. -/
def encodeChar (c : Char) : List UInt8 :=
  let n := c.toNat
  let tail (shift : Nat) : UInt8 := UInt8.ofNat (0x80 + n / 2 ^ shift % 64)
  if n < 0x80 then [UInt8.ofNat n]
  else if n < 0x800 then [UInt8.ofNat (0xC0 + n / 64), tail 0]
  else if n < 0x10000 then [UInt8.ofNat (0xE0 + n / 4096), tail 6, tail 0]
  else [UInt8.ofNat (0xF0 + n / 262144), tail 12, tail 6, tail 0]

/-- The bytes of a text. -/
def encode (cs : List Char) : List UInt8 := cs.flatMap encodeChar

/-- Where decoding failed. Without `bad` the input ended inside a sequence. -/
structure Failure where
  index : Nat
  bad : Option Nat
deriving DecidableEq, Repr

/-- What a lead byte asks for: the number of bytes after it, the bounds of the first of them, and
the bits it gives to the code point. -/
structure Lead where
  more : Nat
  low : Nat
  high : Nat
  bits : Nat

def lead? (b : UInt8) : Option Lead :=
  let n := b.toNat
  if n < 0xC2 then none
  else if n < 0xE0 then some ⟨1, 0x80, 0xBF, n - 0xC0⟩
  else if n < 0xF0 then
    some ⟨2, if n = 0xE0 then 0xA0 else 0x80, if n = 0xED then 0x9F else 0xBF, n - 0xE0⟩
  else if n < 0xF5 then
    some ⟨3, if n = 0xF0 then 0x90 else 0x80, if n = 0xF4 then 0x8F else 0xBF, n - 0xF0⟩
  else none

/-- A byte of a sequence after the second. -/
def isTail (b : UInt8) : Bool := 0x80 ≤ b.toNat && b.toNat ≤ 0xBF

/-- Six more bits of a code point. -/
def push (n : Nat) (b : UInt8) : Nat := n * 64 + (b.toNat - 0x80)

/-- The characters of bytes that start at `index`. -/
def decodeFrom (index : Nat) : List UInt8 → Except Failure (List Char)
  | [] => .ok []
  | b :: rest =>
    if b.toNat < 0x80 then (decodeFrom (index + 1) rest).map (Char.ofNat b.toNat :: ·)
    else
      match lead? b, rest with
      | none, _ => .error ⟨index, some 1⟩
      | some _, [] => .error ⟨index, none⟩
      | some lead, b₁ :: rest =>
        let n := push lead.bits b₁
        if b₁.toNat < lead.low || lead.high < b₁.toNat then .error ⟨index, some 1⟩
        else if lead.more = 1 then (decodeFrom (index + 2) rest).map (Char.ofNat n :: ·)
        else
          match rest with
          | [] => .error ⟨index, none⟩
          | b₂ :: rest =>
            let n := push n b₂
            if !isTail b₂ then .error ⟨index, some 2⟩
            else if lead.more = 2 then (decodeFrom (index + 3) rest).map (Char.ofNat n :: ·)
            else
              match rest with
              | [] => .error ⟨index, none⟩
              | b₃ :: rest =>
                if !isTail b₃ then .error ⟨index, some 3⟩
                else (decodeFrom (index + 4) rest).map (Char.ofNat (push n b₃) :: ·)

/-- The characters of bytes. -/
def decode (bytes : List UInt8) : Except Failure (List Char) := decodeFrom 0 bytes

end Recast.Text.Utf8
