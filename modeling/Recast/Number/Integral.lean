/-
Signed integers of a fixed width. A number carries its width and the proof
that it lies in the width's range, so every `Integral` is one that fits.
-/
import Recast.Number.Power

namespace Recast

/-- The widths of the signed integer types. -/
inductive Width
  | byte | short | integer | long | bigInteger
deriving DecidableEq, Repr

namespace Width

/-- All widths, narrowest first. -/
def all : List Width := [.byte, .short, .integer, .long, .bigInteger]

def bits : Width → Nat
  | .byte => 8
  | .short => 16
  | .integer => 32
  | .long => 64
  | .bigInteger => 128

def name : Width → String
  | .byte => "Byte"
  | .short => "Short"
  | .integer => "Integer"
  | .long => "Long"
  | .bigInteger => "BigInteger"

/-- The least number of the width. -/
def min (w : Width) : Int := -(2 ^ (w.bits - 1) : Nat)

/-- The greatest number of the width. -/
def max (w : Width) : Int := (2 ^ (w.bits - 1) : Nat) - 1

/-- The numbers that a width holds. -/
def Holds (w : Width) (n : Int) : Prop := w.min ≤ n ∧ n ≤ w.max

instance (w : Width) (n : Int) : Decidable (w.Holds n) :=
  inferInstanceAs (Decidable (_ ∧ _))

theorem mem_all (w : Width) : w ∈ all := by cases w <;> decide

theorem holds_zero (w : Width) : w.Holds 0 := by cases w <;> decide

end Width

/-- A signed integer of a width. -/
structure Integral where
  width : Width
  val : Int
  holds : width.Holds val
deriving DecidableEq

namespace Integral

/-- The number at a width, when the width holds it. -/
def ofInt? (w : Width) (n : Int) : Option Integral :=
  if h : w.Holds n then some ⟨w, n, h⟩ else none

/-- Zero at a width. -/
def zero (w : Width) : Integral := ⟨w, 0, w.holds_zero⟩

/-- The byte whose unsigned reading is `b`. -/
def ofByte (b : UInt8) : Integral :=
  ⟨.byte, b.toInt8.toInt, by
    have h₁ := b.toInt8.le_toInt
    have h₂ := b.toInt8.toInt_lt
    simp only [Width.Holds, Width.min, Width.max, Width.bits]
    omega⟩

/-- The low eight bits, read as an unsigned byte. -/
def toByte (n : Integral) : UInt8 := (Int8.ofInt n.val).toUInt8

@[simp] theorem ofInt?_val (n : Integral) : ofInt? n.width n.val = some n := by
  simp [ofInt?, n.holds]

theorem ofInt?_eq_some {w : Width} {i : Int} {n : Integral} :
    ofInt? w i = some n ↔ n.width = w ∧ n.val = i := by
  unfold ofInt?
  split
  · next h =>
    constructor
    · rintro ⟨⟩; exact ⟨rfl, rfl⟩
    · rintro ⟨rfl, rfl⟩; rfl
  · next h =>
    constructor
    · simp
    · rintro ⟨rfl, rfl⟩; exact absurd n.holds h

theorem ofInt?_eq_none {w : Width} {i : Int} : ofInt? w i = none ↔ ¬ w.Holds i := by
  unfold ofInt?; split <;> simp_all

@[simp] theorem toByte_ofByte (b : UInt8) : (ofByte b).toByte = b := by
  simp [toByte, ofByte]

end Integral

end Recast
