/-
Constants of enum types, and sets of constants of one type.

A constant is its type and an ordinal. The ordinal may lie past the last
constant that the type declares; such a constant has the empty name. A set
keeps its ordinals in ascending order, each once.
-/
import Recast.Ty

namespace Recast

/-- A constant of an enum type. -/
structure Constant where
  type : EnumType
  ordinal : Nat
deriving DecidableEq

namespace Constant

/-- The constant that a type declares at an ordinal. -/
def ofOrdinal? (E : EnumType) (ordinal : Nat) : Option Constant :=
  if ordinal < E.constants.length then some ⟨E, ordinal⟩ else none

/-- The constant of a name. -/
def ofName? (E : EnumType) (name : String) : Option Constant :=
  (E.ordinal? name).map (⟨E, ·⟩)

def name (c : Constant) : String := (c.type.constant? c.ordinal).getD ""

def text (c : Constant) : String := c.type.name ++ "." ++ c.name

end Constant

/-- Adds a number to a list in ascending order, unless the list has it. -/
def insertAscending (n : Nat) : List Nat → List Nat
  | [] => [n]
  | m :: ms => if n < m then n :: m :: ms else if n = m then m :: ms else m :: insertAscending n ms

theorem mem_insertAscending {n k : Nat} {ms : List Nat} :
    k ∈ insertAscending n ms ↔ k = n ∨ k ∈ ms := by
  induction ms with
  | nil => simp [insertAscending]
  | cons m ms ih =>
    unfold insertAscending
    split
    · simp
    · split
      · next h => subst h; simp
      · simp [ih, or_left_comm]

theorem pairwise_insertAscending {n : Nat} {ms : List Nat} (h : ms.Pairwise (· < ·)) :
    (insertAscending n ms).Pairwise (· < ·) := by
  induction ms with
  | nil => simp [insertAscending]
  | cons m ms ih =>
    rw [List.pairwise_cons] at h
    unfold insertAscending
    split
    · next hlt =>
      refine List.pairwise_cons.2 ⟨fun k hk => ?_, List.pairwise_cons.2 h⟩
      rcases List.mem_cons.1 hk with rfl | hk
      · exact hlt
      · exact Nat.lt_trans hlt (h.1 k hk)
    · split
      · exact List.pairwise_cons.2 h
      · next hle hne =>
        refine List.pairwise_cons.2 ⟨fun k hk => ?_, ih h.2⟩
        rcases mem_insertAscending.1 hk with rfl | hk
        · omega
        · exact h.1 k hk

/-- A set of constants of one enum type: their ordinals, ascending. -/
structure EnumSet where
  type : EnumType
  members : List Nat
  ascending : members.Pairwise (· < ·)
deriving DecidableEq

/-- A constant of one type was offered to a set of another. -/
structure ForeignConstant where
  expected : EnumType
  found : EnumType

namespace EnumSet

def empty (E : EnumType) : EnumSet := ⟨E, [], .nil⟩

/-- The set of every constant that the type declares. -/
def full (E : EnumType) : EnumSet :=
  ⟨E, List.range E.constants.length, List.pairwise_lt_range⟩

/-- The set with one more ordinal. -/
def insertOrdinal (s : EnumSet) (ordinal : Nat) : EnumSet :=
  ⟨s.type, insertAscending ordinal s.members, pairwise_insertAscending s.ascending⟩

/-- Adds a constant, and says whether it is new. -/
def insert (s : EnumSet) (c : Constant) : Except ForeignConstant (Bool × EnumSet) :=
  if c.type = s.type then .ok (!s.members.contains c.ordinal, s.insertOrdinal c.ordinal)
  else .error ⟨s.type, c.type⟩

/-- The set of some constants. -/
def of (E : EnumType) (constants : List Constant) : Except ForeignConstant EnumSet :=
  constants.foldlM (fun s c => (s.insert c).map (·.2)) (empty E)

def contains (s : EnumSet) (c : Constant) : Bool :=
  c.type = s.type && s.members.contains c.ordinal

/-- Removes a constant, and says whether it was there. -/
def remove (s : EnumSet) (c : Constant) : Bool × EnumSet :=
  if s.contains c then
    (true, ⟨s.type, s.members.filter (· ≠ c.ordinal), s.ascending.filter _⟩)
  else (false, s)

/-- The constants of a set, by ordinal. -/
def constants (s : EnumSet) : List Constant := s.members.map (⟨s.type, ·⟩)

/-- The names of the constants that the type declares. -/
def text (s : EnumSet) : String :=
  "\x7b" ++ ", ".intercalate (s.members.filterMap s.type.constant?) ++ "\x7d"

@[simp] theorem mem_insertOrdinal {s : EnumSet} {n k : Nat} :
    k ∈ (s.insertOrdinal n).members ↔ k = n ∨ k ∈ s.members := mem_insertAscending

@[simp] theorem mem_full {E : EnumType} {n : Nat} :
    n ∈ (full E).members ↔ n < E.constants.length := List.mem_range

end EnumSet

end Recast
