/-
Blank characters: the White_Space property of Unicode, and the trimming that
every reader of this library does before it looks at a text.
-/

namespace Recast.Text

/-- The characters with the White_Space property, in ascending order of code point. -/
def blanks : List (Nat × Nat) :=
  [(0x9, 0xD), (0x20, 0x20), (0x85, 0x85), (0xA0, 0xA0), (0x1680, 0x1680), (0x2000, 0x200A),
   (0x2028, 0x2029), (0x202F, 0x202F), (0x205F, 0x205F), (0x3000, 0x3000)]

/-- A character is blank when it has the White_Space property. -/
def isBlank (c : Char) : Bool :=
  blanks.any fun (first, last) => first ≤ c.toNat && c.toNat ≤ last

/-- The text after its leading blanks. -/
def trimStart (cs : List Char) : List Char := cs.dropWhile isBlank

/-- The text before its trailing blanks. -/
def trimEnd (cs : List Char) : List Char := (cs.reverse.dropWhile isBlank).reverse

/-- The text between its leading and its trailing blanks. -/
def trim (cs : List Char) : List Char := trimEnd (trimStart cs)

/-- `trim` on strings. -/
def trimmed (s : String) : String := String.ofList (trim s.toList)

/-- The text before the ending `tail`, when it ends so. -/
def dropEnding? (tail cs : List Char) : Option (List Char) :=
  if tail.isSuffixOf cs then some (cs.take (cs.length - tail.length)) else none

/-- What `dropEnding?` returns is the text without the ending. -/
theorem dropEnding?_eq_some {tail cs rest : List Char} (h : dropEnding? tail cs = some rest) :
    cs = rest ++ tail := by
  unfold dropEnding? at h
  split at h
  · next hs =>
    obtain ⟨t, rfl⟩ := List.isSuffixOf_iff_suffix.1 hs
    simp at h
    rw [h]
  · simp at h

@[simp] theorem dropEnding?_append (tail rest : List Char) :
    dropEnding? tail (rest ++ tail) = some rest := by
  simp [dropEnding?]

theorem length_trim_le (cs : List Char) : (trim cs).length ≤ cs.length := by
  unfold trim trimEnd trimStart
  have h1 := (List.dropWhile_sublist isBlank (l := cs)).length_le
  have h2 := (List.dropWhile_sublist isBlank (l := (cs.dropWhile isBlank).reverse)).length_le
  simp at h1 h2 ⊢
  omega

end Recast.Text
