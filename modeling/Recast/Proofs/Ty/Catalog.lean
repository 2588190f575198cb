/-
What a catalog finds of what was registered.

A catalog is filled by registrations, of types under their own names or under
other names. It looks plain names up and no others: a text is trimmed and loses
its array suffixes first. So a plain name finds the type of its last
registration, and a registration under any other name is never found
(`lookup_after`). A type is shown with a plain name unless it is an array, or an
enum type or object type whose own name is not plain (`isPlain_name_iff`); an
array type is found through its component alone, registered or not.
-/
import Recast.Proofs.Ty.Reading

namespace Recast

namespace Catalog

open Ty

/-- What a caller asks a catalog to register. -/
inductive Registration
  | type (t : Ty)
  | enum (E : EnumType)
  | alias (name : String) (t : Ty)

namespace Registration

/-- The name that the type is registered under. -/
def name : Registration → String
  | .type t => t.name
  | .enum E => E.name
  | .alias name _ => name

def target : Registration → Ty
  | .type t | .alias _ t => t
  | .enum E => .enum E

end Registration

/-- Carries a registration out. -/
def register (c : Catalog) : Registration → Catalog
  | .type t => c.withType t
  | .enum E => c.withEnum E
  | .alias name t => c.withAlias name t

/-- The catalog after some registrations. -/
def after (calls : List Registration) : Catalog := calls.foldl register empty

/-- The last registration under a name is for this type. -/
def LastUnder (calls : List Registration) (name : String) (t : Ty) : Prop :=
  ∃ before call later, calls = before ++ call :: later ∧ call.name = name ∧ call.target = t ∧
    ∀ other ∈ later, other.name ≠ name

variable {c d : Catalog} {call : Registration} {calls : List Registration} {name : String} {t : Ty}

/-! ## Registering -/

theorem register_eq (c : Catalog) (call : Registration) :
    c.register call = ⟨(call.name, call.target) :: c.entries⟩ := by
  cases call <;> rfl

theorem entries_after (calls : List Registration) :
    (after calls).entries = (calls.map fun call => (call.name, call.target)).reverse := by
  have go (c : Catalog) : (calls.foldl register c).entries =
      (calls.map fun call => (call.name, call.target)).reverse ++ c.entries := by
    induction calls generalizing c with
    | nil => rfl
    | cons call calls ih => simp [ih, register_eq]
  simpa [after, empty] using go empty

theorem lookup_entries_after (h : LastUnder calls name t) :
    (after calls).entries.lookup name = some t := by
  obtain ⟨before, call, later, rfl, rfl, rfl, hlater⟩ := h
  rw [entries_after, List.lookup_eq_some_iff]
  refine ⟨(later.map fun call => (call.name, call.target)).reverse,
    (before.map fun call => (call.name, call.target)).reverse, by simp, ?_⟩
  simpa using fun other hother => (hlater other hother).symm

/-! ## Looking up -/

/-- The entries of two catalogs for plain names are the same. -/
def SamePlain (c d : Catalog) : Prop :=
  ∀ name, IsPlain name → c.entries.lookup name = d.entries.lookup name

namespace SamePlain

theorem register (h : c.SamePlain d) (call : Registration) :
    (c.register call).SamePlain (d.register call) := by
  intro name hplain
  rw [register_eq, register_eq, List.lookup_cons, List.lookup_cons, h name hplain]

theorem register_left (h : c.SamePlain d) (hcall : ¬ IsPlain call.name) :
    (c.register call).SamePlain d := by
  intro name hplain
  have hne : (name == call.name) = false := beq_false_of_ne fun heq => hcall (heq ▸ hplain)
  rw [register_eq, List.lookup_cons, hne, h name hplain]

theorem foldl_filter (h : c.SamePlain d) (calls : List Registration) :
    (calls.foldl Catalog.register c).SamePlain
      ((calls.filter fun call => IsPlain call.name).foldl Catalog.register d) := by
  induction calls generalizing c d with
  | nil => exact h
  | cons call calls ih =>
    rw [List.foldl_cons, List.filter_cons]
    split
    next => exact ih (h.register call)
    next hcall => exact ih (h.register_left (by simpa using hcall))

theorem lookup_eq (h : c.SamePlain d) (text : String) : c.lookup text = d.lookup text :=
  readWith_congr (fun name hplain => by rw [h name hplain]) text.toList

end SamePlain

theorem lookup_of_isPlain (hplain : IsPlain name) (h : c.entries.lookup name = some t) :
    c.lookup name = some t := by
  rw [lookup, readWith_of_isPlain hplain, h]
  rfl

theorem lookup_append_suffix (c : Catalog) (name : String) :
    c.lookup (name ++ "[]") = (c.lookup name).map .array := by
  rw [lookup, String.toList_append]
  exact readWith_append_suffix _ _

/-- **A catalog finds what was registered under a plain name, and nothing else.** A plain name finds
the type of its last registration, and so a type that is shown with one is found by it. What was
registered under other names is not there for any look-up; an array type is found by its name just
as its component is. -/
theorem lookup_after (calls : List Registration) :
    (∀ name t, LastUnder calls name t → IsPlain name → (after calls).lookup name = some t) ∧
      (∀ t : Ty, t.HasPlainName → ((after calls).withType t).lookup t.name = some t) ∧
      (∀ text, (after calls).lookup text =
        (after (calls.filter fun call => IsPlain call.name)).lookup text) ∧
      ∀ t : Ty, ((after calls).withType (.array t)).lookup (Ty.array t).name =
        ((after calls).lookup t.name).map .array := by
  have hsame : (after calls).SamePlain (after calls) := fun _ _ => rfl
  refine ⟨fun name t hlast hplain => ?_, fun t ht => ?_, fun text => ?_, fun t => ?_⟩
  · exact lookup_of_isPlain hplain (lookup_entries_after hlast)
  · exact lookup_of_isPlain (isPlain_name_iff.2 ht) List.lookup_cons_self
  · exact SamePlain.lookup_eq (SamePlain.foldl_filter (fun _ _ => rfl) calls) text
  · -- The array type itself is registered where nothing is ever looked up.
    have harray : ¬ IsPlain (Registration.type (.array t)).name := fun h => isPlain_name_iff.1 h
    rw [← lookup_append_suffix]
    exact (hsame.register_left harray).lookup_eq _

/-- Two types of one name, of which the later is found, and an array type found through it. -/
theorem lookup_after_color :
    let color : EnumType := ⟨"Color", ["RED"]⟩
    let gadget : Ty := .named "Gadget"
    let calls : List Registration := [.type (.named "Color"), .alias " Color" gadget, .enum color]
    LastUnder calls "Color" (.enum color) ∧ IsPlain "Color" ∧
      (after calls).lookup "Color" = some (.enum color) ∧
      gadget.HasPlainName ∧ ((after calls).withType gadget).lookup "Gadget" = some gadget ∧
      ((after calls).withType (.array (.enum color))).lookup "Color[]" =
        some (.array (.enum color)) := by
  intro color gadget calls
  have hlast : LastUnder calls "Color" (.enum color) :=
    ⟨[.type (.named "Color"), .alias " Color" gadget], .enum color, [], rfl, rfl, rfl, nofun⟩
  have hplain : IsPlain "Color" := by decide +kernel
  have hgadget : gadget.HasPlainName := show IsPlain "Gadget" by decide +kernel
  obtain ⟨hregistered, htypes, -, harrays⟩ := lookup_after calls
  have hcolor := hregistered "Color" (.enum color) hlast hplain
  have harray := harrays (.enum color)
  exact ⟨hlast, hplain, hcolor, hgadget, htypes gadget hgadget,
    harray.trans (congrArg (Option.map Ty.array) hcolor)⟩

/-- An array type whose component is not registered, a name with blanks around it, and an alias with
an array suffix are registered, and then not found by their names, or found to be another type. -/
theorem registered_not_found :
    let widgets : Ty := .array (.named "Widget")
    let padded : Ty := .named " Widget "
    LastUnder [.type widgets] "Widget[]" widgets ∧
      (after [.type widgets]).lookup "Widget[]" = none ∧
      LastUnder [.type padded] " Widget " padded ∧
      (after [.type padded]).lookup " Widget " = none ∧
      LastUnder [.alias "Long[]" .string] "Long[]" .string ∧
      (after [.alias "Long[]" .string]).lookup "Long[]" = some (.array (.integral .long)) := by
  have hlast : ∀ call : Registration, LastUnder [call] call.name call.target :=
    fun call => ⟨[], call, [], rfl, rfl, rfl, nofun⟩
  exact ⟨hlast _, by decide +kernel, hlast _, by decide +kernel, hlast _, by decide +kernel⟩

end Catalog

end Recast
