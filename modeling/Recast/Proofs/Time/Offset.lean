/-
The grammar of offsets, and what the reader makes of it.

An offset is written as `Z`, `z`, `UTC` or `GMT`, or as a sign and two digits
each of hours, minutes and seconds, with a colon between any two of these or
with none (`Denotes`). The reader takes every text of the grammar for the
offset it denotes. It takes more than these: it drops the colons before it
looks at the digits, so a signed text is read as what is left of it
(`read?_eq_some_iff`), wherever its colons stood.
-/
import Mathlib.Data.List.Basic
import Recast.Proofs.Text.Digits
import Recast.Proofs.Time.Text

namespace Recast.Offset

open Text

/-! ## The grammar -/

/-- The names of offset zero. -/
def utcNames : List (List Char) := [['Z'], ['z'], "UTC".toList, "GMT".toList]

/-- Two digits, and the number they write. -/
structure IsField (cs : List Char) (n : Nat) : Prop where
  length : cs.length = 2
  digits : ∀ c ∈ cs, isDigit c
  value : natOfDigits cs = n

/-- Hours, minutes and seconds as two digits each, with a colon between any two or with none.
Seconds may be left out, and minutes with them. -/
inductive Fields : List Char → (hours minutes seconds : Nat) → Prop
  | hours {hh : List Char} {h : Nat} (hours : IsField hh h) : Fields hh h 0 0
  | minutes {hh sep mm : List Char} {h m : Nat} (separator : sep = [] ∨ sep = [':'])
      (hours : IsField hh h) (minutes : IsField mm m) : Fields (hh ++ sep ++ mm) h m 0
  | seconds {hh sep mm ss : List Char} {h m s : Nat} (separator : sep = [] ∨ sep = [':'])
      (hours : IsField hh h) (minutes : IsField mm m) (seconds : IsField ss s) :
      Fields (hh ++ sep ++ mm ++ sep ++ ss) h m s

/-- The number of seconds with a sign in front. -/
def signedSeconds (sign : Char) (hours minutes seconds : Nat) : Int :=
  let total : Int := hours * 3600 + minutes * 60 + seconds
  if sign = '-' then -total else total

/-- The offset that a text denotes. It is less than a day either way, as every offset. -/
inductive Denotes : List Char → Offset → Prop
  | utc {cs : List Char} (name : cs ∈ utcNames) : Denotes cs .utc
  | signed {sign : Char} {cs : List Char} {h m s : Nat} {o : Offset}
      (sign_eq : sign = '+' ∨ sign = '-') (fields : Fields cs h m s) (minutes_lt : m < 60)
      (seconds_lt : s < 60) (total : o.seconds = signedSeconds sign h m s) :
      Denotes (sign :: cs) o

/-- A sign stands at the front. -/
def IsSigned (cs : List Char) : Prop := cs.head? = some '+' ∨ cs.head? = some '-'

variable {cs ds rest : List Char} {sign : Char} {o : Offset} {h m s : Nat}

/-! ## Colons -/

/-- A text without its colons. -/
def withoutColons (cs : List Char) : List Char := cs.filter (· ≠ ':')

@[simp] theorem withoutColons_append (cs ds : List Char) :
    withoutColons (cs ++ ds) = withoutColons cs ++ withoutColons ds :=
  List.filter_append ..

theorem colon_notMem_withoutColons (cs : List Char) : ':' ∉ withoutColons cs := by
  simp [withoutColons]

theorem withoutColons_eq_self (hcolon : ':' ∉ cs) : withoutColons cs = cs := by
  refine List.filter_eq_self.2 fun c hc => ?_
  rw [decide_eq_true_eq]
  exact ne_of_mem_of_not_mem hc hcolon

theorem withoutColons_sign (hsign : sign = '+' ∨ sign = '-') (rest : List Char) :
    withoutColons (sign :: rest) = sign :: withoutColons rest := by
  rcases hsign with rfl | rfl <;> rfl

theorem IsField.withoutColons (hf : IsField cs h) : withoutColons cs = cs := by
  refine withoutColons_eq_self fun hcolon => ?_
  have hdigit := hf.digits ':' hcolon
  cases hdigit

theorem Fields.withoutColons (hf : Fields cs h m s) : Fields (withoutColons cs) h m s := by
  have hsep {sep : List Char} (h : sep = [] ∨ sep = [':']) : Offset.withoutColons sep = [] := by
    rcases h with rfl | rfl <;> rfl
  cases hf with
  | hours hh =>
    rw [hh.withoutColons]
    exact .hours hh
  | minutes separator hh hm =>
    have hfields := Fields.minutes (.inl rfl) hh hm
    simpa [hsep separator, hh.withoutColons, hm.withoutColons] using hfields
  | seconds separator hh hm hs =>
    have hfields := Fields.seconds (.inl rfl) hh hm hs
    simpa [hsep separator, hh.withoutColons, hm.withoutColons, hs.withoutColons] using hfields

theorem Fields.isDigit_of_mem_take (hf : Fields cs h m s) : ∀ c ∈ cs.take 2, isDigit c := by
  have htake {hh : List Char} (hours : IsField hh h) (rest : List Char) :
      ∀ c ∈ (hh ++ rest).take 2, isDigit c := by
    rw [← hours.length, List.take_left]
    exact hours.digits
  cases hf with
  | hours hours => simpa using htake hours []
  | minutes _ hours _ => simpa using htake hours _
  | seconds _ hours _ _ => simpa using htake hours _

/-! ## The reader -/

theorem isField_pair {a b : Char} (ha : isDigit a) (hb : isDigit b) :
    IsField [a, b] (natOfDigits [a, b]) where
  length := rfl
  digits c hc := by
    rcases List.mem_cons.1 hc with rfl | hc
    · exact ha
    · rwa [List.mem_singleton.1 hc]
  value := rfl

theorem fields_iff (hcolon : ':' ∉ ds) : Fields ds h m s ↔
    (∀ c ∈ ds, isDigit c) ∧ (ds.length = 2 ∨ ds.length = 4 ∨ ds.length = 6) ∧
      natOfDigits (ds.take 2) = h ∧ natOfDigits ((ds.drop 2).take 2) = m ∧
      natOfDigits ((ds.drop 4).take 2) = s := by
  constructor
  · intro hf
    cases hf with
    | hours hours =>
      obtain ⟨a, b, rfl⟩ := List.length_eq_two.1 hours.length
      exact ⟨hours.digits, .inl rfl, hours.value, rfl, rfl⟩
    | minutes separator hours minutes =>
      obtain rfl := separator.resolve_right fun heq => hcolon (by simp [heq])
      obtain ⟨a, b, rfl⟩ := List.length_eq_two.1 hours.length
      obtain ⟨c, d, rfl⟩ := List.length_eq_two.1 minutes.length
      refine ⟨fun x hx => ?_, .inr (.inl rfl), hours.value, minutes.value, rfl⟩
      rcases List.mem_append.1 hx with hx | hx
      · exact hours.digits x (by simpa using hx)
      · exact minutes.digits x hx
    | seconds separator hours minutes seconds =>
      obtain rfl := separator.resolve_right fun heq => hcolon (by simp [heq])
      obtain ⟨a, b, rfl⟩ := List.length_eq_two.1 hours.length
      obtain ⟨c, d, rfl⟩ := List.length_eq_two.1 minutes.length
      obtain ⟨e, f, rfl⟩ := List.length_eq_two.1 seconds.length
      refine ⟨fun x hx => ?_, .inr (.inr rfl), hours.value, minutes.value, seconds.value⟩
      simp only [List.append_nil, List.mem_append] at hx
      rcases hx with (hx | hx) | hx
      · exact hours.digits x hx
      · exact minutes.digits x hx
      · exact seconds.digits x hx
  · rintro ⟨hdigits, hlength, rfl, rfl, rfl⟩
    match ds, hlength with
    | [a, b], _ =>
      exact .hours (isField_pair (hdigits a (by simp)) (hdigits b (by simp)))
    | [a, b, c, d], _ =>
      exact .minutes (.inl rfl) (isField_pair (hdigits a (by simp)) (hdigits b (by simp)))
        (isField_pair (hdigits c (by simp)) (hdigits d (by simp)))
    | [a, b, c, d, e, f], _ =>
      exact .seconds (.inl rfl) (isField_pair (hdigits a (by simp)) (hdigits b (by simp)))
        (isField_pair (hdigits c (by simp)) (hdigits d (by simp)))
        (isField_pair (hdigits e (by simp)) (hdigits f (by simp)))

theorem read?_sign_eq_some_iff (hsign : sign = '+' ∨ sign = '-') :
    read? (sign :: rest) = some o ↔ Denotes (sign :: withoutColons rest) o := by
  have hname (cs : List Char) : sign :: cs ∉ utcNames := by
    rcases hsign with rfl | rfl <;> simp [utcNames]
  have hnames := hname rest
  simp only [utcNames, List.mem_cons, List.not_mem_nil, or_false, not_or] at hnames
  unfold read?
  simp only [hnames, decide_false, Bool.or_self, Bool.false_eq_true, if_false]
  constructor
  · intro h
    split at h
    · next hread =>
      simp only [Bool.and_eq_true, Bool.or_eq_true, decide_eq_true_eq, List.all_eq_true] at hread
      obtain ⟨⟨⟨⟨-, hdigits⟩, hlength⟩, hm⟩, hs⟩ := hread
      refine .signed hsign ((fields_iff (colon_notMem_withoutColons rest)).2
        ⟨hdigits, or_assoc.1 hlength, rfl, rfl, rfl⟩) hm hs ?_
      exact of?_eq_some_iff.1 h
    · cases h
  · intro h
    cases h with
    | utc name => exact absurd name (hname _)
    | signed _ fields hm hs total =>
      obtain ⟨hdigits, hlength, rfl, rfl, rfl⟩ :=
        (fields_iff (colon_notMem_withoutColons rest)).1 fields
      rw [if_pos]
      · exact of?_eq_some_iff.2 total
      · simp only [Bool.and_eq_true, Bool.or_eq_true, decide_eq_true_eq, List.all_eq_true]
        exact ⟨⟨⟨⟨hsign, hdigits⟩, or_assoc.2 hlength⟩, hm⟩, hs⟩

theorem read?_of_mem_utcNames (h : cs ∈ utcNames) : read? cs = some .utc := by
  simp only [utcNames, List.mem_cons, List.not_mem_nil, or_false] at h
  rcases h with rfl | rfl | rfl | rfl <;> rfl

theorem isSigned_of_read? (h : read? cs = some o) : cs ∈ utcNames ∨ IsSigned cs := by
  rw [or_iff_not_imp_left]
  intro hname
  simp only [utcNames, List.mem_cons, List.not_mem_nil, or_false, not_or] at hname
  cases cs with
  | nil => cases h
  | cons sign rest =>
    by_cases hsign : sign = '+' ∨ sign = '-'
    · simpa [IsSigned] using hsign
    · rw [not_or] at hsign
      simp only [read?, hname, hsign, decide_false, Bool.or_self, Bool.false_and,
        Bool.false_eq_true, if_false] at h
      cases h

theorem IsSigned.exists_cons (h : IsSigned cs) :
    ∃ sign rest, cs = sign :: rest ∧ (sign = '+' ∨ sign = '-') := by
  cases cs with
  | nil => simp [IsSigned] at h
  | cons sign rest => exact ⟨sign, rest, rfl, by simpa [IsSigned] using h⟩

/-- The reader takes every text of the grammar for the offset that it denotes. -/
theorem Denotes.read? (h : Denotes cs o) : read? cs = some o := by
  cases h with
  | utc name => exact read?_of_mem_utcNames name
  | signed hsign fields hm hs total =>
    exact (read?_sign_eq_some_iff hsign).2 (.signed hsign fields.withoutColons hm hs total)

/-- **What is read as an offset.** A text that denotes an offset, and a signed text that denotes
one when all its colons are dropped. -/
theorem read?_eq_some_iff : read? cs = some o ↔
    Denotes cs o ∨ IsSigned cs ∧ Denotes (withoutColons cs) o := by
  constructor
  · intro h
    rcases isSigned_of_read? h with hname | hsigned
    · left
      obtain rfl : Offset.utc = o := Option.some.inj ((read?_of_mem_utcNames hname).symm.trans h)
      exact .utc hname
    · right
      obtain ⟨sign, rest, rfl, hsign⟩ := hsigned.exists_cons
      rw [withoutColons_sign hsign]
      exact ⟨hsigned, (read?_sign_eq_some_iff hsign).1 h⟩
  · rintro (hdenotes | ⟨hsigned, hdenotes⟩)
    · exact hdenotes.read?
    · obtain ⟨sign, rest, rfl, hsign⟩ := hsigned.exists_cons
      rw [withoutColons_sign hsign] at hdenotes
      exact (read?_sign_eq_some_iff hsign).2 hdenotes

theorem read?_eq_some_iff_denotes (hcolon : ':' ∉ cs) : read? cs = some o ↔ Denotes cs o := by
  rw [read?_eq_some_iff, withoutColons_eq_self hcolon]
  tauto

end Recast.Offset
