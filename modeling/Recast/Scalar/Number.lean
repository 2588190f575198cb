/-
Conversions into the numeric types, from numbers, text, truth values and
characters.

A value is first read as a number: an integer, a double or a decimal. Integral
targets take it without its fraction and check their range. Text for an
integral target is an integer, or a decimal that is whole.
-/
import Recast.Conversion.Context
import Recast.Number.Decimal.Floating
import Recast.Number.Binary.Reading
import Recast.Text.Blank

namespace Recast

/-- A number in one of the three forms that are computed with. -/
inductive Numeric
  | integer (n : Int)
  | double (x : Binary .double)
  | decimal (d : Decimal)
deriving DecidableEq

/-- An integer read from text. -/
inductive IntegerReading
  | read (n : Int)
  /-- The digits went beyond 128 bits. -/
  | tooLarge
  | malformed
deriving DecidableEq

/-- Reads digits one by one, below `bound`. The first digit that goes beyond ends the reading,
whatever follows it. -/
def readDigitsBelow (bound : Nat) (n : Nat) : List Char → Option (Option Nat)
  | [] => some (some n)
  | c :: cs =>
    if !Text.isDigit c then none
    else
      let n := 10 * n + Text.digitValue c
      if bound ≤ n then some none else readDigitsBelow bound n cs

/-- Reads an integer of 128 bits: an optional sign and at least one digit. -/
def readInteger (cs : List Char) : IntegerReading :=
  let (negative, digits) := Text.spanSign cs
  if digits = [] then .malformed
  else
    match readDigitsBelow (if negative then 2 ^ 127 + 1 else 2 ^ 127) 0 digits with
    | none => .malformed
    | some none => .tooLarge
    | some (some n) => .read (if negative then -(n : Int) else n)

/-- A double without its fraction. -/
def Binary.trunc? {f : Format} (x : Binary f) : Option Int :=
  match x.view with
  | .finite negative mant exp =>
    let whole := mant * 2 ^ exp.toNat / 2 ^ (-exp).toNat
    some (if negative then -(whole : Int) else whole)
  | _ => none

/-- The greatest finite number of the single format. -/
def greatestSingle : Rat := dyadic (2 ^ 24 - 1) 104

namespace Numeric

/-- The number that a value is. -/
def of? : Value → Option Numeric
  | .integral n => some (.integer n.val)
  | .float x => some (.double (x.convert .double))
  | .double x => some (.double x)
  | .decimal d => some (.decimal d)
  | _ => none

def isZero : Numeric → Bool
  | .integer n => n = 0
  | .double x => x.isZero
  | .decimal d => d.isZero

/-- The number without its fraction, below 2 ^ 127 in magnitude when it comes from a double. -/
def truncated (target : Ty) : Numeric → Except ConversionError Int
  | .integer n => .ok n
  | .double x =>
    if x.isNaN then .error (.invalidFormat target "NaN" .notANumber)
    else
      match x.trunc? with
      | some n =>
        if -(2 ^ 127 : Int) ≤ n ∧ n < 2 ^ 127 then .ok n
        else .error (.outOfRange (.double x) target)
      | none => .error (.outOfRange (.double x) target)
  | .decimal d => .ok d.trunc

def toDouble : Numeric → Binary .double
  | .integer n => Binary.ofInt .double n
  | .double x => x
  | .decimal d => d.toDouble

/-- The integer at a width. -/
def integralValue (w : Width) (n : Int) : Except ConversionError Value :=
  match Integral.ofInt? w n with
  | some i => .ok (.integral i)
  | none => .error (.outOfRange (.integer n) (.integral w))

/-- The number as a single. Only finite numbers can be out of range. -/
def toSingle (x : Numeric) : Except ConversionError Value :=
  let d := x.toDouble
  match d.toRat? with
  | some q =>
    if greatestSingle < q ∨ q < -greatestSingle then .error (.outOfRange (.double d) .float)
    else .ok (.float (d.convert .single))
  | none => .ok (.float (d.convert .single))

def toDecimal (x : Numeric) : Except ConversionError Value :=
  let decimal? := match x with
    | .integer n => Decimal.ofInt? n
    | .double d => Decimal.ofDouble? d
    | .decimal d => some d
  match decimal? with
  | some d => .ok (.decimal d)
  | none => .error (.outOfRange (.double x.toDouble) .decimal)

/-- The number as a value of a numeric type. -/
def toValue (x : Numeric) : Ty → Except ConversionError Value
  | .integral w => do integralValue w (← x.truncated (.integral w))
  | .float => x.toSingle
  | .double => .ok (.double x.toDouble)
  | .decimal => x.toDecimal
  | target => do
    let _ ← x.truncated target
    throw (.unsupported (.integral .bigInteger) target)

/-- Reads a number from trimmed text, in the form that suits the target. -/
def read (text : String) (target : Ty) : Except ConversionError Numeric :=
  let cs := Text.trim text.toList
  let invalid (reason : Reason) := ConversionError.invalidFormat target text reason
  if cs = [] then .error (invalid .emptyText)
  else
    match target with
    | .integral _ =>
      match readInteger cs with
      | .read n => .ok (.integer n)
      | .tooLarge => .error (.outOfRange (.text (String.ofList cs)) target)
      | .malformed =>
        match Decimal.readAny cs with
        | .ok d => if d.isWhole then .ok (.decimal d) else .error (invalid .notAnInteger)
        | .error _ => .error (invalid .notAnInteger)
    | .decimal =>
      match Decimal.readAny cs with
      | .ok d => .ok (.decimal d)
      | .error e => .error (invalid (.decimal e))
    | _ =>
      match Binary.read? .double cs with
      | some x => .ok (.double x)
      | none => .error (invalid .float)

end Numeric

namespace Scalar

/-- There is no conversion from the type of a value to a target. -/
def unsupported (v : Value) (target : Ty) : ConversionError := .unsupported v.ty target

/-- What a value is said to be, or else a refusal for its type. -/
def expect (found : Option α) (v : Value) (target : Ty) : Except ConversionError α :=
  match found with
  | some a => .ok a
  | none => .error (unsupported v target)

def numberToNumber : Conversion := .ofPure fun v call => do
  (← expect (Numeric.of? v) v call.target).toValue call.target

def textToNumber : Conversion := .ofPure fun v call => do
  let text ← expect v.text? v call.target
  (← Numeric.read text call.target).toValue call.target

/-- A truth value counts as 1 or 0. -/
def booleanToNumber : Conversion := .ofPure fun v call =>
  match v with
  | .boolean b => (Numeric.integer b.toNat).toValue call.target
  | v => .error (unsupported v call.target)

/-- A character counts as its code point. -/
def charToNumber : Conversion := .ofPure fun v call =>
  match v with
  | .char c => (Numeric.integer c.toNat).toValue call.target
  | v => .error (unsupported v call.target)

end Scalar

end Recast
