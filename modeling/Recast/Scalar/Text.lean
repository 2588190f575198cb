/-
Conversions into text, truth values, characters, language tags and type
references, and between text and arrays of bytes or characters.
-/
import Recast.Scalar.Number

namespace Recast.Scalar

/-- The canonical text of a scalar. -/
def canonicalText? : Value → Option String
  | .boolean b => some (if b then "true" else "false")
  | .char c => some (String.singleton c)
  | .integral n => some (Text.intText n.val)
  | .float x => some (FloatStyle.general.render x)
  | .double x => some (FloatStyle.general.render x)
  | .decimal d => some d.text
  | .string s | .stringBuilder s | .locale s => some s
  | .typeRef t => some t.name
  | _ => none

def scalarToString : Conversion := .ofPure fun v call => do
  return .string (← expect (canonicalText? v) v call.target)

def textToBuilder : Conversion := .ofPure fun v call => do
  return .stringBuilder (← expect v.text? v call.target)

/-! ## Arrays of bytes and characters -/

/-- The elements of an array. -/
def array? : Value → Option (List Value)
  | .array _ es => some es
  | _ => none

/-- The bytes of elements that are all bytes. -/
def bytesOf : List Value → Except ConversionError (List UInt8)
  | [] => .ok []
  | v :: vs =>
    match v with
    | .integral n =>
      if n.width = .byte then (bytesOf vs).map (n.toByte :: ·)
      else .error (.ambiguous v.ty (.integral .byte))
    | v => .error (.ambiguous v.ty (.integral .byte))

/-- The characters of elements that are all characters. -/
def charsOf : List Value → Except ConversionError (List Char)
  | [] => .ok []
  | .char c :: vs => (charsOf vs).map (c :: ·)
  | v :: _ => .error (.ambiguous v.ty .char)

/-- Bytes as they stand in an error message. -/
def bytesText (bytes : List UInt8) : String :=
  "[" ++ commaSeparated (bytes.map fun b => Text.intText b.toNat) ++ "]"

/-- The text of bytes in a charset. -/
def decode (charset : Charset) (bytes : List UInt8) : Except ConversionError String :=
  match charset.decode bytes with
  | .ok cs => .ok (String.ofList cs)
  | .error e => .error (.invalidFormat .string (bytesText bytes) (.notDecodable e))

/-- The bytes of text in a charset. -/
def encode (charset : Charset) (text : String) : Except ConversionError (List UInt8) :=
  match charset.encode text.toList with
  | .ok bytes => .ok bytes
  | .error c =>
    .error (.invalidFormat (.array (.integral .byte)) text (.notRepresentable c charset))

def bytesToString : Conversion := .ofPure fun v call => do
  let bytes ← bytesOf (← expect (array? v) v call.target)
  return .string (← decode call.env.charset bytes)

def charsToString : Conversion := .ofPure fun v call => do
  return .string (String.ofList (← charsOf (← expect (array? v) v call.target)))

def textToBytes : Conversion := .ofPure fun v call => do
  let bytes ← encode call.env.charset (← expect v.text? v call.target)
  return .array (.integral .byte) (bytes.map fun b => .integral (.ofByte b))

def textToChars : Conversion := .ofPure fun v call => do
  let text ← expect v.text? v call.target
  return .array .char (text.toList.map .char)

/-! ## Truth values -/

/-- The truth value that a word stands for, whatever its case. -/
def readBoolean? (cs : List Char) : Option Bool :=
  let word := String.ofList ((Text.trim cs).map Char.toLower)
  if ["true", "yes", "y", "1"].contains word then some true
  else if ["false", "no", "n", "0"].contains word then some false
  else none

def textToBoolean : Conversion := .ofPure fun v call => do
  let text ← expect v.text? v call.target
  match readBoolean? text.toList with
  | some b => pure (.boolean b)
  | none => throw (.invalidFormat .boolean text .booleanText)

/-- Every number but zero is true. -/
def numberToBoolean : Conversion := .ofPure fun v call => do
  let n ← expect (Numeric.of? v) v call.target
  return .boolean !n.isZero

def charToBoolean : Conversion := .ofPure fun v call =>
  match v with
  | .char c =>
    if ['t', 'T', 'y', 'Y', '1'].contains c then .ok (.boolean true)
    else if ['f', 'F', 'n', 'N', '0'].contains c then .ok (.boolean false)
    else .error (.invalidFormat .boolean (String.singleton c) .booleanCharacter)
  | v => .error (unsupported v call.target)

/-! ## Characters -/

def textToChar : Conversion := .ofPure fun v call => do
  let text ← expect v.text? v call.target
  match text.toList with
  | [c] => pure (.char c)
  | _ => throw (.invalidFormat .char text .oneCharacter)

/-- The character of a code point, surrogates excepted. -/
def charOf? (n : Int) : Option Char :=
  if 0 ≤ n ∧ n.toNat.isValidChar then some (Char.ofNat n.toNat) else none

def numberToChar : Conversion := .ofPure fun v call => do
  let n ← expect (Numeric.of? v) v call.target
  let code ← n.truncated .char
  match charOf? code with
  | some c => pure (.char c)
  | none => throw (.outOfRange (.integer code) .char)

def booleanToChar : Conversion := .ofPure fun v call =>
  match v with
  | .boolean b => .ok (.char (if b then 't' else 'f'))
  | v => .error (unsupported v call.target)

/-! ## Language tags and type references -/

/-- The pieces of a text between separators. -/
def splitOn (separator : Char) : List Char → List (List Char)
  | [] => [[]]
  | c :: cs =>
    if c = separator then [] :: splitOn separator cs
    else
      match splitOn separator cs with
      | [] => [[c]]
      | piece :: pieces => (c :: piece) :: pieces

/-- A language tag: pieces of one to eight ASCII letters and digits. Underscores become
hyphens. -/
def readTag? (cs : List Char) : Option String :=
  let tag := (Text.trim cs).map fun c => if c = '_' then '-' else c
  let wellFormed (piece : List Char) : Bool :=
    1 ≤ piece.length && piece.length ≤ 8 &&
      piece.all fun c => Text.isDigit c || Text.isAsciiLetter c
  if (splitOn '-' tag).all wellFormed then some (String.ofList tag) else none

def textToLocale : Conversion := .ofPure fun v call => do
  let text ← expect v.text? v call.target
  match readTag? text.toList with
  | some tag => pure (.locale tag)
  | none => throw (.invalidFormat .locale text .languageTag)

def textToType : Conversion := .ofPure fun v call => do
  let text ← expect v.text? v call.target
  match call.env.types.find? (Text.trimmed text) with
  | some t => pure (.typeRef t)
  | none => throw (.invalidFormat .typeRef text .unknownType)

end Recast.Scalar
