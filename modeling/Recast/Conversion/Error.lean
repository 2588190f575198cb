/-
Why a conversion fails. Each error is a cause; `ConversionError.message` is
its text.
-/
import Recast.Collection
import Recast.Number.Binary.Shortest
import Recast.Number.Decimal.Reading
import Recast.Text.Charset
import Recast.Value.Text

namespace Recast

/-- Why an input does not have the form of its target. -/
inductive Reason
  | emptyText
  | notANumber
  | notAnInteger
  | decimal (error : DecimalError)
  | float
  | booleanText
  | booleanCharacter
  | oneCharacter
  | languageTag
  | unknownType
  | isoText
  | notRepresentable (c : Char) (charset : Charset)
  | notDecodable (error : Charset.DecodeError)
  | longName (limit : Nat)
  | noConstant (name : String)
  | readOnly
  /-- A reason that a caller's own conversion gives. -/
  | other (text : String)

namespace Reason

def decodeMessage : Charset.DecodeError → String
  | .utf8 ⟨index, some bad⟩ =>
    "invalid utf-8 sequence of " ++ Text.intText bad ++ " bytes from index " ++ Text.intText index
  | .utf8 ⟨index, none⟩ => "incomplete utf-8 byte sequence from index " ++ Text.intText index
  | .notAscii b => "byte 0x" ++ String.ofList (Text.hexPadded 2 b.toNat) ++ " is not ASCII"

def message : Reason → String
  | .emptyText => "empty text"
  | .notANumber => "not a number"
  | .notAnInteger => "not an integer"
  | .decimal error => error.message
  | .float => "invalid float literal"
  | .booleanText => "expected true/false, yes/no, y/n or 1/0"
  | .booleanCharacter => "expected t/f, y/n or 1/0"
  | .oneCharacter => "expected exactly one character"
  | .languageTag => "expected a BCP-47 language tag"
  | .unknownType => "unknown type"
  | .isoText => "expected ISO-8601 text"
  | .notRepresentable c charset =>
    "'" ++ String.singleton c ++ "' is not representable in " ++ charset.name
  | .notDecodable error => decodeMessage error
  | .longName limit => "name longer than " ++ Text.intText limit ++ " characters"
  | .noConstant name => "no constant named " ++ name
  | .readOnly => "collection is read-only"
  | .other text => text

end Reason

/-- What was out of range. -/
inductive Excess
  | integer (n : Int)
  | double (x : Binary .double)
  | text (s : String)
  | moment (m : LocalDateTime)
  | elements (size : Nat)

def Excess.message : Excess → String
  | .integer n => Text.intText n
  | .double x => FloatStyle.plain.render x
  | .text s => s
  | .moment m => String.ofList ((DateTime.mk m .utc).text false)
  | .elements size => Text.intText size ++ " elements"

/-- Why a conversion fails. -/
inductive ConversionError
  /-- There is no conversion between the types. -/
  | unsupported (source target : Ty)
  /-- The input does not have the form of the target. -/
  | invalidFormat (target : Ty) (input : String) (reason : Reason)
  /-- The value does not fit the target. -/
  | outOfRange (excess : Excess) (target : Ty)
  /-- The value has a shape from which the expected one cannot be made. -/
  | ambiguous (found expected : Ty)
  /-- The elements of a set have no settled order (`Discipline.Settles`), and nothing is promised of
  the conversion. Sorting them may stop the program. -/
  | unsettled

namespace ConversionError

def isUnsettled : ConversionError → Bool
  | .unsettled => true
  | _ => false

def message : ConversionError → String
  | .unsupported source target =>
    "Unsupported conversion from " ++ source.name ++ " to " ++ target.name
  | .invalidFormat target input reason =>
    "Cannot convert '" ++ input ++ "' to " ++ target.name ++ ": " ++ reason.message
  | .outOfRange excess target =>
    "Value " ++ excess.message ++ " is out of range for " ++ target.name
  | .ambiguous found expected =>
    "Cannot interpret " ++ found.name ++ " as " ++ expected.name
  | .unsettled => "user-provided comparison function does not correctly implement a total order"

/-- What a collection's refusal means for a conversion. -/
def ofCollection : CollectionError → ConversionError
  | .capacity type size => .outOfRange (.elements size) (.collection type)
  | .elementType expected found => .ambiguous found expected
  | .readOnly type => .invalidFormat (.collection type) type.name .readOnly

end ConversionError

end Recast
