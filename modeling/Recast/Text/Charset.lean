/-
Character sets: how text becomes bytes and bytes become text. Latin-1 and
ASCII are the first 256 and the first 128 code points, a byte each.
-/
import Recast.Text.Utf8

namespace Recast

inductive Charset
  | utf8 | latin1 | ascii
deriving DecidableEq, Repr

namespace Charset

def name : Charset → String
  | .utf8 => "UTF-8"
  | .latin1 => "ISO-8859-1"
  | .ascii => "US-ASCII"

/-- The name in settings. -/
def setting : Charset → String
  | .utf8 => "utf8"
  | .latin1 => "latin1"
  | .ascii => "ascii"

/-- The other names that settings may use. -/
def aliases : Charset → List String
  | .utf8 => ["UTF-8"]
  | .latin1 => ["ISO-8859-1", "latin-1"]
  | .ascii => ["US-ASCII"]

def all : List Charset := [.utf8, .latin1, .ascii]

/-- The character set of a name in settings. -/
def ofSetting? (name : String) : Option Charset :=
  all.find? fun c => name = c.setting || c.aliases.contains name

/-- Bytes of a charset that decoding refuses. -/
inductive DecodeError
  | utf8 (failure : Text.Utf8.Failure)
  | notAscii (byte : UInt8)
deriving DecidableEq

/-- The bytes of a text in a set that gives each of its first `limit` code points one byte; the
error is the first character outside. -/
def encodeBelow (limit : Nat) : List Char → Except Char (List UInt8)
  | [] => .ok []
  | c :: cs =>
    if c.toNat < limit then (encodeBelow limit cs).map (UInt8.ofNat c.toNat :: ·) else .error c

/-- The bytes of a text; the error is the first character that the set lacks. -/
def encode : Charset → List Char → Except Char (List UInt8)
  | .utf8, cs => .ok (Text.Utf8.encode cs)
  | .latin1, cs => encodeBelow 256 cs
  | .ascii, cs => encodeBelow 128 cs

/-- Each byte as the character of its number. -/
def decodeEach (bytes : List UInt8) : List Char := bytes.map fun b => Char.ofNat b.toNat

/-- The text of bytes. -/
def decode : Charset → List UInt8 → Except DecodeError (List Char)
  | .utf8, bytes =>
    match Text.Utf8.decode bytes with
    | .ok cs => .ok cs
    | .error failure => .error (.utf8 failure)
  | .latin1, bytes => .ok (decodeEach bytes)
  | .ascii, bytes =>
    match bytes.find? fun b => 128 ≤ b.toNat with
    | some b => .error (.notAscii b)
    | none => .ok (decodeEach bytes)

end Charset

end Recast
