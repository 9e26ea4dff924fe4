import Countersign.Decimal.Shortest
import Countersign.ScriptHash
import Countersign.Text.Quoted

/-!
# `Countersign.Schema.Mismatch`: when a document does not say what was asked for

A document may be written correctly and still hold a value of the wrong type, a field that nobody
knows, or lack one that is needed. The causes are the same for every notation; notations differ
in how a message about them writes a fraction.
-/

set_option autoImplicit false

namespace Countersign

/-- The value that stands where another one was expected. -/
inductive Found where
  | null
  | bool (b : Bool)
  | integer (i : Int)
  | fraction (x : Float)
  | string (s : String)
  | sequence
  | map

/-- Why a document does not say what was asked for. -/
inductive Mismatch where
  /-- A value of another type was expected. -/
  | wrongType (found : Found) (expected : String)
  /-- The value has the right type, but the type takes no such value here. -/
  | wrongValue (found : Found) (expected : String)
  /-- A sequence ends after too few elements. -/
  | wrongLength (length : Nat) (expected : String)
  /-- Nobody knows this field. -/
  | unknownField (name : String) (known : List String)
  /-- Nobody knows this alternative. -/
  | unknownVariant (name : String) (known : List String)
  /-- The field was there before. -/
  | duplicateField (name : String)
  /-- A field that is needed is not there. -/
  | missingField (name : String)
  /-- The string is not a script hash. -/
  | badHash (cause : ScriptHash.Malformed)

/-- A value in a message. -/
def Found.describe (style : Decimal.FractionStyle) : Found → String
  | .null => "null"
  | .bool true => "boolean " ++ Text.tick "true"
  | .bool false => "boolean " ++ Text.tick "false"
  | .integer i => "integer " ++ Text.tick (Decimal.ofInt i)
  | .fraction x => "floating point " ++ Text.tick (style.write x)
  | .string s => "string " ++ Text.quoteString s
  | .sequence => "sequence"
  | .map => "map"

/-- The names that would have been right. -/
def oneOf (names : List String) : String :=
  "expected one of " ++ ", ".intercalate (names.map Text.tick)

/-- The cause as a message. -/
def Hex.Malformed.message : Hex.Malformed → String
  | .oddLength => "Odd number of digits"
  | .badDigit byte place =>
    "Invalid character " ++ Text.quoteChar (Char.ofNat byte.toNat) ++ " at position "
      ++ Decimal.ofNat place

/-- The reason why a text is no script hash. -/
def ScriptHash.Malformed.reason : ScriptHash.Malformed → String
  | .hex cause => "invalid hex: " ++ cause.message
  | .length bytes => "must be 20 bytes, got " ++ Decimal.ofNat bytes

/-- The cause as a message. -/
def ScriptHash.Malformed.message (m : ScriptHash.Malformed) : String :=
  "program hash error: " ++ m.reason

/-- The cause as a message. -/
def Mismatch.message (style : Decimal.FractionStyle) : Mismatch → String
  | .wrongType found expected =>
    "invalid type: " ++ found.describe style ++ ", expected " ++ expected
  | .wrongValue found expected =>
    "invalid value: " ++ found.describe style ++ ", expected " ++ expected
  | .wrongLength length expected =>
    "invalid length " ++ Decimal.ofNat length ++ ", expected " ++ expected
  | .unknownField name known => "unknown field " ++ Text.tick name ++ ", " ++ oneOf known
  | .unknownVariant name known => "unknown variant " ++ Text.tick name ++ ", " ++ oneOf known
  | .duplicateField name => "duplicate field " ++ Text.tick name
  | .missingField name => "missing field " ++ Text.tick name
  | .badHash cause => cause.message

end Countersign
