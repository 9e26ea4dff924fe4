import Countersign.Bytes.Hex
import Countersign.Decimal.Natural

/-!
# `Countersign.Json.Value`: values and their JSON text

Reports, refusals and settings are written as JSON without any blanks, the fields in the order
in which they are declared. All characters stand for themselves inside a string, apart from the
quote, the backslash and the control characters below the blank.
-/

set_option autoImplicit false

namespace Countersign.Json

/-- What can be written as JSON. -/
inductive Value where
  | bool (b : Bool)
  | number (n : Nat)
  | string (s : String)
  | array (items : List Value)
  | object (fields : List (String × Value))

/-- A character inside a string. -/
def escape (c : Char) : List Char :=
  match c with
  | '"' => ['\\', '"']
  | '\\' => ['\\', '\\']
  | '\x08' => ['\\', 'b']
  | '\x0c' => ['\\', 'f']
  | '\n' => ['\\', 'n']
  | '\r' => ['\\', 'r']
  | '\t' => ['\\', 't']
  | c =>
    if c.toNat < 32 then ['\\', 'u', '0', '0'] ++ Hex.ofByte (UInt8.ofNat c.toNat) else [c]

/-- A string between quotes. -/
def quote (s : String) : List Char :=
  '"' :: (s.toList.flatMap escape ++ ['"'])

mutual

/-- The text of a value. -/
def Value.chars : Value → List Char
  | .bool true => ['t', 'r', 'u', 'e']
  | .bool false => ['f', 'a', 'l', 's', 'e']
  | .number n => Decimal.chars n
  | .string s => quote s
  | .array items => '[' :: (itemChars items ++ [']'])
  | .object fields => '\x7b' :: (fieldChars fields ++ ['\x7d'])

/-- The texts of values, with commas between them. -/
def itemChars : List Value → List Char
  | [] => []
  | [v] => v.chars
  | v :: w :: vs => v.chars ++ ',' :: itemChars (w :: vs)

/-- The texts of fields, with commas between them. -/
def fieldChars : List (String × Value) → List Char
  | [] => []
  | [(name, v)] => quote name ++ ':' :: v.chars
  | (name, v) :: f :: fs => quote name ++ ':' :: (v.chars ++ ',' :: fieldChars (f :: fs))

end

/-- The text of a value. -/
def Value.render (v : Value) : String :=
  String.ofList v.chars

end Countersign.Json
