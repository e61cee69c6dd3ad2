import IotDeviceSdk.Foundation.Decimal
import IotDeviceSdk.Json.Value

/-!
# The fast writer

`Json::FastWriter`, which writes a value as one line of text.  The text that the C library
prints for a `double` under the format `%#.16g` is the parameter `sprintf`.
-/

namespace Json

open CString

/-- `isControlCharacter`. -/
def isControlCharacter (ch : UInt8) : Bool :=
  0 < ch && ch ≤ 0x1F

/-- `valueToString(double)`: the trailing zeros of the decimals are truncated, but for
one. -/
def valueToStringDouble (sprintf : Double → List UInt8) (value : Double) : List UInt8 :=
  let buffer := sprintf value
  let stripped := (buffer.reverse.dropWhile (· == 48)).reverse
  match stripped.reverse.dropWhile fun c => decide (Decimal.IsDigit c) with
  | 46 :: _ => buffer.take (stripped.length + 1)
  | _ => buffer

/-- `valueToString(bool)`. -/
def valueToStringBool (value : Bool) : List UInt8 :=
  if value then ascii "true" else ascii "false"

/-- An upper-case hexadecimal digit. -/
def upperHexChar (n : ℕ) : UInt8 :=
  (ascii "0123456789ABCDEF").getD n 0

/-- The text of a character in a quoted string: special and control characters are
escaped. -/
def escape (c : UInt8) : List UInt8 :=
  if c = 34 then ascii "\\\""
  else if c = 92 then ascii "\\\\"
  else if c = 8 then ascii "\\b"
  else if c = 12 then ascii "\\f"
  else if c = 10 then ascii "\\n"
  else if c = 13 then ascii "\\r"
  else if c = 9 then ascii "\\t"
  else if isControlCharacter c then
    ascii "\\u00" ++ [upperHexChar (c.toNat / 16), upperHexChar (c.toNat % 16)]
  else [c]

/-- `containsControlCharacter`. -/
def containsControlCharacter (str : List UInt8) : Bool :=
  (cstr str).any isControlCharacter

/-- `valueToQuotedString`. -/
def valueToQuotedString (value : List UInt8) : List UInt8 :=
  if !(cstr value).any (· ∈ ascii "\"\\\x08\x0c\n\r\t") && !containsControlCharacter value then
    ascii "\"" ++ cstr value ++ ascii "\""
  else
    ascii "\"" ++ (cstr value).flatMap escape ++ ascii "\""

namespace FastWriter

variable (sprintf : Double → List UInt8)

mutual

/-- `FastWriter::writeValue`. -/
def writeValue : Value → List UInt8
  | .null => ascii "null"
  | .int n => Decimal.text n.toInt
  | .uint n => Decimal.text n.toNat
  | .real r => valueToStringDouble sprintf r
  | .string s => valueToQuotedString s
  | .bool b => valueToStringBool b
  | .array items => ascii "[" ++ writeItems items ++ ascii "]"
  | .object members => ascii "\x7b" ++ writeMembers members ++ ascii "\x7d"

/-- The items of an array, with a comma between two. -/
def writeItems : List Value → List UInt8
  | [] => []
  | [value] => writeValue value
  | value :: items => writeValue value ++ ascii "," ++ writeItems items

/-- The members of an object, with a comma between two. -/
def writeMembers : List (List UInt8 × Value) → List UInt8
  | [] => []
  | [(name, value)] => valueToQuotedString name ++ ascii ":" ++ writeValue value
  | (name, value) :: members =>
    valueToQuotedString name ++ ascii ":" ++ writeValue value ++ ascii "," ++ writeMembers members

end

/-- `FastWriter::write`. -/
def write (root : Value) : List UInt8 :=
  writeValue sprintf root ++ ascii "\n"

example :
    write (fun _ => []) (.object [(ascii "id", .int 1), (ascii "s", .string (ascii "a\"b"))])
      = ascii "\x7b\"id\":1,\"s\":\"a\\\"b\"\x7d\n" := by
  decide

end FastWriter

end Json
