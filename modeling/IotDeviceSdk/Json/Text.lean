import IotDeviceSdk.Foundation.Decimal
import IotDeviceSdk.Json.WellFormed

/-!
# JSON texts

Which texts stand for a value in the JSON format: the grammar of values, with white space where
the format allows it, the escapes of strings, and numbers.  A string stands for its bytes up to the
first NUL byte, and an escaped surrogate is one of a pair.  An integer stands for itself within the
range of 64 bits; what the text of another number stands for is left to the parameter `double`.
The members of an object are entered one after another, so that the last one of a name counts.
-/

namespace Json.Text

open CString

/-- The string consists of white space. -/
def IsSpace (s : List UInt8) : Prop :=
  ∀ c ∈ s, c = 32 ∨ c = 9 ∨ c = 10 ∨ c = 13

/-! ### Strings -/

/-- The value of a hexadecimal digit, of either case. -/
def hexDigit (c : UInt8) : Option ℕ :=
  if 48 ≤ c ∧ c ≤ 57 then some (c.toNat - 48)
  else if 65 ≤ c ∧ c ≤ 70 then some (c.toNat - 55)
  else if 97 ≤ c ∧ c ≤ 102 then some (c.toNat - 87)
  else none

/-- The string consists of four hexadecimal digits that stand for `n`. -/
def IsHex (n : ℕ) (s : List UInt8) : Prop :=
  ∃ a b c d w x y z, s = [a, b, c, d] ∧ hexDigit a = some w ∧ hexDigit b = some x
    ∧ hexDigit c = some y ∧ hexDigit d = some z ∧ n = 4096 * w + 256 * x + 16 * y + z

/-- The text of a character of a string, and the bytes of the character. -/
inductive CharText : List UInt8 → List UInt8 → Prop where
  | plain (c : UInt8) : 32 ≤ c → c ≠ 34 → c ≠ 92 → CharText [c] [c]
  | quote : CharText [92, 34] [34]
  | backslash : CharText [92, 92] [92]
  | slash : CharText [92, 47] [47]
  | backspace : CharText [92, 98] [8]
  | formFeed : CharText [92, 102] [12]
  | lineFeed : CharText [92, 110] [10]
  | carriageReturn : CharText [92, 114] [13]
  | tab : CharText [92, 116] [9]
  | unicode (c : Char) (s : List UInt8) :
    IsHex c.toNat s → CharText (92 :: 117 :: s) (String.utf8EncodeChar c)
  | surrogatePair (c : Char) (s t : List UInt8) :
    0x10000 ≤ c.toNat → IsHex (0xD800 + (c.toNat - 0x10000) / 0x400) s →
    IsHex (0xDC00 + (c.toNat - 0x10000) % 0x400) t →
    CharText (92 :: 117 :: s ++ 92 :: 117 :: t) (String.utf8EncodeChar c)

/-- The text of the characters of a string, and their bytes. -/
inductive CharsText : List UInt8 → List UInt8 → Prop where
  | nil : CharsText [] []
  | cons {s t u v : List UInt8} : CharText s t → CharsText u v → CharsText (s ++ u) (t ++ v)

/-- The text of a string, in quotes. -/
def StringText (s value : List UInt8) : Prop :=
  ∃ chars, s = 34 :: chars ++ [34] ∧ CharsText chars value

/-! ### Numbers -/

/-- The string consists of digits, and there are some. -/
def IsDigits (s : List UInt8) : Prop :=
  s ≠ [] ∧ ∀ c ∈ s, Decimal.IsDigit c

/-- The string is the fraction of a number, or nothing. -/
def IsFraction (s : List UInt8) : Prop :=
  s = [] ∨ ∃ digits, s = 46 :: digits ∧ IsDigits digits

/-- The string is the exponent of a number, or nothing. -/
def IsExponent (s : List UInt8) : Prop :=
  s = [] ∨ ∃ e sign digits, s = e :: sign ++ digits ∧ (e = 69 ∨ e = 101)
    ∧ (sign = [] ∨ sign = [43] ∨ sign = [45]) ∧ IsDigits digits

/-- The text of a number that is not an integer, or has an exponent. -/
def IsReal (s : List UInt8) : Prop :=
  ∃ sign n fraction exponent, s = sign ++ Decimal.natText n ++ fraction ++ exponent
    ∧ (sign = [] ∨ sign = [45]) ∧ IsFraction fraction ∧ IsExponent exponent
    ∧ fraction ++ exponent ≠ []

/-- The text of a number.  An integer is an `Int64` where the range of `int` allows it, or where
it is negative, and a `UInt64` otherwise. -/
inductive NumberText (double : List UInt8 → Option Double) : List UInt8 → Value → Prop where
  | int (n : Int64) : n.toInt ≤ 2147483647 → NumberText double (Decimal.text n.toInt) (.int n)
  | uint (n : UInt64) : 2147483647 < n.toNat → NumberText double (Decimal.text n.toNat) (.uint n)
  | minusZero : NumberText double [45, 48] (.int 0)
  | real (s : List UInt8) (r : Double) :
    IsReal s → double s = some r → NumberText double s (.real r)

/-! ### Values -/

/-- An object with these members, entered one after another. -/
def objectOf (members : List (List UInt8 × Value)) : Value :=
  .object (Members.enter [] members)

mutual

/-- The text of a value. -/
inductive ValueText (double : List UInt8 → Option Double) : List UInt8 → Value → Prop where
  | null : ValueText double (ascii "null") .null
  | true : ValueText double (ascii "true") (.bool true)
  | false : ValueText double (ascii "false") (.bool false)
  | number {s : List UInt8} {v : Value} : NumberText double s v → ValueText double s v
  | string {s value : List UInt8} : StringText s value → ValueText double s (.string (cstr value))
  | emptyArray {space : List UInt8} :
    IsSpace space → ValueText double (91 :: space ++ [93]) (.array [])
  | array {s : List UInt8} {items : List Value} :
    ItemsText double s items → ValueText double (91 :: s ++ [93]) (.array items)
  | emptyObject {space : List UInt8} :
    IsSpace space → ValueText double (123 :: space ++ [125]) (.object [])
  | object {s : List UInt8} {members : List (List UInt8 × Value)} :
    MembersText double s members → ValueText double (123 :: s ++ [125]) (objectOf members)

/-- The text of the items of an array, of which there are some. -/
inductive ItemsText (double : List UInt8 → Option Double) : List UInt8 → List Value → Prop where
  | last {before s after : List UInt8} {v : Value} :
    IsSpace before → ValueText double s v → IsSpace after →
    ItemsText double (before ++ s ++ after) [v]
  | cons {before s after t : List UInt8} {v : Value} {items : List Value} :
    IsSpace before → ValueText double s v → IsSpace after → ItemsText double t items →
    ItemsText double (before ++ s ++ after ++ 44 :: t) (v :: items)

/-- The text of a member of an object. -/
inductive MemberText (double : List UInt8 → Option Double) :
    List UInt8 → List UInt8 × Value → Prop where
  | mk {before key beforeColon afterColon s after name : List UInt8} {v : Value} :
    IsSpace before → StringText key name → IsSpace beforeColon → IsSpace afterColon →
    ValueText double s v → IsSpace after →
    MemberText double (before ++ key ++ beforeColon ++ 58 :: afterColon ++ s ++ after) (name, v)

/-- The text of the members of an object, of which there are some. -/
inductive MembersText (double : List UInt8 → Option Double) :
    List UInt8 → List (List UInt8 × Value) → Prop where
  | last {s : List UInt8} {m : List UInt8 × Value} :
    MemberText double s m → MembersText double s [m]
  | cons {s t : List UInt8} {m : List UInt8 × Value} {members : List (List UInt8 × Value)} :
    MemberText double s m → MembersText double t members →
    MembersText double (s ++ 44 :: t) (m :: members)

end

/-- The text of a document: a value with white space around it. -/
def DocumentText (double : List UInt8 → Option Double) (s : List UInt8) (v : Value) : Prop :=
  ∃ before t after, s = before ++ t ++ after ∧ IsSpace before ∧ ValueText double t v ∧ IsSpace after

end Json.Text
