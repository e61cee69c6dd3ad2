import IotDeviceSdk.Foundation.CString
import Mathlib.Data.Rat.Defs

/-!
# JSON values

The part of `Json::Value` that the device managers use: the member access `operator[]`,
which turns a null value into an object and adds the member that it does not find, and the
conversions `asString` and `asInt`, which fail on some types and on numbers out of range.
-/

namespace Json

open CString

/-- A `double`; a finite one is taken as the rational number it stands for. -/
inductive Double where
  | finite (q : ℚ)
  | inf (negative : Bool)
  | nan

/-- `Json::Value`.  The members of an object are listed in the order of their keys. -/
inductive Value where
  | null
  | int (n : Int64)
  | uint (n : UInt64)
  | real (r : Double)
  | string (s : List UInt8)
  | bool (b : Bool)
  | array (items : List Value)
  | object (members : List (List UInt8 × Value))

/-- The ways in which an access to a value fails: an assertion does, or an exception is
thrown. -/
inductive Failure where
  | assertionFailed
  | runtimeError (what : String)

/-- The members of an object. -/
abbrev Members := List (List UInt8 × Value)

namespace Members

/-- The member of the given key. -/
def find (key : List UInt8) : Members → Option Value
  | [] => none
  | (k, v) :: members => if k = key then some v else find key members

/-- Set the member of the given key, or insert it before the first greater key. -/
def insert (key : List UInt8) (value : Value) : Members → Members
  | [] => [(key, value)]
  | (k, v) :: members =>
    if k = key then
      (key, value) :: members
    else if strcmp key k < 0 then
      (key, value) :: (k, v) :: members
    else
      (k, v) :: insert key value members

/-- A member that was set is found, and all others stay. -/
theorem find_insert (key' key : List UInt8) (value : Value) (members : Members) :
  find key' (insert key value members) = if key' = key then some value else find key' members
  := by
  induction members with
  | nil => simp only [insert, find, eq_comm]
  | cons m members ih =>
    obtain ⟨k, v⟩ := m
    simp only [insert, find]
    split
    · next heq =>
      subst heq
      simp only [find, eq_comm (a := k)]
      split
      · rfl
      · rfl
    · next hne =>
      split
      · simp only [find, eq_comm (a := key)]
      · simp only [find, ih]
        split
        · next hk =>
          subst hk
          rw [if_neg hne]
        · rfl

end Members

namespace Value

/-- `Value::minInt`. -/
def minInt : ℤ := -2147483648

/-- `Value::maxInt`. -/
def maxInt : ℤ := 2147483647

/-- `Value::resolveReference`, which is `operator[]` by a key: the member referred to, and
the value that has it. -/
def resolveReference (v : Value) (key : List UInt8) : Except Failure (Value × Value) :=
  match v with
  | .null => .ok (.null, .object (Members.insert key .null []))
  | .object members =>
    match Members.find key members with
    | some value => .ok (value, v)
    | none => .ok (.null, .object (Members.insert key .null members))
  | _ => .error .assertionFailed

/-- `Value::asString`. -/
def asString : Value → Except Failure (List UInt8)
  | .null => .ok []
  | .string s => .ok (cstr s)
  | .bool b => .ok (if b then ascii "true" else ascii "false")
  | _ => .error (.runtimeError "Type is not convertible to string")

/-- `Value::asInt`.  No comparison with an infinity or a NaN holds on both sides. -/
def asInt : Value → Except Failure Int32
  | .null => .ok 0
  | .int n =>
    if minInt ≤ n.toInt ∧ n.toInt ≤ maxInt then
      .ok n.toInt32
    else
      .error (.runtimeError "unsigned integer out of signed int range")
  | .uint n =>
    if n.toNat ≤ maxInt then
      .ok n.toUInt32.toInt32
    else
      .error (.runtimeError "unsigned integer out of signed int range")
  | .real (.finite q) =>
    if minInt ≤ q ∧ q ≤ maxInt then
      .ok (Int32.ofInt (q.num.tdiv q.den))
    else
      .error (.runtimeError "Real out of signed integer range")
  | .real _ => .error (.runtimeError "Real out of signed integer range")
  | .bool b => .ok (if b then 1 else 0)
  | _ => .error (.runtimeError "Type is not convertible to int")

/-! ### What the accesses find -/

/-- The value is null or an object, so it can be asked for its members. -/
def HasMembers : Value → Prop
  | .null | .object _ => True
  | _ => False

/-- The member of the given key; null when there is none. -/
def member (v : Value) (key : List UInt8) : Value :=
  match v with
  | .object members => (Members.find key members).getD .null
  | _ => .null

/-- The value can be converted to a string: it is null, a string or a boolean. -/
def ConvertibleToString : Value → Prop
  | .null | .string _ | .bool _ => True
  | _ => False

/-- The value can be converted to an `int`: it is null, a boolean, or a number within the
range of `int`. -/
def ConvertibleToInt : Value → Prop
  | .null | .bool _ => True
  | .int n => minInt ≤ n.toInt ∧ n.toInt ≤ maxInt
  | .uint n => n.toNat ≤ maxInt
  | .real (.finite q) => minInt ≤ q ∧ q ≤ maxInt
  | _ => False

/-- `operator[]` on a value that can have members finds the member, and leaves a value with
the same members. -/
theorem resolveReference_of_hasMembers {v : Value} (h : v.HasMembers) (key : List UInt8) :
  ∃ v', v.resolveReference key = .ok (v.member key, v')
    ∧ v'.HasMembers ∧ ∀ key', v'.member key' = v.member key'
  := by
  cases v with
  | null =>
    use .object (Members.insert key .null []), rfl, trivial
    intro key'
    rw [member, Members.find_insert]
    split
    · rfl
    · rfl
  | object members =>
    rw [resolveReference, member]
    cases hfind : Members.find key members with
    | some value =>
      use .object members, rfl, trivial
      intro key'
      rfl
    | none =>
      use .object (Members.insert key .null members), rfl, trivial
      intro key'
      rw [member, Members.find_insert]
      split
      · next hkey =>
        rw [hkey, member, hfind]
        rfl
      · rfl
  | int | uint | real | string | bool | array => contradiction

/-- `operator[]` on any other value fails. -/
theorem resolveReference_of_not_hasMembers
    {v : Value} (h : ¬ v.HasMembers) (key : List UInt8) :
  v.resolveReference key = .error .assertionFailed
  := by
  cases v with
  | null | object => exact absurd trivial h
  | int | uint | real | string | bool | array => rfl

/-- `asString` succeeds exactly on the values that can be converted. -/
theorem asString_isOk_iff (v : Value) :
  (∃ s, v.asString = .ok s) ↔ v.ConvertibleToString
  := by
  cases v with
  | null | string | bool => simp [asString, ConvertibleToString]
  | int | uint | real | array | object => simp [asString, ConvertibleToString]

/-- `asInt` succeeds exactly on the values that can be converted. -/
theorem asInt_isOk_iff (v : Value) :
  (∃ n, v.asInt = .ok n) ↔ v.ConvertibleToInt
  := by
  cases v with
  | null | bool | string | array | object => simp [asInt, ConvertibleToInt]
  | int n =>
    simp only [asInt, ConvertibleToInt]
    split
    · next h => simp [h]
    · next h => simp [h]
  | uint n =>
    simp only [asInt, ConvertibleToInt]
    split
    · next h => simp [h]
    · next h => simp [h]
  | real r =>
    cases r with
    | finite q =>
      simp only [asInt, ConvertibleToInt]
      split
      · next h => simp [h]
      · next h => simp [h]
    | inf | nan => simp [asInt, ConvertibleToInt]

end Value

end Json
