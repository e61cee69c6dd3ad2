import IotDeviceSdk.Foundation.Decimal

/-!
# The string helper

The conversions of `StringHelper` that the device managers use: numbers and times to text,
and bytes to hexadecimal text.
-/

namespace StringHelper

open CString

/-- `StringHelper::ValueOf` of a number of an integer type. -/
def valueOf (val : ℤ) : List UInt8 :=
  Decimal.text val

/-- `StringHelper::ValueOf(int)`. -/
def valueOfInt (val : Int32) : List UInt8 :=
  valueOf val.toInt

/-- `StringHelper::ValueOf(long)`, for a `long` of 64 bits. -/
def valueOfLong (val : Int64) : List UInt8 :=
  valueOf val.toInt

/-- The text of a number that is not negative consists of digits. -/
theorem isDigit_of_mem_valueOf {val : ℤ} (h : 0 ≤ val) {c : UInt8} (hc : c ∈ valueOf val) :
  Decimal.IsDigit c
  := by
  obtain ⟨n, rfl⟩ := Int.eq_ofNat_of_zero_le h
  apply Decimal.isDigit_of_mem_natText hc

/-- `s_pszHexChars`. -/
def hexChars : List UInt8 :=
  ascii "0123456789abcdef"

/-- `StringHelper::ToHexString`; `none` is the null pointer. -/
def toHexString (pData : Option (List UInt8)) (nLength : UInt32) : List UInt8 :=
  match pData with
  | none => []
  | some data => (data.take nLength.toNat).flatMap fun b : UInt8 =>
      [hexChars.getD (b >>> 4).toNat 0, hexChars.getD (b &&& 0xf).toNat 0]

/-- The fields of a `struct tm` that are printed. -/
structure Tm where
  year : Int32
  mon : Int32
  mday : Int32
  hour : Int32
  min : Int32
  sec : Int32

/-- A number printed with `setfill('0')` and `setw(2)`. -/
def setw2 (val : Int32) : List UInt8 :=
  (valueOfInt val).leftpad 2 48

/-- `StringHelper::TimeString`, at the local time `tm`. -/
def timeString (tm : Tm) : List UInt8 :=
  valueOfInt (tm.year + 1900) ++ ascii "-" ++ setw2 (tm.mon + 1) ++ ascii "-" ++ setw2 tm.mday
    ++ ascii " " ++ setw2 tm.hour ++ ascii ":" ++ setw2 tm.min ++ ascii ":" ++ setw2 tm.sec

example : timeString ⟨118, 7, 6, 9, 30, 0⟩ = ascii "2018-08-06 09:30:00" := by decide

end StringHelper
