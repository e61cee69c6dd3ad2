import IotDeviceSdk.Baselib.StringHelper
import IotDeviceSdk.Foundation.Extraction

/-!
# Numbers from texts and to texts

The conversions of `StringHelper` from a text to an integer return a local variable that they
do not initialise, without a look at the state of the stream they extract it from.  The default
they are given is returned for the null pointer, and otherwise only where it happens to be what
the library stores on failure, see `yields_default_iff`.  The text that `ValueOf` makes of a
number they convert to the number again, see `result_text`.
-/

namespace StringHelper

open CString Extraction

/-- What the conversions have in common: `val` is the uninitialised local variable, and `none`
is the null pointer. -/
def xxxValue {α : Type} (type : IntegerType α) (base : Base) (standard : Standard) (val : α)
    (psz : Option (List UInt8)) (nDefault : α) : α :=
  match psz with
  | none => nDefault
  | some psz => store standard type (extract type base (cstr psz)) val

/-- `StringHelper::ShortValue`. -/
def shortValue (standard : Standard) (val : Int16) (psz : Option (List UInt8))
    (nDefault : Int16) : Int16 :=
  xxxValue int16 .dec standard val psz nDefault

/-- `StringHelper::UShortValue`. -/
def uShortValue (standard : Standard) (val : UInt16) (psz : Option (List UInt8))
    (nDefault : UInt16) : UInt16 :=
  xxxValue uint16 .dec standard val psz nDefault

/-- `StringHelper::IntValue`. -/
def intValue (standard : Standard) (val : Int32) (psz : Option (List UInt8)) (nDefault : Int32)
    (bHex : Bool) : Int32 :=
  xxxValue int32 (if bHex then .hex else .dec) standard val psz nDefault

/-- `StringHelper::UIntValue`. -/
def uIntValue (standard : Standard) (val : UInt32) (psz : Option (List UInt8))
    (nDefault : UInt32) : UInt32 :=
  xxxValue uint32 .dec standard val psz nDefault

/-- `StringHelper::LongValue`, for a `long` of 64 bits. -/
def longValue (standard : Standard) (val : Int64) (psz : Option (List UInt8))
    (nDefault : Int64) : Int64 :=
  xxxValue int64 .dec standard val psz nDefault

/-- `StringHelper::ULongValue`, for a `long` of 64 bits. -/
def uLongValue (standard : Standard) (val : UInt64) (psz : Option (List UInt8))
    (nDefault : UInt64) : UInt64 :=
  xxxValue uint64 .dec standard val psz nDefault

/-- `StringHelper::Int64Value`. -/
def int64Value (standard : Standard) (val : Int64) (psz : Option (List UInt8))
    (nDefault : Int64) : Int64 :=
  xxxValue int64 .dec standard val psz nDefault

/-- `StringHelper::UInt64Value`. -/
def uInt64Value (standard : Standard) (val : UInt64) (psz : Option (List UInt8))
    (nDefault : UInt64) : UInt64 :=
  xxxValue uint64 .dec standard val psz nDefault

/-- `StringHelper::ValueOf(short)`. -/
def valueOfShort (val : Int16) : List UInt8 :=
  valueOf val.toInt

/-- `StringHelper::ValueOf(unsigned short)`. -/
def valueOfUShort (val : UInt16) : List UInt8 :=
  valueOf val.toNat

/-- `StringHelper::ValueOf(unsigned int)`. -/
def valueOfUInt (val : UInt32) : List UInt8 :=
  valueOf val.toNat

/-- `StringHelper::ValueOf(unsigned long)`, for a `long` of 64 bits. -/
def valueOfULong (val : UInt64) : List UInt8 :=
  valueOf val.toNat

/-- `StringHelper::ValueOf(int64)`. -/
def valueOfInt64 (val : Int64) : List UInt8 :=
  valueOf val.toInt

/-- `StringHelper::ValueOf(uint64)`. -/
def valueOfUInt64 (val : UInt64) : List UInt8 :=
  valueOf val.toNat

/-! ### All conversions -/

/-- The conversions, of which `IntValue` has two paths. -/
inductive Conversion where
  | short | uShort | int (bHex : Bool) | uInt | long | uLong | int64 | uInt64
  deriving DecidableEq

namespace Conversion

/-- The type that a conversion returns. -/
abbrev Value : Conversion → Type
  | .short => Int16
  | .uShort => UInt16
  | .int _ => Int32
  | .uInt => UInt32
  | .long => Int64
  | .uLong => UInt64
  | .int64 => Int64
  | .uInt64 => UInt64

/-- The type of the variable that a conversion extracts. -/
def type : (c : Conversion) → IntegerType c.Value
  | .short => int16
  | .uShort => uint16
  | .int _ => int32
  | .uInt => uint32
  | .long => Extraction.int64
  | .uLong => uint64
  | .int64 => Extraction.int64
  | .uInt64 => uint64

/-- The base that a conversion sets its stream to. -/
def base : Conversion → Base
  | .int true => .hex
  | _ => .dec

/-- The result of a conversion. -/
def result (standard : Standard) :
    (c : Conversion) → (val : c.Value) → Option (List UInt8) → (nDefault : c.Value) → c.Value
  | .short => shortValue standard
  | .uShort => uShortValue standard
  | .int bHex => fun val psz nDefault => intValue standard val psz nDefault bHex
  | .uInt => uIntValue standard
  | .long => longValue standard
  | .uLong => uLongValue standard
  | .int64 => int64Value standard
  | .uInt64 => uInt64Value standard

/-- What `ValueOf` makes of a number of the type that a conversion returns. -/
def text : (c : Conversion) → c.Value → List UInt8
  | .short => valueOfShort
  | .uShort => valueOfUShort
  | .int _ => valueOfInt
  | .uInt => valueOfUInt
  | .long => valueOfLong
  | .uLong => valueOfULong
  | .int64 => valueOfInt64
  | .uInt64 => valueOfUInt64

/-- The conversions differ in the type and the base only. -/
theorem result_eq (standard : Standard) (c : Conversion) :
  c.result standard = xxxValue c.type c.base standard
  := by
  cases c with
  | int bHex => cases bHex with
    | false => rfl
    | true => rfl
  | short | uShort | uInt | long | uLong | int64 | uInt64 => rfl

theorem text_eq (c : Conversion) (v : c.Value) :
  c.text v = Decimal.text (c.type.toInt v)
  := by
  cases c with
  | short | uShort | int | uInt | long | uLong | int64 | uInt64 => rfl

end Conversion

/-- From a text that no number can be extracted from, a conversion yields its default exactly
when this is what C++11 stores on failure: `0` if there is no number, and the nearest limit of
the type if the number is out of range. -/
theorem yields_default_iff
    (standard : Standard) (c : Conversion) (psz : List UInt8) (nDefault : c.Value)
    (h : (extract c.type c.base (cstr psz)).fails) :
  (∀ val, c.result standard val (some psz) nDefault = nDefault)
    ↔ standard = .cpp11
      ∧ ((extract c.type c.base (cstr psz) = .noNumber ∧ c.type.toInt nDefault = 0)
        ∨ (extract c.type c.base (cstr psz) = .tooSmall ∧ c.type.toInt nDefault = c.type.min)
        ∨ (extract c.type c.base (cstr psz) = .tooLarge ∧ c.type.toInt nDefault = c.type.max))
  := by
  rw [c.result_eq]
  apply forall_store_eq_iff h

/-- The hypothesis of `yields_default_iff` is met by the conversion of a word. -/
theorem intValue_word_yields_default_iff :
  (∀ val, (Conversion.int false).result .cpp11 val (some (ascii "on")) 0 = (0 : Int32))
    ↔ Standard.cpp11 = .cpp11
      ∧ ((extract int32 .dec (cstr (ascii "on")) = .noNumber ∧ int32.toInt 0 = 0)
        ∨ (extract int32 .dec (cstr (ascii "on")) = .tooSmall ∧ int32.toInt 0 = int32.min)
        ∨ (extract int32 .dec (cstr (ascii "on")) = .tooLarge ∧ int32.toInt 0 = int32.max))
  := by
  apply yields_default_iff .cpp11 (.int false) (ascii "on") (0 : Int32)
  decide

/-- From the empty text, `IntValue` yields whatever its local variable holds, and from a word
it yields `0`, with a default of `5`. -/
theorem not_intValue_yields_default :
  ((extract int32 .dec (cstr (ascii ""))).fails
      ∧ ¬ ∀ val, intValue .cpp11 val (some (ascii "")) 5 false = 5)
    ∧ ((extract int32 .dec (cstr (ascii "on"))).fails
      ∧ intValue .cpp11 7 (some (ascii "on")) 5 false = 0)
  := by
  constructor
  · use by decide
    intro h
    apply absurd (h 7)
    decide
  · decide

/-! ### There and back -/

/-- Converting a number to its text and back yields the number. -/
theorem result_text_eq
    (standard : Standard) {c : Conversion} (hbase : c.base = .dec) (v val nDefault : c.Value) :
  c.result standard val (some (c.text v ++ [0])) nDefault = v
  := by
  obtain ⟨hmin, hmax⟩ := c.type.mem_range v
  have hcstr : cstr (c.text v ++ [0]) = c.text v := by
    apply cstr_concat_zero
    rw [c.text_eq]
    apply Decimal.zero_notMem_text
  have hextract : extract c.type .dec (c.text v) = .value v := by
    rw [extract_of_canonical c.type hmin hmax (Decimal.canonical_iff.mpr (c.text_eq v)),
      c.type.ofInt_toInt]
  rw [c.result_eq, xxxValue, hbase, hcstr, hextract]
  rfl

/-- The text that `ValueOf` makes of a number is the canonical decimal text of the number, no
other number of the type has the same text, and the conversion of the type that reads decimal
numbers yields the number again, whatever the default is. -/
theorem result_text
    (standard : Standard) (c : Conversion) (hbase : c.base = .dec) (v : c.Value) :
  (∀ val nDefault, c.result standard val (some (c.text v ++ [0])) nDefault = v)
    ∧ (∀ s, Decimal.Canonical (c.type.toInt v) s ↔ s = c.text v)
    ∧ ∀ v', c.text v' = c.text v → v' = v
  := by
  have hresult := result_text_eq standard hbase
  constructor
  · apply hresult
  · constructor
    · intro s
      rw [c.text_eq]
      apply Decimal.canonical_iff
    · intro v' htext
      have hv' := hresult v' v v
      rw [htext, hresult v] at hv'
      apply hv'.symm

/-- The hypothesis of `result_text` is met by the smallest `short`. -/
theorem result_text_shortMin :
  (∀ val nDefault, Conversion.short.result .cpp11 val
      (some (Conversion.short.text Int16.minValue ++ [0])) nDefault = Int16.minValue)
    ∧ (∀ s, Decimal.Canonical (Conversion.short.type.toInt Int16.minValue) s
      ↔ s = Conversion.short.text Int16.minValue)
    ∧ ∀ v', Conversion.short.text v' = Conversion.short.text Int16.minValue → v' = Int16.minValue
  := by
  apply result_text .cpp11 .short
  rfl

end StringHelper
