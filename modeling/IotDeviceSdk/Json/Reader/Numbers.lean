import IotDeviceSdk.Json.Reader.Tokens

/-!
# The numbers of a document

What `decodeNumber` makes of the text of a number.  It takes an integer of more than 64 bits for a
`double`, but not always: see `decodeNumber_integer`.
-/

namespace Json

open CString

/-- The integer that a value is, if it is one. -/
def Value.integer : Value → Option ℤ
  | .int n => some n.toInt
  | .uint n => some n.toNat
  | _ => none

namespace Reader

open Text

/-! ### The digits of an integer -/

/-- The number that the digits stand for when they come after those of `n`. -/
def digitsValue (n : ℕ) (digits : List UInt8) : ℕ :=
  digits.foldl (fun n c => 10 * n + Decimal.digit c) n

@[simp]
theorem digitsValue_nil (n : ℕ) :
  digitsValue n [] = n
  := rfl

@[simp]
theorem digitsValue_cons (n : ℕ) (c : UInt8) (digits : List UInt8) :
  digitsValue n (c :: digits) = digitsValue (10 * n + Decimal.digit c) digits
  := by
  rw [digitsValue, List.foldl_cons, digitsValue]

theorem le_digitsValue (n : ℕ) (digits : List UInt8) :
  n ≤ digitsValue n digits
  := by
  induction digits generalizing n with
  | nil => apply le_refl
  | cons c digits ih =>
    have hrest := ih (10 * n + Decimal.digit c)
    rw [digitsValue_cons]
    omega

theorem digitsValue_eq (digits : List UInt8) :
  digitsValue 0 digits = Nat.ofDigits 10 (digits.map Decimal.digit).reverse
  := by
  rw [Nat.ofDigits_eq_foldr, List.foldr_reverse, List.foldl_map, digitsValue]
  congr 1
  funext n c
  simp [Nat.add_comm]

/-- The value of a digit. -/
theorem toNat_digit {c : UInt8} (h : Decimal.IsDigit c) :
  (c - 48).toUInt32.toNat = Decimal.digit c
  := by
  obtain ⟨hlow, -⟩ := h
  rw [UInt8.toNat_toUInt32, UInt8.toNat_sub_of_le c 48 hlow, Decimal.digit]
  rfl

/-- The digits of the number are all read: without the last two it is below the threshold, and
without the last one it is below it as well or the last digit does not exceed the one allowed. -/
def ReadsAll (threshold lastDigitThreshold n : ℕ) : Prop :=
  n / 100 < threshold ∧ (n / 10 < threshold ∨ n % 10 ≤ lastDigitThreshold)

instance (threshold lastDigitThreshold n : ℕ) :
    Decidable (ReadsAll threshold lastDigitThreshold n) :=
  inferInstanceAs (Decidable (_ ∧ _))

/-- The loop of `decodeNumber` over the digits of an integer. -/
theorem decodeDigits_eq
    (threshold : UInt64) (lastDigitThreshold : UInt32) (hthreshold : 10 * threshold.toNat ≤ 2 ^ 64)
    {digits : List UInt8} (hdigits : ∀ c ∈ digits, Decimal.IsDigit c) (value : UInt64)
    (hvalue : value.toNat < 10 * threshold.toNat) (hne : digits ≠ []) :
  decodeDigits threshold lastDigitThreshold value digits
    = if ReadsAll threshold.toNat lastDigitThreshold.toNat (digitsValue value.toNat digits) then
        .integer (UInt64.ofNat (digitsValue value.toNat digits))
      else
        .double
  := by
  induction digits generalizing value with
  | nil => exact absurd rfl hne
  | cons c digits ih =>
    have hc : Decimal.IsDigit c := hdigits c List.mem_cons_self
    have hdigit := toNat_digit hc
    have hlt := Decimal.digit_lt hc
    have hrange : ¬ (c < 48 ∨ 57 < c) := by
      rintro (h | h)
      · exact absurd hc.1 (UInt8.not_le.mpr h)
      · exact absurd hc.2 (UInt8.not_le.mpr h)
    have hnext : (value * 10 + (c - 48).toUInt32.toUInt64).toNat
        = (10 * value.toNat + Decimal.digit c) % 2 ^ 64 := by
      simp only [UInt64.toNat_add, UInt64.toNat_mul, UInt32.toNat_toUInt64, hdigit,
        UInt64.reduceToNat]
      omega
    rw [decodeDigits, if_neg hrange]
    simp only [UInt64.le_iff_toNat_le, UInt32.lt_iff_toNat_lt, hdigit]
    rw [digitsValue_cons]
    by_cases hnil : digits = []
    · subst hnil
      have hofNat : value * 10 + (c - 48).toUInt32.toUInt64
          = UInt64.ofNat (10 * value.toNat + Decimal.digit c) := by
        rw [← UInt64.toNat_inj, hnext, UInt64.toNat_ofNat']
      rw [digitsValue_nil, decodeDigits, hofNat]
      simp only [ne_eq, not_true, false_or]
      by_cases h : threshold.toNat ≤ value.toNat ∧ lastDigitThreshold.toNat < Decimal.digit c
      · rw [if_pos h, if_neg (by unfold ReadsAll; omega)]
      · rw [if_neg h, if_pos (by unfold ReadsAll; omega)]
    · by_cases h : threshold.toNat ≤ value.toNat
      · obtain ⟨d, digits, rfl⟩ := List.exists_cons_of_ne_nil hnil
        have hle := le_digitsValue
          (10 * (10 * value.toNat + Decimal.digit c) + Decimal.digit d) digits
        rw [if_pos ⟨h, Or.inl hnil⟩, digitsValue_cons, if_neg (by unfold ReadsAll; omega)]
      · have hfit : 10 * value.toNat + Decimal.digit c < 2 ^ 64 := by
          omega
        rw [Nat.mod_eq_of_lt hfit] at hnext
        rw [if_neg (by tauto), ih, hnext]
        · intro d hd
          apply hdigits d (List.mem_cons_of_mem c hd)
        · rw [hnext]
          omega
        · apply hnil

/-! ### Integers -/

/-- The text of a natural number stands for the number. -/
theorem digitsValue_natText (n : ℕ) :
  digitsValue 0 (Decimal.natText n) = n
  := by
  rw [digitsValue_eq]
  apply (Decimal.isNumeral_natText n).value

theorem isDigits_natText (n : ℕ) :
  IsDigits (Decimal.natText n)
  := by
  constructor
  · apply (Decimal.isNumeral_natText n).ne_nil
  · intro c
    apply Decimal.isDigit_of_mem_natText

/-- The sign of an integer, as a text. -/
def signText (negative : Bool) : List UInt8 :=
  if negative then [45] else []

/-- The integer of a sign and a number. -/
def signed (negative : Bool) (n : ℕ) : ℤ :=
  if negative then -n else n

/-- The greatest number that an integer of the sign may have. -/
def maxIntegerValue (negative : Bool) : ℕ :=
  if negative then 9223372036854775808 else 18446744073709551615

/-- The value that `decodeNumber` makes of the digits that it has read. -/
def integerValue (negative : Bool) (value : UInt64) : Value :=
  if negative then .int (-value.toInt64)
  else if value ≤ 2147483647 then .int value.toInt64
  else .uint value

/-- The text of an integer is not taken for that of a `double`. -/
theorem isDouble_digits
    {digits : List UInt8} (h : ∀ c ∈ digits, Decimal.IsDigit c) (negative : Bool) :
  isDouble (signText negative ++ digits) = false
  := by
  have hplain : ∀ c ∈ digits, c ≠ 46 ∧ c ≠ 101 ∧ c ≠ 69 ∧ c ≠ 43 ∧ c ≠ 45 := by
    intro c hc
    have hdigit := h c hc
    refine ⟨?_, ?_, ?_, ?_, ?_⟩
    all_goals
      rintro rfl
      revert hdigit
      decide
  have hchars : digits.any (fun c => c = 46 || c = 101 || c = 69 || c = 43) = false := by
    rw [List.any_eq_false]
    intro c hc
    simp [hplain c hc]
  have hminus : ∀ {s : List UInt8}, (∀ c ∈ s, c ∈ digits)
      → s.any (fun c => decide (c = 45)) = false := by
    intro s hs
    rw [List.any_eq_false]
    intro c hc
    simp [hplain c (hs c hc)]
  cases negative with
  | true =>
    rw [isDouble]
    simp only [signText, if_true, List.singleton_append, List.any_cons, List.tail_cons]
    rw [hchars, hminus (fun _ hc => hc)]
    rfl
  | false =>
    change ((digits.any fun _ => _) || digits.tail.any fun _ => _) = false
    rw [hchars, hminus (fun _ => List.mem_of_mem_tail)]
    rfl

/-- `decodeNumber` on the text of an integer. -/
theorem decodeNumber_digits
    (setup : Setup) (negative : Bool) {digits : List UInt8} (hdigits : IsDigits digits)
    (rest : List UInt8) :
  decodeNumber setup ⟨.number, signText negative ++ digits, rest⟩
    = if ReadsAll (maxIntegerValue negative / 10) (maxIntegerValue negative % 10)
          (digitsValue 0 digits) then
        .ok (integerValue negative (UInt64.ofNat (digitsValue 0 digits)))
      else
        decodeDouble setup ⟨.number, signText negative ++ digits, rest⟩
  := by
  obtain ⟨hne, hdigits⟩ := hdigits
  have hdouble := isDouble_digits hdigits negative
  have hhead : ((signText negative ++ digits).head? == some 45) = negative := by
    cases negative with
    | true => rfl
    | false =>
      obtain ⟨c, digits, rfl⟩ := List.exists_cons_of_ne_nil hne
      have hc := hdigits c List.mem_cons_self
      change (some c == some 45) = false
      rw [beq_eq_false_iff_ne]
      rintro ⟨⟩
      contradiction
  have htail : (if negative then (signText negative ++ digits).tail
      else signText negative ++ digits) = digits := by
    cases negative with
    | true => rfl
    | false => rfl
  have hread := decodeDigits_eq
    ((if negative then 9223372036854775808 else 18446744073709551615) / 10)
    ((if negative then 9223372036854775808 else 18446744073709551615) % 10 : UInt64).toUInt32
    (by cases negative <;> decide) hdigits 0 (by cases negative <;> decide) hne
  have hthreshold : ((if negative then 9223372036854775808 else 18446744073709551615) / 10
      : UInt64).toNat = maxIntegerValue negative / 10 := by
    cases negative with
    | true => rfl
    | false => rfl
  have hlast : ((if negative then 9223372036854775808 else 18446744073709551615) % 10
      : UInt64).toUInt32.toNat = maxIntegerValue negative % 10 := by
    cases negative with
    | true => rfl
    | false => rfl
  rw [hthreshold, hlast, UInt64.toNat_zero] at hread
  rw [decodeNumber]
  simp only [hdouble, Bool.false_eq_true, if_false, hhead, htail]
  rw [hread]
  by_cases h : ReadsAll (maxIntegerValue negative / 10) (maxIntegerValue negative % 10)
      (digitsValue 0 digits)
  · rw [if_pos h, if_pos h, integerValue]
    dsimp only
    cases negative with
    | true => rfl
    | false => apply (apply_ite Except.ok _ _ _).symm
  · rw [if_neg h, if_neg h]

/-- A `double` is no integer. -/
theorem integer_decodeDouble {setup : Setup} {token : Token} {v : Value}
    (h : decodeDouble setup token = .ok v) :
  v.integer = none
  := by
  unfold decodeDouble at h
  split at h
  · injection h with h
    rw [← h]
    rfl
  · contradiction

/-- The integer of the digits that `decodeNumber` has read is in the range of its type. -/
theorem integer_integerValue (negative : Bool) (n : ℕ) :
  ∃ m, (integerValue negative (UInt64.ofNat n)).integer = some m
    ∧ -(2 ^ 63) ≤ m ∧ m ≤ maxIntegerValue false
    ∧ (n ≤ maxIntegerValue negative → m = signed negative n)
  := by
  cases negative with
  | true =>
    have hlow := Int64.le_toInt (-(UInt64.ofNat n).toInt64)
    have hhigh := Int64.toInt_lt (-(UInt64.ofNat n).toInt64)
    refine ⟨_, rfl, hlow, by simp only [maxIntegerValue, Bool.false_eq_true, if_false]; omega, ?_⟩
    intro hn
    apply Int64.toInt_neg_ofNat_of_le hn
  | false =>
    rw [integerValue]
    simp only [Bool.false_eq_true, if_false, maxIntegerValue, signed]
    have hnat : (UInt64.ofNat n).toNat = n % 2 ^ 64 := UInt64.toNat_ofNat'
    split
    · next hle =>
      rw [UInt64.le_iff_toNat_le, hnat] at hle
      simp only [UInt64.reduceToNat] at hle
      have hint : (UInt64.ofNat n).toInt64.toInt = (n % 2 ^ 64 : ℕ) := by
        have hmod : UInt64.ofNat n = UInt64.ofNat (n % 2 ^ 64) := by
          rw [← UInt64.toNat_inj, hnat, UInt64.toNat_ofNat', Nat.mod_mod]
        rw [hmod, UInt64.toInt64_ofNat', Int64.toInt_ofNat_of_lt]
        omega
      refine ⟨_, rfl, ?_, ?_, ?_⟩
      · rw [hint]
        omega
      · rw [hint]
        omega
      · rw [hint]
        omega
    · refine ⟨_, rfl, ?_, ?_, ?_⟩
      · omega
      · rw [hnat]
        omega
      · rw [hnat]
        omega

/-- All digits are read of a number that does not exceed the greatest one. -/
theorem readsAll_of_le {negative : Bool} {n : ℕ} (h : n ≤ maxIntegerValue negative) :
  ReadsAll (maxIntegerValue negative / 10) (maxIntegerValue negative % 10) n
  := by
  unfold ReadsAll
  cases negative with
  | true =>
    simp only [maxIntegerValue, if_true] at h ⊢
    omega
  | false =>
    simp only [maxIntegerValue, Bool.false_eq_true, if_false] at h ⊢
    omega

theorem lt_abs_signed {negative : Bool} {n : ℕ} (h : maxIntegerValue negative < n) :
  signed negative n < -(2 ^ 63) ∨ maxIntegerValue false < signed negative n
  := by
  cases negative with
  | true =>
    simp only [maxIntegerValue, signed, if_true] at h ⊢
    omega
  | false =>
    simp only [maxIntegerValue, signed, Bool.false_eq_true, if_false] at h ⊢
    omega

/-- `decodeNumber` makes the right integer of its text if and only if the integer is in the range
of its type.  It makes a wrong integer of the text exactly if the integer is greater, but the last
digit does not exceed the one of the greatest integer of the type, and without the last two digits
the integer is below the greatest one without its last digit. -/
theorem decodeNumber_integer
    (setup : Setup) (negative : Bool) {digits : List UInt8} (hdigits : IsDigits digits)
    (rest : List UInt8) :
  ((∃ v, decodeNumber setup ⟨.number, signText negative ++ digits, rest⟩ = .ok v
      ∧ v.integer = some (signed negative (digitsValue 0 digits)))
    ↔ digitsValue 0 digits ≤ maxIntegerValue negative)
  ∧ ((∃ v n, decodeNumber setup ⟨.number, signText negative ++ digits, rest⟩ = .ok v
      ∧ v.integer = some n ∧ n ≠ signed negative (digitsValue 0 digits))
    ↔ maxIntegerValue negative < digitsValue 0 digits
      ∧ digitsValue 0 digits / 100 < maxIntegerValue negative / 10
      ∧ digitsValue 0 digits % 10 ≤ maxIntegerValue negative % 10)
  := by
  rw [decodeNumber_digits setup negative hdigits]
  generalize digitsValue 0 digits = n
  obtain ⟨m, hm, hlow, hhigh, hexact⟩ := integer_integerValue negative n
  by_cases hreads : ReadsAll (maxIntegerValue negative / 10) (maxIntegerValue negative % 10) n
  · rw [if_pos hreads]
    by_cases hn : n ≤ maxIntegerValue negative
    · obtain rfl := hexact hn
      constructor
      · exact ⟨fun _ => hn, fun _ => ⟨_, rfl, hm⟩⟩
      · constructor
        · rintro ⟨v, k, ⟨⟩, hk, hne⟩
          rw [hm] at hk
          injection hk with hk
          exact absurd hk.symm hne
        · rintro ⟨hlt, -⟩
          omega
    · have hout := lt_abs_signed (Nat.lt_of_not_le hn)
      have hne : m ≠ signed negative n := by
        omega
      constructor
      · constructor
        · rintro ⟨v, ⟨⟩, hv⟩
          rw [hm] at hv
          injection hv with hv
          exact absurd hv hne
        · intro hle
          exact absurd hle hn
      · constructor
        · intro _
          obtain ⟨hlt, hlast⟩ := hreads
          refine ⟨Nat.lt_of_not_le hn, hlt, ?_⟩
          omega
        · intro _
          exact ⟨_, _, rfl, hm, hne⟩
  · rw [if_neg hreads]
    have hn : ¬ n ≤ maxIntegerValue negative := fun hn => hreads (readsAll_of_le hn)
    constructor
    · constructor
      · rintro ⟨v, hv, hinteger⟩
        rw [integer_decodeDouble hv] at hinteger
        contradiction
      · intro hle
        exact absurd hle hn
    · constructor
      · rintro ⟨v, k, hv, hinteger, -⟩
        rw [integer_decodeDouble hv] at hinteger
        contradiction
      · rintro ⟨-, hlt, hlast⟩
        exact absurd ⟨hlt, Or.inr hlast⟩ hreads

theorem decodeNumber_integer_wraps
  : ∃ v n, decodeNumber ⟨fun _ => none, 0⟩
        ⟨.number, signText false ++ Decimal.natText 18446744073709551620, []⟩ = .ok v
      ∧ v.integer = some n
      ∧ n ≠ signed false (digitsValue 0 (Decimal.natText 18446744073709551620))
  := by
  have hwraps := (decodeNumber_integer ⟨fun _ => none, 0⟩ false
    (isDigits_natText 18446744073709551620) []).2
  apply hwraps.mpr
  rw [digitsValue_natText]
  decide

/-! ### The text of a number -/

theorem isNumberChar_of_isDigit {c : UInt8} (h : Decimal.IsDigit c) :
  isNumberChar c = true
  := by
  simp [isNumberChar, h.1, h.2]

/-- The text is one that `readNumber` reads to its end. -/
def IsNumberToken (s : List UInt8) : Prop :=
  ∃ c t, s = c :: t ∧ (Decimal.IsDigit c ∨ c = 45) ∧ ∀ d ∈ t, isNumberChar d = true

/-- The text of an integer and what follows of the number are a token. -/
theorem isNumberToken_signed (negative : Bool) {digits t : List UInt8} (hdigits : IsDigits digits)
    (ht : ∀ d ∈ t, isNumberChar d = true) :
  IsNumberToken (signText negative ++ digits ++ t)
  := by
  obtain ⟨hne, hdigits⟩ := hdigits
  have hchars : ∀ d ∈ digits ++ t, isNumberChar d = true := by
    intro d hd
    rcases List.mem_append.mp hd with hd | hd
    · apply isNumberChar_of_isDigit (hdigits d hd)
    · apply ht d hd
  cases negative with
  | true => exact ⟨45, digits ++ t, rfl, Or.inr rfl, hchars⟩
  | false =>
    obtain ⟨c, digits, rfl⟩ := List.exists_cons_of_ne_nil hne
    refine ⟨c, digits ++ t, rfl, Or.inl (hdigits c List.mem_cons_self), ?_⟩
    intro d hd
    apply hchars d (List.mem_cons_of_mem c hd)

theorem isNumberChar_fraction {s : List UInt8} (h : IsFraction s) :
  ∀ d ∈ s, isNumberChar d = true
  := by
  rcases h with rfl | ⟨digits, rfl, -, hdigits⟩
  · intro d hd
    contradiction
  · intro d hd
    rcases List.mem_cons.mp hd with rfl | hd
    · rfl
    · apply isNumberChar_of_isDigit (hdigits d hd)

theorem isNumberChar_exponent {s : List UInt8} (h : IsExponent s) :
  ∀ d ∈ s, isNumberChar d = true
  := by
  rcases h with rfl | ⟨e, sign, digits, rfl, he, hsign, -, hdigits⟩
  · intro d hd
    contradiction
  · intro d hd
    rcases List.mem_append.mp hd with hd | hd
    · rcases List.mem_cons.mp hd with rfl | hd
      · rcases he with rfl | rfl
        · rfl
        · rfl
      · rcases hsign with rfl | rfl | rfl
        · contradiction
        · rw [List.mem_singleton.mp hd]
          rfl
        · rw [List.mem_singleton.mp hd]
          rfl
    · apply isNumberChar_of_isDigit (hdigits d hd)

theorem text_natCast (n : ℕ) :
  Decimal.text n = signText false ++ Decimal.natText n
  := rfl

theorem text_neg {n : ℤ} (h : n < 0) :
  Decimal.text n = signText true ++ Decimal.natText n.natAbs
  := by
  obtain ⟨m, rfl⟩ := Int.eq_negSucc_of_lt_zero h
  rfl

/-- The text of an integer, as a sign and the text of a natural number. -/
theorem exists_signText (n : ℤ) :
  ∃ negative, Decimal.text n = signText negative ++ Decimal.natText n.natAbs
    ∧ signed negative n.natAbs = n ∧ negative = decide (n < 0)
  := by
  by_cases h : n < 0
  · refine ⟨true, text_neg h, ?_, ?_⟩
    · simp only [signed, if_true]
      omega
    · simp [h]
  · refine ⟨false, ?_, ?_, ?_⟩
    · obtain ⟨m, rfl⟩ := Int.eq_ofNat_of_zero_le (Int.not_lt.mp h)
      rfl
    · simp only [signed, Bool.false_eq_true, if_false]
      omega
    · simp [h]

/-- The text of a number is a token. -/
theorem isNumberToken_of_numberText
    {double : List UInt8 → Option Double} {s : List UInt8} {v : Value} (h : NumberText double s v) :
  IsNumberToken s
  := by
  have hinteger : ∀ n : ℤ, IsNumberToken (Decimal.text n) := by
    intro n
    obtain ⟨negative, htext, -⟩ := exists_signText n
    rw [htext, ← List.append_nil (_ ++ _)]
    apply isNumberToken_signed negative (isDigits_natText _)
    intro d hd
    contradiction
  cases h with
  | int n => apply hinteger
  | uint n => apply hinteger
  | minusZero => exact ⟨45, [48], rfl, Or.inr rfl, by simp [isNumberChar]⟩
  | real s r hreal =>
    obtain ⟨sign, n, fraction, exponent, rfl, hsign, hfraction, hexponent, -⟩ := hreal
    have hchars : ∀ d ∈ fraction ++ exponent, isNumberChar d = true := by
      intro d hd
      rcases List.mem_append.mp hd with hd | hd
      · apply isNumberChar_fraction hfraction d hd
      · apply isNumberChar_exponent hexponent d hd
    rw [List.append_assoc]
    rcases hsign with rfl | rfl
    · apply isNumberToken_signed false (isDigits_natText n) hchars
    · apply isNumberToken_signed true (isDigits_natText n) hchars

theorem decodeNumber_natText
    (setup : Setup) (negative : Bool) {n : ℕ} (h : n ≤ maxIntegerValue negative)
    (rest : List UInt8) :
  decodeNumber setup ⟨.number, signText negative ++ Decimal.natText n, rest⟩
    = .ok (integerValue negative (UInt64.ofNat n))
  := by
  rw [decodeNumber_digits setup negative (isDigits_natText n), digitsValue_natText,
    if_pos (readsAll_of_le h)]

/-- The text of a number with a fraction or an exponent is taken for that of a `double`. -/
theorem isDouble_real {s : List UInt8} (h : IsReal s) :
  isDouble s = true
  := by
  obtain ⟨sign, n, fraction, exponent, rfl, -, hfraction, hexponent, hne⟩ := h
  rw [isDouble, Bool.or_eq_true]
  apply Or.inl
  rw [List.any_eq_true]
  rcases hfraction with rfl | ⟨digits, rfl, -⟩
  · rcases hexponent with rfl | ⟨e, sign, digits, rfl, he, -⟩
    · contradiction
    · refine ⟨e, by simp, ?_⟩
      rcases he with rfl | rfl
      · rfl
      · rfl
  · exact ⟨46, by simp, rfl⟩

theorem integerValue_int
    {negative : Bool} {n : ℕ} (hn : n ≤ maxIntegerValue negative)
    (hint : signed negative n ≤ 2147483647) {m : Int64} (hm : signed negative n = m.toInt) :
  integerValue negative (UInt64.ofNat n) = .int m
  := by
  obtain ⟨k, hk, -, -, hexact⟩ := integer_integerValue negative n
  rw [hexact hn, hm] at hk
  rw [integerValue] at hk ⊢
  cases negative with
  | true =>
    injection hk with hk
    rw [if_pos rfl, Int64.toInt.inj hk]
  | false =>
    have hle : UInt64.ofNat n ≤ 2147483647 := by
      simp only [signed, Bool.false_eq_true, if_false] at hint
      rw [UInt64.le_iff_toNat_le, UInt64.toNat_ofNat']
      simp only [UInt64.reduceToNat]
      omega
    rw [if_neg Bool.false_ne_true, if_pos hle] at hk ⊢
    injection hk with hk
    rw [Int64.toInt.inj hk]

/-- The text of a number is decoded to the number. -/
theorem decodeNumber_eq
    {setup : Setup} {s : List UInt8} {v : Value} (h : NumberText setup.sscanf s v)
    (rest : List UInt8) :
  decodeNumber setup ⟨.number, s, rest⟩ = .ok v
  := by
  cases h with
  | int n hn =>
    obtain ⟨negative, htext, hsigned, hnegative⟩ := exists_signText n.toInt
    have hlow := n.le_toInt
    have hmax : n.toInt.natAbs ≤ maxIntegerValue negative := by
      cases negative with
      | true =>
        simp only [maxIntegerValue, if_true]
        omega
      | false =>
        simp only [maxIntegerValue, Bool.false_eq_true, if_false]
        omega
    rw [htext, decodeNumber_natText setup negative hmax, integerValue_int hmax]
    · rw [hsigned]
      apply hn
    · rw [hsigned]
  | uint n hn =>
    have hmax : n.toNat ≤ maxIntegerValue false := by
      have hlt := n.toNat_lt
      simp only [maxIntegerValue, Bool.false_eq_true, if_false]
      omega
    have hgt : ¬ n ≤ 2147483647 := by
      rw [UInt64.le_iff_toNat_le]
      simp only [UInt64.reduceToNat]
      omega
    rw [text_natCast, decodeNumber_natText setup false hmax, UInt64.ofNat_toNat, integerValue,
      if_neg Bool.false_ne_true, if_neg hgt]
  | minusZero => apply decodeNumber_natText setup true (Nat.zero_le _)
  | real s r hreal hs =>
    rw [decodeNumber, isDouble_real hreal, if_pos rfl, decodeDouble, hs]

/-- A digit or a sign begins a number. -/
theorem readTokenFrom_number
    {beyond c : UInt8} (hc : Decimal.IsDigit c ∨ c = 45) (current : List UInt8) :
  readTokenFrom beyond c current = (.number, readNumber current)
  := by
  have hother : c ≠ 123 ∧ c ≠ 125 ∧ c ≠ 91 ∧ c ≠ 93 ∧ c ≠ 34 ∧ c ≠ 47 := by
    refine ⟨?_, ?_, ?_, ?_, ?_, ?_⟩
    all_goals
      rintro rfl
      revert hc
      decide
  obtain ⟨hbegin, hend, hopen, hclose, hquote, hslash⟩ := hother
  rw [readTokenFrom, if_neg hbegin, if_neg hend, if_neg hopen, if_neg hclose, if_neg hquote,
    if_neg hslash]
  apply if_pos hc

theorem isSpace_number {c : UInt8} (hc : Decimal.IsDigit c ∨ c = 45) :
  isSpace c = false
  := by
  rcases hc with ⟨hlow, hhigh⟩ | rfl
  · simp only [isSpace, Bool.or_eq_false_iff, decide_eq_false_iff_not]
    refine ⟨⟨⟨?_, ?_⟩, ?_⟩, ?_⟩
    all_goals
      rintro rfl
      contradiction
  · rfl

/-- The token of a number. -/
theorem readToken_number
    {beyond : UInt8} {space : List UInt8} (hspace : IsSpace space) {s : List UInt8}
    (h : IsNumberToken s) {rest : List UInt8} (hrest : ∀ c ∈ rest.head?, isNumberChar c = false) :
  readToken beyond (space ++ s ++ rest) = ⟨.number, s, rest⟩
  := by
  obtain ⟨c, t, rfl, hc, ht⟩ := h
  have hread : readNumber (t ++ rest) = rest := by
    rw [readNumber, List.dropWhile_append_of_pos ht]
    cases rest with
    | nil => rfl
    | cons d rest =>
      apply List.dropWhile_cons_of_neg
      rw [hrest d rfl]
      decide
  rw [List.append_assoc, List.cons_append]
  apply readToken_of_eq hspace (isSpace_number hc)
  · rw [readTokenFrom_number hc, hread]
  · rfl

end Reader

end Json
