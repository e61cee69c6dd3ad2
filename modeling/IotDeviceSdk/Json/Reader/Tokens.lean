import IotDeviceSdk.Json.Reader
import IotDeviceSdk.Json.Text

/-!
# The tokens of a document

What the reader makes of the tokens of a JSON text: it finds their ends, and it decodes the
strings to the bytes that they stand for.
-/

namespace Json.Reader

open CString Text

variable {beyond : UInt8}

/-! ### Reading a token -/

theorem skipSpaces_append {space : List UInt8} (h : IsSpace space) (current : List UInt8) :
  skipSpaces (space ++ current) = skipSpaces current
  := by
  apply List.dropWhile_append_of_pos
  intro c hc
  rcases h c hc with rfl | rfl | rfl | rfl
  · rfl
  · rfl
  · rfl
  · rfl

/-- A token that begins with `c`, after some white space. -/
theorem readToken_of_eq
    {space : List UInt8} (hspace : IsSpace space) {c : UInt8} (hc : isSpace c = false)
    {current text rest : List UInt8} {type : TokenType}
    (h : readTokenFrom beyond c current = (type, rest)) (htext : c :: current = text ++ rest) :
  readToken beyond (space ++ c :: current) = ⟨type, text, rest⟩
  := by
  have hstart : skipSpaces (space ++ c :: current) = c :: current := by
    rw [skipSpaces_append hspace]
    apply List.dropWhile_cons_of_neg
    simp [hc]
  rw [readToken, hstart]
  simp only [getNextChar, h]
  rw [htext, List.length_append, Nat.add_sub_cancel, List.take_left]

/-- A token of one character. -/
theorem readToken_char
    {space : List UInt8} (hspace : IsSpace space) {c : UInt8} (hc : isSpace c = false)
    {current : List UInt8} {type : TokenType}
    (h : readTokenFrom beyond c current = (type, current)) :
  readToken beyond (space ++ c :: current) = ⟨type, [c], current⟩
  := readToken_of_eq hspace hc h rfl

/-- A token that is not a comment is the one that is read when comments are skipped. -/
theorem skipCommentTokens_of_ne {current : List UInt8} {token : Token}
    (h : readToken beyond current = token) (htype : token.type ≠ .comment) :
  skipCommentTokens beyond current = token
  := by
  rw [skipCommentTokens]
  cases current.length with
  | zero => apply h
  | succ n =>
    rw [readTokenPastComments, h]
    apply if_neg htype

/-! ### The end of a string -/

/-- The reader reads hexadecimal digits as the format has them. -/
theorem hexDigit_eq (c : UInt8) :
  Reader.hexDigit c = (Text.hexDigit c).map UInt32.ofNat
  := by
  have hdigit : ∀ n < 256, Reader.hexDigit (UInt8.ofNat n)
      = (Text.hexDigit (UInt8.ofNat n)).map UInt32.ofNat := by
    decide +kernel
  have hc := hdigit c.toNat c.toNat_lt
  rw [UInt8.ofNat_toNat] at hc
  apply hc

theorem plain_of_hexDigit {c : UInt8} {d : ℕ} (h : Text.hexDigit c = some d) :
  c ≠ 34 ∧ c ≠ 92
  := by
  constructor
  · rintro rfl
    contradiction
  · rintro rfl
    contradiction

theorem readString_cons_of_ne
    {c : UInt8} (hquote : c ≠ 34) (hbackslash : c ≠ 92) {rest : List UInt8} (hrest : rest ≠ []) :
  readString (c :: rest) = readString rest
  := by
  obtain ⟨d, rest, rfl⟩ := List.exists_cons_of_ne_nil hrest
  rw [readString, if_neg hbackslash, if_neg hquote]

theorem readString_escape (c : UInt8) (rest : List UInt8) :
  readString (92 :: c :: rest) = readString rest
  := by
  rw [readString, if_pos rfl]

theorem readString_isHex
    {n : ℕ} {s : List UInt8} (h : IsHex n s) {rest : List UInt8} (hrest : rest ≠ []) :
  readString (92 :: 117 :: s ++ rest) = readString rest
  := by
  obtain ⟨a, b, c, d, w, x, y, z, rfl, ha, hb, hc, hd, -⟩ := h
  have hplain : ∀ {c d}, Text.hexDigit c = some d → ∀ {rest}, rest ≠ [] →
      readString (c :: rest) = readString rest := by
    intro c d hdigit rest hrest
    obtain ⟨hquote, hbackslash⟩ := plain_of_hexDigit hdigit
    apply readString_cons_of_ne hquote hbackslash hrest
  rw [List.cons_append, List.cons_append, readString_escape]
  rw [List.cons_append, hplain ha (by simp), List.cons_append, hplain hb (by simp),
    List.cons_append, hplain hc (by simp), List.cons_append, hplain hd (by simpa using hrest)]
  rfl

/-- The end of a string is not within the text of a character. -/
theorem readString_charText
    {s t : List UInt8} (h : CharText s t) {rest : List UInt8} (hrest : rest ≠ []) :
  readString (s ++ rest) = readString rest
  := by
  cases h with
  | plain c _ hquote hbackslash => apply readString_cons_of_ne hquote hbackslash hrest
  | quote | backslash | slash | backspace | formFeed | lineFeed | carriageReturn | tab =>
    apply readString_escape
  | unicode c s hs => apply readString_isHex hs hrest
  | surrogatePair c s t _ hs ht =>
    rw [List.append_assoc, readString_isHex hs (by simp), readString_isHex ht hrest]

/-- A string ends at the quote after its characters. -/
theorem readString_charsText
    {s t : List UInt8} (h : CharsText s t) (rest : List UInt8) :
  readString (s ++ 34 :: rest) = (true, rest)
  := by
  induction h with
  | nil =>
    cases rest with
    | nil => rfl
    | cons d rest => rfl
  | cons hchar _ ih =>
    rw [List.append_assoc, readString_charText hchar (by simp), ih]

/-- The token of a string. -/
theorem readToken_string
    {space : List UInt8} (hspace : IsSpace space) {s value : List UInt8} (h : StringText s value)
    (rest : List UInt8) :
  readToken beyond (space ++ s ++ rest) = ⟨.string, s, rest⟩
  := by
  obtain ⟨chars, rfl, hchars⟩ := h
  rw [List.append_assoc, List.cons_append, List.cons_append]
  apply readToken_of_eq hspace rfl
  · rw [List.append_assoc, List.singleton_append]
    have hread := readString_charsText hchars rest
    simp [readTokenFrom, hread]
  · simp

/-! ### Strings -/

/-- Some of the bits of a number, as a byte. -/
theorem toUInt8_bits
    (cp shift mask : UInt32) (k m : ℕ) (hshift : shift.toNat = k) (hmask : mask.toNat = 2 ^ m - 1)
    (hk : k < 32) :
  ((cp >>> shift) &&& mask).toUInt8 = UInt8.ofNat (cp.toNat / 2 ^ k % 2 ^ m)
  := by
  rw [← UInt8.toNat_inj, UInt32.toNat_toUInt8, UInt32.toNat_and, UInt32.toNat_shiftRight, hshift,
    hmask, Nat.mod_eq_of_lt hk, Nat.shiftRight_eq_div_pow, Nat.and_two_pow_sub_one_eq_mod,
    UInt8.toNat_ofNat']

/-- The bytes of a character that is written as an escape. -/
theorem codePointToUTF8_val (c : Char) :
  codePointToUTF8 c.val = String.utf8EncodeChar c
  := by
  have hcont : ∀ x < 64, UInt8.ofNat x ||| 0x80 = UInt8.ofNat (x + 0x80) := by decide
  have htwo : ∀ x < 32, UInt8.ofNat x ||| 0xC0 = UInt8.ofNat (x + 0xC0) := by decide
  have hthree : ∀ x < 16, UInt8.ofNat x ||| 0xE0 = UInt8.ofNat (x + 0xE0) := by decide
  have hfour : ∀ x < 8, UInt8.ofNat x ||| 0xF0 = UInt8.ofNat (x + 0xF0) := by decide
  have hmax : c.val ≤ 0x10FFFF := by
    rw [UInt32.le_iff_toNat_le]
    simp only [UInt32.reduceToNat]
    rcases c.valid with h | ⟨-, h⟩
    · omega
    · omega
  have hlast : (c.val &&& 0x3f).toUInt8 = UInt8.ofNat (c.val.toNat % 64) := by
    rw [← UInt8.toNat_inj, UInt32.toNat_toUInt8, UInt32.toNat_and, UInt8.toNat_ofNat']
    rw [show (0x3f : UInt32).toNat = 2 ^ 6 - 1 from rfl, Nat.and_two_pow_sub_one_eq_mod]
  rw [codePointToUTF8, String.utf8EncodeChar, hlast,
    toUInt8_bits c.val 6 0x3f 6 6 rfl rfl (by decide),
    toUInt8_bits c.val 12 0x3f 12 6 rfl rfl (by decide),
    toUInt8_bits c.val 6 0x1f 6 5 rfl rfl (by decide),
    toUInt8_bits c.val 12 0xf 12 4 rfl rfl (by decide),
    toUInt8_bits c.val 18 0x7 18 3 rfl rfl (by decide)]
  simp only [Nat.reducePow]
  rw [hcont _ (Nat.mod_lt _ (by decide)), hcont _ (Nat.mod_lt _ (by decide)),
    hcont _ (Nat.mod_lt _ (by decide)), htwo _ (Nat.mod_lt _ (by decide)),
    hthree _ (Nat.mod_lt _ (by decide)), hfour _ (Nat.mod_lt _ (by decide)), if_pos hmax]
  simp only [UInt32.le_iff_toNat_le, UInt32.reduceToNat]
  rfl

/-- Four hexadecimal digits. -/
theorem decodeUnicodeEscapeSequence_isHex
    {n : ℕ} {s : List UInt8} (h : IsHex n s) (rest : List UInt8) :
  decodeUnicodeEscapeSequence (s ++ rest) = .ok (UInt32.ofNat n, rest)
  := by
  obtain ⟨a, b, c, d, w, x, y, z, rfl, ha, hb, hc, hd, rfl⟩ := h
  rw [decodeUnicodeEscapeSequence, if_neg (by simp)]
  simp only [readHexDigits, List.cons_append, getNextChar, hexDigit_eq, ha, hb, hc, hd,
    Option.map_some, List.nil_append]
  have hnat : ((((0 * 16 + UInt32.ofNat w) * 16 + UInt32.ofNat x) * 16 + UInt32.ofNat y) * 16
      + UInt32.ofNat z) = UInt32.ofNat (4096 * w + 256 * x + 16 * y + z) := by
    rw [← UInt32.toNat_inj]
    simp only [UInt32.toNat_add, UInt32.toNat_mul, UInt32.toNat_ofNat', UInt32.reduceToNat]
    omega
  rw [hnat]

theorem decodeUnicodeCodePoint_isHex
    {c : Char} {s : List UInt8} (h : IsHex c.toNat s) (rest : List UInt8) :
  decodeUnicodeCodePoint (s ++ rest) = .ok (c.val, rest)
  := by
  have hval : UInt32.ofNat c.toNat = c.val := by
    apply UInt32.ofNat_toNat
  have hsurrogate : ¬ (0xD800 ≤ c.val ∧ c.val ≤ 0xDBFF) := by
    rw [UInt32.le_iff_toNat_le, UInt32.le_iff_toNat_le]
    simp only [UInt32.reduceToNat]
    rcases c.valid with h | ⟨h, -⟩
    · omega
    · omega
  rw [decodeUnicodeCodePoint, decodeUnicodeEscapeSequence_isHex h, hval]
  apply if_neg hsurrogate

theorem decodeUnicodeCodePoint_pair
    {n m : ℕ} (hn : 0xD800 ≤ UInt32.ofNat n ∧ UInt32.ofNat n ≤ 0xDBFF) {s t : List UInt8}
    (hs : IsHex n s) (ht : IsHex m t) (rest : List UInt8) :
  decodeUnicodeCodePoint (s ++ 92 :: 117 :: t ++ rest)
    = .ok ((0x10000 : UInt32) + ((UInt32.ofNat n &&& 0x3FF) <<< 10) + (UInt32.ofNat m &&& 0x3FF),
      rest)
  := by
  have hlength : 6 ≤ (92 :: 117 :: t ++ rest).length := by
    obtain ⟨a, b, c, d, w, x, y, z, rfl, -⟩ := ht
    simp
  rw [decodeUnicodeCodePoint, List.append_assoc, decodeUnicodeEscapeSequence_isHex hs]
  change (if _ then _ else _) = _
  rw [if_pos hn, if_neg (by omega), if_neg (by simp), if_neg (by simp)]
  change (decodeUnicodeEscapeSequence (t ++ rest) >>= _) = _
  rw [decodeUnicodeEscapeSequence_isHex ht]
  rfl

theorem toNat_surrogate {c : Char} (hc : 0x10000 ≤ c.toNat) :
  (c.toNat - 0x10000) / 0x400 < 0x400
  := by
  rcases c.valid with h | ⟨-, h⟩
  · rw [Char.toNat] at hc
    omega
  · rw [Char.toNat]
    omega

/-- The character that a surrogate pair stands for. -/
theorem surrogatePair_val {c : Char} (hc : 0x10000 ≤ c.toNat) :
  (0x10000 : UInt32) + ((UInt32.ofNat (0xD800 + (c.toNat - 0x10000) / 0x400) &&& 0x3FF) <<< 10)
    + (UInt32.ofNat (0xDC00 + (c.toNat - 0x10000) % 0x400) &&& 0x3FF) = c.val
  := by
  have hbits : ∀ n, (UInt32.ofNat n &&& 0x3FF).toNat = n % 2 ^ 32 % 1024 := by
    intro n
    rw [UInt32.toNat_and, UInt32.toNat_ofNat', show (0x3FF : UInt32).toNat = 2 ^ 10 - 1 from rfl,
      Nat.and_two_pow_sub_one_eq_mod]
  have hshift : (10 : UInt32).toNat = 10 := rfl
  have hlt := toNat_surrogate hc
  rw [← UInt32.toNat_inj]
  simp only [UInt32.toNat_add, UInt32.toNat_shiftLeft, hbits, hshift, Nat.shiftLeft_eq,
    UInt32.reduceToNat, Nat.reduceMod, Nat.reducePow, Char.toNat_val]
  omega

theorem decodeUnicodeCodePoint_surrogatePair
    {c : Char} (hc : 0x10000 ≤ c.toNat) {s t : List UInt8}
    (hs : IsHex (0xD800 + (c.toNat - 0x10000) / 0x400) s)
    (ht : IsHex (0xDC00 + (c.toNat - 0x10000) % 0x400) t) (rest : List UInt8) :
  decodeUnicodeCodePoint (s ++ 92 :: 117 :: t ++ rest) = .ok (c.val, rest)
  := by
  have hlt := toNat_surrogate hc
  have hval := surrogatePair_val hc
  generalize (c.toNat - 0x10000) / 0x400 = i at *
  generalize (c.toNat - 0x10000) % 0x400 = j at *
  rw [← hval]
  apply decodeUnicodeCodePoint_pair _ hs ht
  rw [UInt32.le_iff_toNat_le, UInt32.le_iff_toNat_le, UInt32.toNat_ofNat']
  simp only [UInt32.reduceToNat]
  omega

/-- The loop of `decodeString` decodes the text of a character in one step. -/
theorem decodeChars_charText
    {s t : List UInt8} (h : CharText s t) (fuel : ℕ) (rest decoded : List UInt8) :
  decodeChars (fuel + 1) (s ++ rest) decoded = decodeChars fuel rest (decoded ++ t)
  := by
  cases h with
  | plain c _ hquote hbackslash =>
    rw [List.singleton_append, decodeChars, if_neg hquote, if_neg hbackslash]
  | quote | backslash | slash | backspace | formFeed | lineFeed | carriageReturn | tab => rfl
  | unicode c s hs =>
    rw [List.cons_append, List.cons_append, decodeChars, if_neg (by decide), if_pos rfl,
      decodeEscape, if_pos rfl, decodeUnicodeCodePoint_isHex hs, ← codePointToUTF8_val]
    rfl
  | surrogatePair c s t hc hs ht =>
    rw [List.cons_append, List.cons_append, List.cons_append, List.cons_append, decodeChars,
      if_neg (by decide), if_pos rfl, decodeEscape, if_pos rfl,
      decodeUnicodeCodePoint_surrogatePair hc hs ht, ← codePointToUTF8_val]
    rfl

theorem length_charText {s t : List UInt8} (h : CharText s t) :
  0 < s.length
  := by
  cases h with
  | _ => simp

theorem decodeChars_charsText
    {s t : List UInt8} (h : CharsText s t) {fuel : ℕ} (hfuel : s.length ≤ fuel)
    (decoded : List UInt8) :
  decodeChars fuel s decoded = some (.ok (decoded ++ t))
  := by
  induction h generalizing fuel decoded with
  | nil =>
    rw [List.append_nil]
    cases fuel with
    | zero => rfl
    | succ fuel => rfl
  | @cons s t u v hchar _ ih =>
    have hlength := length_charText hchar
    rw [List.length_append] at hfuel
    obtain ⟨fuel, rfl⟩ := Nat.exists_eq_succ_of_ne_zero (show fuel ≠ 0 by omega)
    rw [decodeChars_charText hchar, ih (by omega), List.append_assoc]

/-- The text of a string is decoded to the bytes that it stands for. -/
theorem decodeString_eq
    {s value : List UInt8} (h : StringText s value) (rest : List UInt8) :
  decodeString ⟨.string, s, rest⟩ = .ok value
  := by
  obtain ⟨chars, rfl, hchars⟩ := h
  rw [decodeString]
  simp only [List.cons_append, List.tail_cons, List.dropLast_concat]
  rw [decodeChars_charsText hchars (le_refl _)]
  rfl

end Json.Reader
