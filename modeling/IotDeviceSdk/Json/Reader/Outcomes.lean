import IotDeviceSdk.Json.Reader
import IotDeviceSdk.Json.WellFormed

/-!
# The outcomes of reading a document

Whatever the document is, the reader either makes a well-formed value of it, or it reports one
error, whose token is in the document: see `parse_outcome`.  In particular it does not run out of
the numbers that bound its loops and its depth of nesting.  Of the loops over items and members,
and of the nesting, the errors tell; for the other loops see `LoopsEnd`.
-/

namespace Json.Reader

open CString

variable {setup : Setup} (beyond : UInt8)

/-! ### Tokens -/

/-- What a scanner leaves is the end of what it gets: so it is after a comment, and so for the
other scanners below. -/
theorem skipCStyleComment_suffix (current : List UInt8) :
  skipCStyleComment beyond current <:+ current
  := by
  induction current with
  | nil => apply List.suffix_refl
  | cons c current ih =>
    rw [skipCStyleComment]
    split
    · apply List.suffix_cons
    · apply ih.trans (List.suffix_cons c current)

theorem getNextChar_suffix (current : List UInt8) :
  (getNextChar current).2 <:+ current
  := by
  cases current with
  | nil => apply List.suffix_refl
  | cons c current => apply List.suffix_cons

theorem readCppStyleComment_suffix (current : List UInt8) :
  readCppStyleComment current <:+ current
  := by
  induction current with
  | nil => apply List.suffix_refl
  | cons c current ih =>
    rw [readCppStyleComment]
    split
    · apply List.suffix_cons
    · apply ih.trans (List.suffix_cons c current)

theorem readComment_suffix (current : List UInt8) :
  (readComment beyond current).2 <:+ current
  := by
  rw [readComment]
  dsimp only
  split
  · rw [readCStyleComment]
    apply (getNextChar_suffix _).trans
    apply (skipCStyleComment_suffix _ _).trans (getNextChar_suffix current)
  · split
    · apply (readCppStyleComment_suffix _).trans (getNextChar_suffix current)
    · apply getNextChar_suffix

theorem readString_suffix (current : List UInt8) :
  (readString current).2 <:+ current
  := by
  fun_induction readString current with
  | case1 => apply List.suffix_refl
  | case2 c => apply List.suffix_cons
  | case3 d current ih =>
    apply ih.trans ((List.suffix_cons d current).trans (List.suffix_cons 92 _))
  | case4 => apply List.suffix_cons
  | case5 c d current _ _ ih => apply ih.trans (List.suffix_cons c _)

theorem matchPattern_suffix (pattern current : List UInt8) :
  (matchPattern pattern current).2 <:+ current
  := by
  rw [matchPattern]
  split
  · apply List.drop_suffix
  · apply List.suffix_refl

theorem ite_suffix {p : Prop} [Decidable p] {r r' : TokenType × List UInt8} {current : List UInt8}
    (h : r.2 <:+ current) (h' : r'.2 <:+ current) :
  (if p then r else r').2 <:+ current
  := by
  split
  · apply h
  · apply h'

/-- Whatever the token, what is left after it is the end of what follows its first character. -/
theorem readTokenFrom_suffix (c : UInt8) (current : List UInt8) :
  (readTokenFrom beyond c current).2 <:+ current
  := by
  rw [readTokenFrom]
  dsimp only
  repeat' apply ite_suffix
  all_goals first
    | apply List.suffix_refl
    | apply readString_suffix
    | apply readComment_suffix
    | apply List.dropWhile_suffix
    | apply matchPattern_suffix

/-- The token is one of the document. -/
def Token.IsIn (token : Token) (document : List UInt8) : Prop :=
  ∃ before, document = before ++ token.text ++ token.rest

/-- A token of the rest of a document is one of the document. -/
theorem Token.IsIn.of_suffix {token : Token} {current document : List UInt8}
    (h : token.IsIn current) (hsuffix : current <:+ document) :
  token.IsIn document
  := by
  obtain ⟨before, rfl⟩ := h
  obtain ⟨first, rfl⟩ := hsuffix
  use first ++ before
  simp

/-- What follows a token is the end of the document. -/
theorem Token.IsIn.rest_suffix {token : Token} {document : List UInt8} (h : token.IsIn document) :
  token.rest <:+ document
  := by
  obtain ⟨before, rfl⟩ := h
  apply List.suffix_append

/-- The token that is read is one of what is left of the document. -/
theorem readToken_isIn (current : List UInt8) :
  (readToken beyond current).IsIn current
  := by
  have hsuffix : (readToken beyond current).rest <:+ skipSpaces current :=
    (readTokenFrom_suffix _ _ _).trans (getNextChar_suffix _)
  use current.takeWhile isSpace
  have htoken : (readToken beyond current).text ++ (readToken beyond current).rest
      = skipSpaces current := by
    apply List.suffix_iff_eq_append.mp hsuffix
  rw [List.append_assoc, htoken, skipSpaces, List.takeWhile_append_dropWhile]

/-- A token other than the end of the document has a character. -/
theorem readToken_length
    (current : List UInt8) (h : (readToken beyond current).type ≠ .endOfStream) :
  (readToken beyond current).rest.length < current.length
  := by
  have hstart : skipSpaces current <:+ current := List.dropWhile_suffix _
  cases hskip : skipSpaces current with
  | nil =>
    apply absurd _ h
    rw [readToken, hskip]
    rfl
  | cons c rest =>
    rw [hskip] at hstart
    have hlength := hstart.length_le
    have hrest : (readToken beyond current).rest <:+ rest := by
      rw [readToken, hskip]
      apply readTokenFrom_suffix
    have hle := hrest.length_le
    rw [List.length_cons] at hlength
    omega

/-- So is the token that is read when comments are skipped; unless it is the end of the document,
it has a character. -/
theorem readTokenPastComments_isIn (fuel : ℕ) (current : List UInt8) :
  (readTokenPastComments beyond fuel current).IsIn current
    ∧ ((readTokenPastComments beyond fuel current).type ≠ .endOfStream →
      (readTokenPastComments beyond fuel current).rest.length < current.length)
  := by
  induction fuel generalizing current with
  | zero => exact ⟨readToken_isIn beyond current, readToken_length beyond current⟩
  | succ fuel ih =>
    rw [readTokenPastComments]
    split
    · next hcomment =>
      have hsuffix := (readToken_isIn beyond current).rest_suffix
      obtain ⟨hin, hlength⟩ := ih (readToken beyond current).rest
      refine ⟨hin.of_suffix hsuffix, ?_⟩
      intro h
      apply Nat.lt_of_lt_of_le (hlength h) hsuffix.length_le
    · exact ⟨readToken_isIn beyond current, readToken_length beyond current⟩

theorem skipCommentTokens_isIn (current : List UInt8) :
  (skipCommentTokens beyond current).IsIn current
  := (readTokenPastComments_isIn beyond current.length current).1

theorem skipCommentTokens_length
    (current : List UInt8) (h : (skipCommentTokens beyond current).type ≠ .endOfStream) :
  (skipCommentTokens beyond current).rest.length < current.length
  := (readTokenPastComments_isIn beyond current.length current).2 h

/-- All comments are skipped: the number that bounds the loop suffices. -/
theorem skipCommentTokens_ne_comment (current : List UInt8) :
  (skipCommentTokens beyond current).type ≠ .comment
  := by
  have hskip : ∀ fuel (current : List UInt8), current.length ≤ fuel →
      (readTokenPastComments beyond fuel current).type ≠ .comment := by
    intro fuel
    induction fuel with
    | zero =>
      intro current hfuel
      obtain rfl := List.eq_nil_of_length_eq_zero (Nat.le_zero.mp hfuel)
      exact TokenType.noConfusion
    | succ fuel ih =>
      intro current hfuel
      rw [readTokenPastComments]
      split
      · next hcomment =>
        have hlength : (readToken beyond current).rest.length < current.length := by
          apply readToken_length
          rw [hcomment]
          decide
        apply ih
        omega
      · next h => apply h
  apply hskip current.length current (le_refl _)

/-! ### Loops -/

/-- A loop of `recoverFromError` gets to the end of the document, if not to the token that it looks
for. -/
theorem skipUntil_isSome (type : TokenType) {fuel : ℕ} {current : List UInt8}
    (hfuel : current.length < fuel) :
  (skipUntil beyond type fuel current).isSome
  := by
  induction fuel generalizing current with
  | zero => contradiction
  | succ fuel ih =>
    rw [skipUntil]
    split
    · rfl
    · next hgo =>
      have hlength : (readToken beyond current).rest.length < current.length := by
        apply readToken_length
        intro hend
        apply hgo (Or.inr hend)
      apply ih
      omega

theorem readHexDigits_suffix
    {n : ℕ} {unicode unicode' : UInt32} {current rest : List UInt8}
    (h : readHexDigits n unicode current = .ok (unicode', rest)) :
  rest <:+ current
  := by
  induction n generalizing unicode current with
  | zero =>
    injection h with h
    injection h with _ h
    subst h
    apply List.suffix_refl
  | succ n ih =>
    rw [readHexDigits] at h
    dsimp only at h
    split at h
    · apply (ih h).trans (getNextChar_suffix current)
    · contradiction

theorem decodeUnicodeEscapeSequence_suffix
    {current rest : List UInt8} {unicode : UInt32}
    (h : decodeUnicodeEscapeSequence current = .ok (unicode, rest)) :
  rest <:+ current
  := by
  rw [decodeUnicodeEscapeSequence] at h
  split at h
  · contradiction
  · apply readHexDigits_suffix h

/-- What is left after the digits of an escape, or of two that make a pair, is the end of the
characters. -/
theorem decodeUnicodeCodePoint_suffix
    {current rest : List UInt8} {unicode : UInt32}
    (h : decodeUnicodeCodePoint current = .ok (unicode, rest)) :
  rest <:+ current
  := by
  rw [decodeUnicodeCodePoint] at h
  cases hfirst : decodeUnicodeEscapeSequence current with
  | error complaint =>
    rw [hfirst] at h
    contradiction
  | ok r =>
    obtain ⟨first, current'⟩ := r
    have hsuffix := decodeUnicodeEscapeSequence_suffix hfirst
    rw [hfirst] at h
    change (if _ then _ else _) = _ at h
    split at h
    · split at h
      · contradiction
      · split at h
        · contradiction
        · split at h
          · contradiction
          · cases hsecond : decodeUnicodeEscapeSequence (current'.drop 2) with
            | error complaint =>
              rw [hsecond] at h
              contradiction
            | ok r =>
              obtain ⟨second, current''⟩ := r
              have hsuffix' := decodeUnicodeEscapeSequence_suffix hsecond
              rw [hsecond] at h
              injection h with h
              injection h with _ h
              rw [← h]
              apply hsuffix'.trans ((List.drop_suffix 2 current').trans hsuffix)
    · injection h with h
      injection h with _ h
      rw [← h]
      apply hsuffix

/-- An escape has a character after the backslash. -/
theorem decodeEscape_length
    {current rest decoded : List UInt8} (h : decodeEscape current = .ok (decoded, rest)) :
  rest.length < current.length
  := by
  cases current with
  | nil => contradiction
  | cons c current =>
    rw [List.length_cons]
    apply Nat.lt_succ_of_le
    rw [decodeEscape] at h
    split at h
    · cases hdecoded : decodeUnicodeCodePoint current with
      | error complaint =>
        rw [hdecoded] at h
        contradiction
      | ok r =>
        obtain ⟨unicode, current'⟩ := r
        have hsuffix := decodeUnicodeCodePoint_suffix hdecoded
        rw [hdecoded] at h
        injection h with h
        injection h with _ h
        rw [← h]
        apply hsuffix.length_le
    · split at h
      · injection h with h
        injection h with _ h
        rw [h]
      · contradiction

/-- The loop of `decodeString` gets to the end of the characters. -/
theorem decodeChars_isSome {fuel : ℕ} {chars : List UInt8} (hfuel : chars.length ≤ fuel)
    (decoded : List UInt8) :
  (decodeChars fuel chars decoded).isSome
  := by
  induction fuel generalizing chars decoded with
  | zero =>
    obtain rfl := List.eq_nil_of_length_eq_zero (Nat.le_zero.mp hfuel)
    rfl
  | succ fuel ih =>
    cases chars with
    | nil => rfl
    | cons c current =>
      rw [List.length_cons] at hfuel
      rw [decodeChars]
      split
      · rfl
      · split
        · split
          · rfl
          · next chars current' hescape =>
            have hlength := decodeEscape_length hescape
            apply ih
            omega
        · apply ih
          omega

/-- The loops over comments, over the characters of strings and over the tokens after an error come
to their ends: there is no comment left, or the bound suffices. -/
structure LoopsEnd : Prop where
  comments : ∀ current, (skipCommentTokens beyond current).type ≠ .comment
  chars : ∀ chars : List UInt8, (decodeChars chars.length chars []).isSome
  recovery : ∀ (type : TokenType) (current : List UInt8),
    (skipUntil beyond type (current.length + 1) current).isSome

theorem loopsEnd :
  LoopsEnd beyond
  where
  comments := skipCommentTokens_ne_comment beyond
  chars _ := decodeChars_isSome (le_refl _) []
  recovery type current := skipUntil_isSome beyond type (Nat.lt_succ_self current.length)

/-! ### Outcomes -/

/-- What may come of reading from a state on: a well-formed value, after which less than `n`
characters of the document are left, or one more error, about a token of the document. -/
def Outcome (s : State) (n : ℕ) : Option Value × State → Prop
  | (some v, s') =>
    v.WellFormed ∧ s'.errors = s.errors ∧ s'.current <:+ s.current ∧ s'.current.length < n
  | (none, s') => ∃ error, s'.errors = s.errors ++ [error] ∧ error.token.IsIn s.current

/-- What comes of reading from a later state on. -/
theorem Outcome.of_suffix
    {s : State} {current : List UInt8} {errors : List ErrorInfo} {n m : ℕ}
    {r : Option Value × State} (h : Outcome ⟨current, errors⟩ n r) (herrors : errors = s.errors)
    (hsuffix : current <:+ s.current) (hn : n ≤ m) :
  Outcome s m r
  := by
  obtain ⟨_ | v, s'⟩ := r
  · obtain ⟨error, hadded, hin⟩ := h
    refine ⟨error, ?_, hin.of_suffix hsuffix⟩
    rw [hadded, herrors]
  · obtain ⟨hv, hadded, hrest, hlength⟩ := h
    exact ⟨hv, hadded.trans herrors, hrest.trans hsuffix, Nat.lt_of_lt_of_le hlength hn⟩

/-- A failure stays one after recovery, seen from a state before. -/
theorem Outcome.recover
    {s s' : State} {current : List UInt8} {errors : List ErrorInfo} {n m : ℕ}
    (h : Outcome ⟨current, errors⟩ n (none, s')) (herrors : errors = s.errors)
    (hsuffix : current <:+ s.current) (type : TokenType) :
  Outcome s m (none, recoverFromError setup type s')
  := by
  obtain ⟨error, hadded, hin⟩ := h
  refine ⟨error, ?_, hin.of_suffix hsuffix⟩
  rw [← herrors, ← hadded]
  rfl

/-- An error about a token of the document is a failure. -/
theorem outcome_addError
    {s : State} {n : ℕ} {error : ErrorInfo} (hin : error.token.IsIn s.current)
    (current : List UInt8) :
  Outcome s n (none, addError error ⟨current, s.errors⟩)
  := ⟨error, rfl, hin⟩

/-- It stays one after recovery. -/
theorem outcome_addErrorAndRecover
    {s : State} {n : ℕ} {token : Token} (hin : token.IsIn s.current) (message : String)
    (type : TokenType) :
  Outcome s n (none, addErrorAndRecover setup message token type s.errors)
  := ⟨⟨token, ascii message, none⟩, rfl, hin⟩

/-! ### Strings and numbers -/

/-- The error about a string is about its token. -/
theorem token_of_decodeString {token : Token} {error : ErrorInfo}
    (h : decodeString token = .error error) :
  error.token = token
  := by
  rw [decodeString] at h
  split at h
  · contradiction
  · injection h with h
    rw [← h]

theorem token_of_decodeDouble {token : Token} {error : ErrorInfo}
    (h : decodeDouble setup token = .error error) :
  error.token = token
  := by
  rw [decodeDouble] at h
  split at h
  · contradiction
  · injection h with h
    rw [← h]
    rfl

/-- The error about a number is about its token. -/
theorem token_of_decodeNumber {token : Token} {error : ErrorInfo}
    (h : decodeNumber setup token = .error error) :
  error.token = token
  := by
  rw [decodeNumber] at h
  split at h
  · apply token_of_decodeDouble h
  · dsimp only at h
    split at h
    · injection h with h
      rw [← h]
      rfl
    · apply token_of_decodeDouble h
    · repeat' split at h
      all_goals contradiction

theorem wellFormed_decodeDouble {token : Token} {v : Value}
    (h : decodeDouble setup token = .ok v) :
  v.WellFormed
  := by
  rw [decodeDouble] at h
  split at h
  · injection h with h
    rw [← h]
    apply Value.WellFormed.real
  · contradiction

/-- A number is a well-formed value. -/
theorem wellFormed_decodeNumber {token : Token} {v : Value}
    (h : decodeNumber setup token = .ok v) :
  v.WellFormed
  := by
  rw [decodeNumber] at h
  split at h
  · apply wellFormed_decodeDouble h
  · dsimp only at h
    split at h
    · contradiction
    · apply wellFormed_decodeDouble h
    · repeat' split at h
      all_goals
        injection h with h
        rw [← h]
        constructor

/-! ### Arrays and objects -/

section

variable (setup : Setup) {readValue : State → Option Value × State} {k : ℕ}
  (hread : ∀ s : State, s.current.length ≤ k → Outcome s s.current.length (readValue s))

include hread

/-- The items of an array, when values are read well from what is left of the document: by
induction on the bound of the loop, which the length of the document stays below. -/
theorem readItems_outcome
    (n : ℕ) (items : List Value) (s : State) (hitems : ∀ v ∈ items, v.WellFormed)
    (hk : s.current.length ≤ k) (hn : s.current.length < n) :
  Outcome s s.current.length (readItems setup readValue n items s)
  := by
  induction n generalizing items s with
  | zero => contradiction
  | succ n ih =>
    have hvalue := hread s hk
    rw [readItems]
    split
    · next s' hs =>
      rw [hs] at hvalue
      apply hvalue.recover rfl (List.suffix_refl _)
    · next v s' hs =>
      rw [hs] at hvalue
      obtain ⟨hv, herrors, hsuffix, hlength⟩ := hvalue
      have hin := (skipCommentTokens_isIn setup.beyond s'.current).of_suffix hsuffix
      have hall : ∀ w ∈ items ++ [v], w.WellFormed := by
        intro w hw
        rcases List.mem_append.mp hw with hw | hw
        · apply hitems w hw
        · rw [List.mem_singleton.mp hw]
          apply hv
      dsimp only
      split
      · rw [herrors]
        apply outcome_addErrorAndRecover hin
      · next htype =>
        have hend : (skipCommentTokens setup.beyond s'.current).type ≠ .endOfStream := by
          intro hend
          apply htype
          simp [hend]
        have hrest := skipCommentTokens_length setup.beyond _ hend
        split
        · refine ⟨.array hall, herrors, hin.rest_suffix, ?_⟩
          dsimp only
          omega
        · have hrec := ih _ ⟨(skipCommentTokens setup.beyond s'.current).rest, s'.errors⟩ hall
            (by dsimp only; omega) (by dsimp only; omega)
          apply hrec.of_suffix herrors hin.rest_suffix
          dsimp only
          omega

/-- An array, when values are read well. -/
theorem readArray_outcome (s : State) (hk : s.current.length ≤ k) :
  Outcome s (s.current.length + 1) (readArray setup readValue s)
  := by
  have hskip : skipSpaces s.current <:+ s.current := List.dropWhile_suffix _
  have hlength := hskip.length_le
  rw [readArray]
  split
  · have hrest := (readToken_isIn setup.beyond (skipSpaces s.current)).rest_suffix
    refine ⟨.array (by simp), rfl, hrest.trans hskip, ?_⟩
    have hle := hrest.length_le
    dsimp only
    omega
  · have hitems := readItems_outcome setup hread (skipSpaces s.current).length.succ []
      ⟨skipSpaces s.current, s.errors⟩ (by simp) (by dsimp only; omega) (by dsimp only; omega)
    apply hitems.of_suffix rfl hskip
    dsimp only
    omega

/-- The members of an object, when values are read well: the members so far stay well-formed. -/
theorem readMembers_outcome
    (n : ℕ) (members : Members) (name : List UInt8) (s : State)
    (hmembers : (Value.object members).WellFormed) (hk : s.current.length ≤ k)
    (hn : s.current.length < n) :
  Outcome s s.current.length (readMembers setup readValue n members name s)
  := by
  induction n generalizing members name s with
  | zero => contradiction
  | succ n ih =>
    have hname := skipCommentTokens_isIn setup.beyond s.current
    have hnameLength := skipCommentTokens_length setup.beyond s.current
    rw [readMembers]
    dsimp only
    generalize skipCommentTokens setup.beyond s.current = tokenName at *
    split
    · next hend =>
      have hlength : tokenName.rest.length < s.current.length := by
        apply hnameLength
        rw [hend.1]
        decide
      exact ⟨hmembers, rfl, hname.rest_suffix, hlength⟩
    · split
      · apply outcome_addErrorAndRecover hname
      · next hstring =>
        have hlength : tokenName.rest.length < s.current.length := by
          apply hnameLength
          intro hend
          apply hstring
          rw [hend]
          decide
        split
        · next error herror =>
          have htoken := token_of_decodeString herror
          refine ⟨error, rfl, ?_⟩
          rw [htoken]
          apply hname
        · next name hdecoded =>
          have hcolon := (readToken_isIn setup.beyond tokenName.rest).of_suffix
            hname.rest_suffix
          have hcolonLength := (readToken_isIn setup.beyond
            tokenName.rest).rest_suffix.length_le
          generalize readToken setup.beyond tokenName.rest = colon at *
          split
          · apply outcome_addErrorAndRecover hcolon
          · have hvalue := hread ⟨colon.rest, s.errors⟩ (by dsimp only; omega)
            split
            · next s' hs =>
              rw [hs] at hvalue
              apply hvalue.recover rfl hcolon.rest_suffix
            · next v s' hs =>
              rw [hs] at hvalue
              obtain ⟨hv, herrors, hsuffix, hvalueLength⟩ := hvalue
              dsimp only at herrors hsuffix hvalueLength
              have hcomma := (readToken_isIn setup.beyond s'.current).of_suffix
                (hsuffix.trans hcolon.rest_suffix)
              have hskip := skipCommentTokens_isIn setup.beyond s'.current
              have hin := hskip.of_suffix (hsuffix.trans hcolon.rest_suffix)
              have hskipLength := hskip.rest_suffix.length_le
              have hinsert := Members.wellFormed_insert (Members.zero_notMem_cstr name) hv hmembers
              split
              · rw [herrors]
                apply outcome_addErrorAndRecover hcomma
              · split
                · refine ⟨hinsert, herrors, hin.rest_suffix, ?_⟩
                  dsimp only
                  omega
                · have hrec := ih _ name
                    ⟨(skipCommentTokens setup.beyond s'.current).rest, s'.errors⟩ hinsert
                    (by dsimp only; omega) (by dsimp only; omega)
                  apply hrec.of_suffix herrors hin.rest_suffix
                  dsimp only
                  omega

/-- An object, when values are read well. -/
theorem readObject_outcome (s : State) (hk : s.current.length ≤ k) :
  Outcome s s.current.length (readObject setup readValue s)
  := by
  apply readMembers_outcome setup hread
  · apply Value.WellFormed.object
    · exact ⟨by simp, .nil⟩
    · simp
  · apply hk
  · apply Nat.lt_succ_self

end

/-! ### Documents -/

/-- A number or a string, when its errors are about its token. -/
theorem accept_outcome
    {s : State} {n : ℕ} {token : Token} (hin : token.IsIn s.current)
    (hlength : token.rest.length < n) {decoded : Except ErrorInfo Value}
    (hok : ∀ v, decoded = .ok v → v.WellFormed)
    (herror : ∀ error, decoded = .error error → error.token = token) :
  Outcome s n (accept decoded { s with current := token.rest })
  := by
  cases decoded with
  | ok v => exact ⟨hok v rfl, rfl, hin.rest_suffix, hlength⟩
  | error error =>
    apply outcome_addError
    rw [herror error rfl]
    apply hin

/-- A value, when the bound of the nesting exceeds what is left of the document. -/
theorem readValue_outcome (setup : Setup) {fuel : ℕ} (s : State) (hfuel : s.current.length < fuel) :
  Outcome s s.current.length (readValue setup fuel s)
  := by
  induction fuel generalizing s with
  | zero => contradiction
  | succ fuel ih =>
    have hin := skipCommentTokens_isIn setup.beyond s.current
    have hlength := skipCommentTokens_length setup.beyond s.current
    rw [readValue]
    generalize skipCommentTokens setup.beyond s.current = token at *
    have hread : ∀ s : State, s.current.length ≤ token.rest.length → token.rest.length < fuel →
        Outcome s s.current.length (readValue setup fuel s) := by
      intro s hs hrest
      apply ih
      omega
    split
    · next htype =>
      have hlt : token.rest.length < s.current.length := hlength (by rw [htype]; decide)
      have hobject := readObject_outcome setup (fun s hs => hread s hs (by omega))
        ⟨token.rest, s.errors⟩ (le_refl _)
      apply hobject.of_suffix rfl hin.rest_suffix hlt.le
    · next htype =>
      have hlt : token.rest.length < s.current.length := hlength (by rw [htype]; decide)
      have harray := readArray_outcome setup (fun s hs => hread s hs (by omega))
        ⟨token.rest, s.errors⟩ (le_refl _)
      apply harray.of_suffix rfl hin.rest_suffix hlt
    · next htype =>
      apply accept_outcome hin (hlength (by rw [htype]; decide))
      · intro v hv
        apply wellFormed_decodeNumber hv
      · intro error herror
        apply token_of_decodeNumber herror
    · next htype =>
      apply accept_outcome hin (hlength (by rw [htype]; decide))
      · intro v hv
        cases hdecoded : decodeString token with
        | error error =>
          rw [hdecoded] at hv
          contradiction
        | ok value =>
          rw [hdecoded] at hv
          injection hv with hv
          rw [← hv]
          apply Value.WellFormed.string
      · intro error herror
        apply token_of_decodeString
        cases hdecoded : decodeString token with
        | error error' =>
          rw [hdecoded] at herror
          injection herror with herror
          rw [herror]
        | ok value =>
          rw [hdecoded] at herror
          contradiction
    · next htype =>
      exact ⟨.bool true, rfl, hin.rest_suffix, hlength (by rw [htype]; decide)⟩
    · next htype =>
      exact ⟨.bool false, rfl, hin.rest_suffix, hlength (by rw [htype]; decide)⟩
    · next htype =>
      exact ⟨.null, rfl, hin.rest_suffix, hlength (by rw [htype]; decide)⟩
    · apply outcome_addError hin

theorem parse_eq (document : List UInt8) :
  parse setup document = ((readValue setup (document.length + 1) ⟨document, []⟩).1,
    (readValue setup (document.length + 1) ⟨document, []⟩).2.errors)
  := rfl

/-- Whatever the document is, the loops of the reader come to their ends, and either a well-formed
value is made of the document and there is no error, or no value is and there is one error, whose
token is in the document. -/
theorem parse_outcome (setup : Setup) (document : List UInt8) :
  LoopsEnd setup.beyond
    ∧ ((∃ v, parse setup document = (some v, []) ∧ v.WellFormed)
      ∨ ∃ error, parse setup document = (none, [error]) ∧ error.token.IsIn document)
  := by
  use loopsEnd setup.beyond
  have houtcome := readValue_outcome setup ⟨document, []⟩
    (Nat.lt_succ_self document.length)
  rw [parse_eq]
  generalize readValue setup (document.length + 1) ⟨document, []⟩ = r at *
  obtain ⟨_ | v, s⟩ := r
  · obtain ⟨error, herrors, hin⟩ := houtcome
    apply Or.inr
    refine ⟨error, ?_, hin⟩
    dsimp only
    rw [herrors]
    rfl
  · obtain ⟨hv, herrors, -⟩ := houtcome
    apply Or.inl
    refine ⟨v, ?_, hv⟩
    dsimp only
    rw [herrors]

end Json.Reader
