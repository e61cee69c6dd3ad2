import IotDeviceSdk.Json.Reader.Numbers

/-!
# The documents that are read

The reader reads every JSON text, and it makes the value of it that the text stands for.  This
goes by induction on the text: the text of a value is read up to what follows it, which is not a
character of a number.
-/

namespace Json.Reader

open CString Text

/-- No character of a number is next. -/
def Ends (rest : List UInt8) : Prop :=
  ∀ c ∈ rest.head?, isNumberChar c = false

/-- The text of a value is read. -/
def ReadsValue (setup : Setup) (s : List UInt8) (v : Value) : Prop :=
  ∀ ⦃before rest : List UInt8⦄ ⦃errors : List ErrorInfo⦄ ⦃fuel : ℕ⦄,
    IsSpace before → Ends rest → s.length ≤ fuel →
    readValue setup fuel ⟨before ++ s ++ rest, errors⟩ = (some v, ⟨rest, errors⟩)

/-- The text of the items of an array is read, up to the end of the array. -/
def ReadsItems (setup : Setup) (s : List UInt8) (items : List Value) : Prop :=
  ∀ ⦃rest : List UInt8⦄ ⦃errors : List ErrorInfo⦄ ⦃fuel n : ℕ⦄ ⦃acc : List Value⦄,
    s.length ≤ fuel → s.length ≤ n →
    readItems setup (readValue setup fuel) n acc ⟨s ++ 93 :: rest, errors⟩
      = (some (.array (acc ++ items)), ⟨rest, errors⟩)

/-- The text of a member of an object is read, up to the comma after it or the end of the
object. -/
def ReadsMember (setup : Setup) (s : List UInt8) (m : List UInt8 × Value) : Prop :=
  ∀ ⦃rest : List UInt8⦄ ⦃errors : List ErrorInfo⦄ ⦃fuel n : ℕ⦄ ⦃acc : Members⦄ ⦃name : List UInt8⦄,
    s.length ≤ fuel →
    readMembers setup (readValue setup fuel) (n + 1) acc name ⟨s ++ 44 :: rest, errors⟩
        = readMembers setup (readValue setup fuel) n (Members.enter acc [m]) m.1 ⟨rest, errors⟩
      ∧ readMembers setup (readValue setup fuel) (n + 1) acc name ⟨s ++ 125 :: rest, errors⟩
        = (some (.object (Members.enter acc [m])), ⟨rest, errors⟩)

/-- The text of the members of an object is read, up to the end of the object. -/
def ReadsMembers (setup : Setup) (s : List UInt8) (members : List (List UInt8 × Value)) : Prop :=
  ∀ ⦃rest : List UInt8⦄ ⦃errors : List ErrorInfo⦄ ⦃fuel n : ℕ⦄ ⦃acc : Members⦄ ⦃name : List UInt8⦄,
    s.length ≤ fuel → s.length < n →
    readMembers setup (readValue setup fuel) n acc name ⟨s ++ 125 :: rest, errors⟩
      = (some (.object (Members.enter acc members)), ⟨rest, errors⟩)

variable {setup : Setup}

/-! ### Tokens between values -/

theorem isSpace_nil :
  IsSpace []
  := by
  intro c hc
  contradiction

/-- A character that is a token by itself. -/
theorem skipCommentTokens_char
    {beyond : UInt8} {space : List UInt8} (hspace : IsSpace space) {c : UInt8}
    (hc : isSpace c = false) {current : List UInt8} {type : TokenType}
    (h : readTokenFrom beyond c current = (type, current)) (htype : type ≠ .comment) :
  skipCommentTokens beyond (space ++ c :: current) = ⟨type, [c], current⟩
  := by
  apply skipCommentTokens_of_ne
  · apply readToken_char hspace hc h
  · apply htype

/-- A character that numbers do not have ends a number. -/
theorem ends_cons {c : UInt8} (h : isNumberChar c = false) (rest : List UInt8) :
  Ends (c :: rest)
  := by
  rintro d ⟨⟩
  apply h

theorem isNumberChar_of_space {c : UInt8} (h : c = 32 ∨ c = 9 ∨ c = 10 ∨ c = 13) :
  isNumberChar c = false
  := by
  rcases h with rfl | rfl | rfl | rfl
  · rfl
  · rfl
  · rfl
  · rfl

/-- So does white space. -/
theorem ends_append {space rest : List UInt8} (hspace : IsSpace space) (h : Ends rest) :
  Ends (space ++ rest)
  := by
  cases space with
  | nil => apply h
  | cons c space =>
    apply ends_cons
    apply isNumberChar_of_space (hspace c List.mem_cons_self)

/-! ### Scalars -/

/-- A value of one token. -/
theorem readValue_of_token
    {current : List UInt8} {token : Token}
    (h : skipCommentTokens setup.beyond current = token) {v : Value} {errors : List ErrorInfo}
    {fuel : ℕ} (hfuel : 0 < fuel)
    (hvalue : token.type = .number ∧ decodeNumber setup token = .ok v
      ∨ token.type = .string
        ∧ (decodeString token).map (fun decoded => .string (cstr decoded)) = .ok v
      ∨ token.type = .true ∧ v = .bool true
      ∨ token.type = .false ∧ v = .bool false
      ∨ token.type = .null ∧ v = .null) :
  readValue setup fuel ⟨current, errors⟩ = (some v, ⟨token.rest, errors⟩)
  := by
  obtain ⟨fuel, rfl⟩ := Nat.exists_eq_succ_of_ne_zero hfuel.ne'
  rw [readValue, h]
  rcases hvalue with ⟨htype, h⟩ | ⟨htype, h⟩ | ⟨htype, rfl⟩ | ⟨htype, rfl⟩ | ⟨htype, rfl⟩
  · simp only [htype, accept, h]
  · simp only [htype, accept, h]
  · simp only [htype]
  · simp only [htype]
  · simp only [htype]

/-- The text of a number is read. -/
theorem readsValue_number {s : List UInt8} {v : Value} (h : NumberText setup.sscanf s v) :
  ReadsValue setup s v
  := by
  intro before rest errors fuel hbefore hrest hfuel
  have htoken := isNumberToken_of_numberText h
  have hlength : 0 < s.length := by
    obtain ⟨c, t, rfl, -⟩ := htoken
    simp
  have hread : skipCommentTokens setup.beyond (before ++ s ++ rest) = ⟨.number, s, rest⟩ := by
    apply skipCommentTokens_of_ne
    · apply readToken_number hbefore htoken hrest
    · exact TokenType.noConfusion
  apply readValue_of_token hread (by omega)
  exact Or.inl ⟨rfl, decodeNumber_eq h rest⟩

/-- The token of a string, after some white space. -/
theorem skipCommentTokens_string
    {beyond : UInt8} {space : List UInt8} (hspace : IsSpace space) {s value : List UInt8}
    (h : StringText s value) (rest : List UInt8) :
  skipCommentTokens beyond (space ++ s ++ rest) = ⟨.string, s, rest⟩
  := by
  apply skipCommentTokens_of_ne
  · apply readToken_string hspace h
  · exact TokenType.noConfusion

/-- The text of a string is read, as a C string. -/
theorem readsValue_string {s value : List UInt8} (h : StringText s value) :
  ReadsValue setup s (.string (cstr value))
  := by
  intro before rest errors fuel hbefore _ hfuel
  have hlength : 0 < s.length := by
    obtain ⟨chars, rfl, -⟩ := h
    simp
  apply readValue_of_token (skipCommentTokens_string hbefore h rest) (by omega)
  rw [decodeString_eq h]
  exact Or.inr (Or.inl ⟨rfl, rfl⟩)

/-- A token of a fixed text. -/
theorem skipCommentTokens_literal
    {beyond : UInt8} {space : List UInt8} (hspace : IsSpace space) {c : UInt8}
    (hc : isSpace c = false) {pattern : List UInt8} {type : TokenType}
    (h : ∀ current, readTokenFrom beyond c current
      = (if (matchPattern pattern current).1 then type else .error,
          (matchPattern pattern current).2))
    (htype : type ≠ .comment) (rest : List UInt8) :
  skipCommentTokens beyond (space ++ c :: pattern ++ rest) = ⟨type, c :: pattern, rest⟩
  := by
  have hmatch : matchPattern pattern (pattern ++ rest) = (true, rest) := by
    rw [matchPattern, if_pos (by simp), List.drop_left]
  apply skipCommentTokens_of_ne
  · rw [List.append_assoc, List.cons_append]
    apply readToken_of_eq hspace hc
    · rw [h, hmatch]
      rfl
    · rfl
  · apply htype

/-- The texts of `null`, `true` and `false` are read. -/
theorem readsValue_null
  : ReadsValue setup (ascii "null") .null
  := by
  intro before rest errors fuel hbefore _ hfuel
  have htoken : skipCommentTokens setup.beyond (before ++ ascii "null" ++ rest)
      = ⟨.null, ascii "null", rest⟩ := by
    apply skipCommentTokens_literal hbefore rfl (fun _ => rfl) (by decide)
  apply readValue_of_token htoken (Nat.lt_of_lt_of_le (by decide) hfuel)
  simp

theorem readsValue_true
  : ReadsValue setup (ascii "true") (.bool true)
  := by
  intro before rest errors fuel hbefore _ hfuel
  have htoken : skipCommentTokens setup.beyond (before ++ ascii "true" ++ rest)
      = ⟨.true, ascii "true", rest⟩ := by
    apply skipCommentTokens_literal hbefore rfl (fun _ => rfl) (by decide)
  apply readValue_of_token htoken (Nat.lt_of_lt_of_le (by decide) hfuel)
  simp

theorem readsValue_false
  : ReadsValue setup (ascii "false") (.bool false)
  := by
  intro before rest errors fuel hbefore _ hfuel
  have htoken : skipCommentTokens setup.beyond (before ++ ascii "false" ++ rest)
      = ⟨.false, ascii "false", rest⟩ := by
    apply skipCommentTokens_literal hbefore rfl (fun _ => rfl) (by decide)
  apply readValue_of_token htoken (Nat.lt_of_lt_of_le (by decide) hfuel)
  simp

/-! ### Arrays -/

/-- The text begins with a character that is neither white space nor the end of an array. -/
def Opens (s : List UInt8) : Prop :=
  ∃ c t, s = c :: t ∧ isSpace c = false ∧ c ≠ 93

/-- No text of a value begins like the end of an array. -/
theorem opens_valueText {double : List UInt8 → Option Double} {s : List UInt8} {v : Value}
    (h : ValueText double s v) :
  Opens s
  := by
  cases h with
  | null => exact ⟨_, _, rfl, rfl, by decide⟩
  | true => exact ⟨_, _, rfl, rfl, by decide⟩
  | false => exact ⟨_, _, rfl, rfl, by decide⟩
  | number h =>
    obtain ⟨c, t, rfl, hc, -⟩ := isNumberToken_of_numberText h
    refine ⟨c, t, rfl, isSpace_number hc, ?_⟩
    rintro rfl
    revert hc
    decide
  | string h =>
    obtain ⟨chars, rfl, -⟩ := h
    exact ⟨_, _, rfl, rfl, by decide⟩
  | emptyArray | array | emptyObject | object => exact ⟨_, _, rfl, rfl, by decide⟩

theorem Opens.append {s : List UInt8} (h : Opens s) (t : List UInt8) :
  Opens (s ++ t)
  := by
  obtain ⟨c, u, rfl, hc, hne⟩ := h
  exact ⟨c, u ++ t, rfl, hc, hne⟩

theorem Opens.length_pos {s : List UInt8} (h : Opens s) :
  0 < s.length
  := by
  obtain ⟨c, t, rfl, -⟩ := h
  simp

/-- White space before the first item of an array can be left out. -/
theorem exists_trimmed {double : List UInt8 → Option Double} {s : List UInt8} {items : List Value}
    (h : ItemsText double s items) :
  ∃ before t, s = before ++ t ∧ IsSpace before ∧ Opens t ∧ ItemsText double t items
  := by
  cases h with
  | @last before t after v hbefore hvalue hafter =>
    refine ⟨before, t ++ after, by rw [List.append_assoc], hbefore, ?_, ?_⟩
    · apply (opens_valueText hvalue).append
    · apply ItemsText.last isSpace_nil hvalue hafter
  | @cons before t after u v items hbefore hvalue hafter hitems =>
    refine ⟨before, t ++ after ++ 44 :: u, by simp, hbefore, ?_, ?_⟩
    · rw [List.append_assoc]
      apply (opens_valueText hvalue).append
    · apply ItemsText.cons isSpace_nil hvalue hafter hitems

/-- There is no white space to skip before such a text. -/
theorem skipSpaces_opens {s : List UInt8} (h : Opens s) (rest : List UInt8) :
  skipSpaces (s ++ rest) = s ++ rest
  := by
  obtain ⟨c, t, rfl, hc, -⟩ := h
  apply List.dropWhile_cons_of_neg
  rw [hc]
  decide

/-- The text of an array without items is read. -/
theorem readsValue_emptyArray {space : List UInt8} (h : IsSpace space) :
  ReadsValue setup (91 :: space ++ [93]) (.array [])
  := by
  intro before rest errors fuel hbefore _ hfuel
  obtain ⟨fuel, rfl⟩ := Nat.exists_eq_succ_of_ne_zero (show fuel ≠ 0 by rintro rfl; simp at hfuel)
  have htoken : skipCommentTokens setup.beyond (before ++ (91 :: space ++ [93]) ++ rest)
      = ⟨.arrayBegin, [91], space ++ 93 :: rest⟩ := by
    rw [List.append_assoc, List.append_assoc, List.singleton_append, List.cons_append]
    apply skipCommentTokens_char hbefore rfl rfl (by decide)
  have hskip : skipSpaces (space ++ 93 :: rest) = 93 :: rest := by
    rw [skipSpaces_append h]
    rfl
  have hend : readToken setup.beyond (93 :: rest) = ⟨.arrayEnd, [93], rest⟩ := by
    apply readToken_char isSpace_nil rfl rfl
  rw [readValue, htoken]
  simp only [readArray, hskip, hend, List.headD_cons, if_true]

/-- The text of an array is read, if those of its items are. -/
theorem readsValue_array
    {s : List UInt8} {items : List Value} (hitems : ItemsText setup.sscanf s items)
    (h : ∀ {t}, t.length ≤ s.length → ItemsText setup.sscanf t items → ReadsItems setup t items) :
  ReadsValue setup (91 :: s ++ [93]) (.array items)
  := by
  intro before rest errors fuel hbefore _ hfuel
  obtain ⟨fuel, rfl⟩ := Nat.exists_eq_succ_of_ne_zero (show fuel ≠ 0 by rintro rfl; simp at hfuel)
  obtain ⟨space, t, rfl, hspace, hopens, htext⟩ := exists_trimmed hitems
  have htoken : skipCommentTokens setup.beyond (before ++ (91 :: (space ++ t) ++ [93]) ++ rest)
      = ⟨.arrayBegin, [91], space ++ (t ++ 93 :: rest)⟩ := by
    simp only [List.append_assoc, List.cons_append, List.nil_append]
    apply skipCommentTokens_char hbefore rfl rfl (by decide)
  have hskip : skipSpaces (space ++ (t ++ 93 :: rest)) = t ++ 93 :: rest := by
    rw [skipSpaces_append hspace, skipSpaces_opens hopens]
  have hhead : (t ++ 93 :: rest).headD setup.beyond ≠ 93 := by
    obtain ⟨c, u, rfl, -, hne⟩ := hopens
    apply hne
  rw [readValue, htoken]
  simp only [readArray, hskip, if_neg hhead]
  rw [h (by simp) htext]
  · rfl
  · simp at hfuel
    omega
  · rw [List.length_append]
    omega

/-- The last item of an array is read, and the end of the array after it. -/
theorem readsItems_last
    {before s after : List UInt8} {v : Value} (hbefore : IsSpace before)
    (hvalue : ReadsValue setup s v) (hlength : 0 < s.length) (hafter : IsSpace after) :
  ReadsItems setup (before ++ s ++ after) [v]
  := by
  intro rest errors fuel n acc hfuel hn
  simp only [List.length_append] at hfuel hn
  obtain ⟨n, rfl⟩ := Nat.exists_eq_succ_of_ne_zero (show n ≠ 0 by omega)
  have htoken : skipCommentTokens setup.beyond (after ++ 93 :: rest) = ⟨.arrayEnd, [93], rest⟩ := by
    apply skipCommentTokens_char hafter rfl rfl (by decide)
  rw [readItems, List.append_assoc, hvalue hbefore]
  · simp [htoken]
  · apply ends_append hafter
    apply ends_cons
    rfl
  · omega

/-- An item of an array is read, and the others after the comma. -/
theorem readsItems_cons
    {before s after t : List UInt8} {v : Value} {items : List Value} (hbefore : IsSpace before)
    (hvalue : ReadsValue setup s v) (hlength : 0 < s.length) (hafter : IsSpace after)
    (hitems : ReadsItems setup t items) :
  ReadsItems setup (before ++ s ++ after ++ 44 :: t) (v :: items)
  := by
  intro rest errors fuel n acc hfuel hn
  simp only [List.length_append, List.length_cons] at hfuel hn
  obtain ⟨n, rfl⟩ := Nat.exists_eq_succ_of_ne_zero (show n ≠ 0 by omega)
  have htoken : skipCommentTokens setup.beyond (after ++ 44 :: (t ++ 93 :: rest))
      = ⟨.arraySeparator, [44], t ++ 93 :: rest⟩ := by
    apply skipCommentTokens_char hafter rfl rfl (by decide)
  rw [readItems, List.append_assoc, List.append_assoc, List.cons_append, hvalue hbefore]
  · simp only [htoken]
    rw [if_neg (by simp), if_neg (by simp), hitems (by omega) (by omega), List.append_assoc,
      List.singleton_append]
  · apply ends_append hafter
    apply ends_cons
    rfl
  · omega

/-! ### Objects -/

/-- A member of an object is read, and the token that follows it decides on how to go on. -/
theorem readMembers_member
    {before key beforeColon afterColon s after name : List UInt8} {v : Value}
    (hbefore : IsSpace before) (hkey : StringText key name) (hbeforeColon : IsSpace beforeColon)
    (hafterColon : IsSpace afterColon) (hvalue : ReadsValue setup s v) (hafter : IsSpace after)
    {c : UInt8} (hc : isSpace c = false ∧ isNumberChar c = false) {type : TokenType}
    (htype : type = .objectEnd ∨ type = .arraySeparator)
    (hread : ∀ current, readTokenFrom setup.beyond c current = (type, current))
    {rest : List UInt8} {errors : List ErrorInfo} {fuel n : ℕ} {acc : Members}
    {last : List UInt8} (hfuel : s.length ≤ fuel) :
  readMembers setup (readValue setup fuel) (n + 1) acc last
      ⟨before ++ key ++ beforeColon ++ 58 :: afterColon ++ s ++ after ++ c :: rest, errors⟩
    = if type = .objectEnd then (some (.object (Members.enter acc [(name, v)])), ⟨rest, errors⟩)
      else readMembers setup (readValue setup fuel) n (Members.enter acc [(name, v)]) name
        ⟨rest, errors⟩
  := by
  have hname : skipCommentTokens setup.beyond
      (before ++ key ++ (beforeColon ++ 58 :: (afterColon ++ s ++ (after ++ c :: rest))))
      = ⟨.string, key, beforeColon ++ 58 :: (afterColon ++ s ++ (after ++ c :: rest))⟩ := by
    apply skipCommentTokens_string hbefore hkey
  have hcolon : readToken setup.beyond
      (beforeColon ++ 58 :: (afterColon ++ s ++ (after ++ c :: rest)))
      = ⟨.memberSeparator, [58], afterColon ++ s ++ (after ++ c :: rest)⟩ := by
    apply readToken_char hbeforeColon rfl rfl
  have hcomma : readToken setup.beyond (after ++ c :: rest) = ⟨type, [c], rest⟩ := by
    apply readToken_char hafter hc.1 (hread rest)
  have hskip : skipCommentTokens setup.beyond (after ++ c :: rest) = ⟨type, [c], rest⟩ := by
    apply skipCommentTokens_char hafter hc.1 (hread rest)
    rcases htype with rfl | rfl
    · decide
    · decide
  have hends : Ends (after ++ c :: rest) := by
    apply ends_append hafter
    apply ends_cons hc.2
  have hdocument : before ++ key ++ beforeColon ++ 58 :: afterColon ++ s ++ after ++ c :: rest
      = before ++ key ++ (beforeColon ++ 58 :: (afterColon ++ s ++ (after ++ c :: rest))) := by
    simp
  rw [hdocument, readMembers]
  simp only [hname, decodeString_eq hkey, hcolon, hvalue hafterColon hends hfuel, hcomma, hskip]
  rw [if_neg (by simp), if_neg (by simp), if_neg (by simp), if_neg]
  · rfl
  · rcases htype with rfl | rfl
    · simp
    · simp

/-- A member of an object is read, if its value is. -/
theorem readsMember
    {before key beforeColon afterColon s after name : List UInt8} {v : Value}
    (hbefore : IsSpace before) (hkey : StringText key name) (hbeforeColon : IsSpace beforeColon)
    (hafterColon : IsSpace afterColon) (hvalue : ReadsValue setup s v) (hafter : IsSpace after) :
  ReadsMember setup (before ++ key ++ beforeColon ++ 58 :: afterColon ++ s ++ after) (name, v)
  := by
  intro rest errors fuel n acc last hfuel
  have hlength : s.length ≤ fuel := by
    simp only [List.length_append] at hfuel
    omega
  constructor
  · apply readMembers_member hbefore hkey hbeforeColon hafterColon hvalue hafter ⟨rfl, rfl⟩
      (Or.inr rfl) (fun _ => rfl) hlength
  · apply readMembers_member hbefore hkey hbeforeColon hafterColon hvalue hafter ⟨rfl, rfl⟩
      (Or.inl rfl) (fun _ => rfl) hlength

/-- The last member of an object is read, and the end of the object after it. -/
theorem readsMembers_last {s : List UInt8} {m : List UInt8 × Value} (h : ReadsMember setup s m) :
  ReadsMembers setup s [m]
  := by
  intro rest errors fuel n acc name hfuel hn
  obtain ⟨n, rfl⟩ := Nat.exists_eq_succ_of_ne_zero (show n ≠ 0 by omega)
  apply (h hfuel).2

/-- A member of an object is read, and the others after the comma. -/
theorem readsMembers_cons
    {s t : List UInt8} {m : List UInt8 × Value} {members : List (List UInt8 × Value)}
    (h : ReadsMember setup s m) (hmembers : ReadsMembers setup t members) :
  ReadsMembers setup (s ++ 44 :: t) (m :: members)
  := by
  intro rest errors fuel n acc name hfuel hn
  simp only [List.length_append, List.length_cons] at hfuel hn
  obtain ⟨n, rfl⟩ := Nat.exists_eq_succ_of_ne_zero (show n ≠ 0 by omega)
  rw [List.append_assoc, List.cons_append, (h (by omega)).1, hmembers (by omega) (by omega)]
  rfl

/-- The text of an object without members is read. -/
theorem readsValue_emptyObject {space : List UInt8} (h : IsSpace space) :
  ReadsValue setup (123 :: space ++ [125]) (.object [])
  := by
  intro before rest errors fuel hbefore _ hfuel
  obtain ⟨fuel, rfl⟩ := Nat.exists_eq_succ_of_ne_zero (show fuel ≠ 0 by rintro rfl; simp at hfuel)
  have htoken : skipCommentTokens setup.beyond (before ++ (123 :: space ++ [125]) ++ rest)
      = ⟨.objectBegin, [123], space ++ 125 :: rest⟩ := by
    rw [List.append_assoc, List.append_assoc, List.singleton_append, List.cons_append]
    apply skipCommentTokens_char hbefore rfl rfl (by decide)
  have hend : skipCommentTokens setup.beyond (space ++ 125 :: rest)
      = ⟨.objectEnd, [125], rest⟩ := by
    apply skipCommentTokens_char h rfl rfl (by decide)
  rw [readValue, htoken]
  simp only [readObject, readMembers, hend, and_self, if_true]

/-- The text of an object is read, if those of its members are. -/
theorem readsValue_object
    {s : List UInt8} {members : List (List UInt8 × Value)} (h : ReadsMembers setup s members) :
  ReadsValue setup (123 :: s ++ [125]) (objectOf members)
  := by
  intro before rest errors fuel hbefore _ hfuel
  obtain ⟨fuel, rfl⟩ := Nat.exists_eq_succ_of_ne_zero (show fuel ≠ 0 by rintro rfl; simp at hfuel)
  have htoken : skipCommentTokens setup.beyond (before ++ (123 :: s ++ [125]) ++ rest)
      = ⟨.objectBegin, [123], s ++ 125 :: rest⟩ := by
    rw [List.append_assoc, List.append_assoc, List.singleton_append, List.cons_append]
    apply skipCommentTokens_char hbefore rfl rfl (by decide)
  rw [readValue, htoken]
  simp only [readObject]
  rw [h]
  · rfl
  · simp at hfuel
    omega
  · rw [List.length_append]
    omega

/-! ### Documents -/

mutual

/-- The text of a value is read: by induction on its length, as the items of an array are read
without the white space before the first one. -/
theorem readsValue {s : List UInt8} {v : Value} (h : ValueText setup.sscanf s v) :
  ReadsValue setup s v
  := by
  cases h with
  | null => apply readsValue_null
  | true => apply readsValue_true
  | false => apply readsValue_false
  | number h => apply readsValue_number h
  | string h => apply readsValue_string h
  | emptyArray h => apply readsValue_emptyArray h
  | array h =>
    apply readsValue_array h
    intro t hlength htext
    apply readsItems htext
  | emptyObject h => apply readsValue_emptyObject h
  | object h => apply readsValue_object (readsMembers h)
termination_by 2 * s.length

/-- The text of the items of an array is read. -/
theorem readsItems {s : List UInt8} {items : List Value} (h : ItemsText setup.sscanf s items) :
  ReadsItems setup s items
  := by
  cases h with
  | last hbefore hvalue hafter =>
    apply readsItems_last hbefore (readsValue hvalue) (opens_valueText hvalue).length_pos hafter
  | cons hbefore hvalue hafter hitems =>
    apply readsItems_cons hbefore (readsValue hvalue) (opens_valueText hvalue).length_pos hafter
    apply readsItems hitems
termination_by 2 * s.length + 1

/-- The text of the members of an object is read. -/
theorem readsMembers
    {s : List UInt8} {members : List (List UInt8 × Value)}
    (h : MembersText setup.sscanf s members) :
  ReadsMembers setup s members
  := by
  cases h with
  | last h =>
    cases h with
    | mk hbefore hkey hbeforeColon hafterColon hvalue hafter =>
      apply readsMembers_last
      apply readsMember hbefore hkey hbeforeColon hafterColon (readsValue hvalue) hafter
  | cons h hmembers =>
    cases h with
    | mk hbefore hkey hbeforeColon hafterColon hvalue hafter =>
      apply readsMembers_cons
      · apply readsMember hbefore hkey hbeforeColon hafterColon (readsValue hvalue) hafter
      · apply readsMembers hmembers
termination_by 2 * s.length + 1

end

/-- A document is read without an error, and as the value of its text. -/
theorem parse_of_documentText
    {s : List UInt8} {v : Value} (h : DocumentText setup.sscanf s v) :
  parse setup s = (some v, [])
  := by
  obtain ⟨before, t, after, rfl, hbefore, hvalue, hafter⟩ := h
  have hends : Ends after := by
    rw [← List.append_nil after]
    apply ends_append hafter
    rintro c ⟨⟩
  rw [parse, readsValue hvalue hbefore hends]
  simp only [List.length_append]
  omega

/-- Every JSON text is read without an error, and as the value that it stands for; it stands for
no other value. -/
theorem parse_documentText
    {s : List UInt8} {v : Value} (h : DocumentText setup.sscanf s v) :
  parse setup s = (some v, []) ∧ ∀ w, DocumentText setup.sscanf s w → w = v
  := by
  have hv := parse_of_documentText h
  use hv
  intro w hw
  rw [parse_of_documentText hw] at hv
  injection hv with hv
  injection hv

/-- A document with white space, an escape, an array and an object. -/
theorem parse_documentText_object
  : parse ⟨fun _ => none, 0⟩ (ascii " \x7b\"on\": [1, \"\\u0041\"]\x7d\n")
    = (some (.object [(ascii "on", .array [.int 1, .string (ascii "A")])]), [])
  := by
  have hspace : IsSpace [32] := by
    simp [IsSpace]
  have hname : StringText (ascii "\"on\"") (ascii "on") :=
    ⟨ascii "on", rfl, .cons (.plain 111 (by decide) (by decide) (by decide))
      (.cons (.plain 110 (by decide) (by decide) (by decide)) .nil)⟩
  have hstring : StringText (ascii "\"\\u0041\"") (ascii "A") :=
    ⟨ascii "\\u0041", rfl, .cons (.unicode 'A' (ascii "0041")
      ⟨48, 48, 52, 49, 0, 0, 4, 1, rfl, rfl, rfl, rfl, rfl, rfl⟩) .nil⟩
  have harray : ValueText (fun _ => none) (ascii "[1, \"\\u0041\"]")
      (.array [.int 1, .string (ascii "A")]) :=
    .array (.cons isSpace_nil (.number (.int 1 (by decide))) isSpace_nil
      (.last hspace (.string hstring) isSpace_nil))
  refine (parse_documentText ?_).1
  exact ⟨[32], ascii "\x7b\"on\": [1, \"\\u0041\"]\x7d", [10], rfl, hspace,
    .object (.last (.mk isSpace_nil hname isSpace_nil hspace harray isSpace_nil)),
    by simp [IsSpace]⟩

end Json.Reader
