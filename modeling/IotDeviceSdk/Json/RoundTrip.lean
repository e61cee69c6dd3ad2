import IotDeviceSdk.Json.FastWriter
import IotDeviceSdk.Json.Reader.Documents

/-!
# Writing and reading back

What the fast writer writes of a well-formed value is a JSON text, and the reader makes of it the
value again, up to the type of its integers, what is not visible of its strings, and the precision
with which numbers are written: see `parse_write_reread`.
-/

namespace Json

open CString Text

/-! ### Strings -/

/-- The escape of a control character stands for the character. -/
theorem charText_control {n : ℕ} (hn : n < 32) :
  CharText (ascii "\\u00" ++ [upperHexChar (n / 16), upperHexChar (n % 16)]) [UInt8.ofNat n]
  := by
  have hdigit : ∀ d < 16, Text.hexDigit (upperHexChar d) = some d := by
    decide
  have hchar : ∀ n < 32, (Char.ofNat n).toNat = n
      ∧ String.utf8EncodeChar (Char.ofNat n) = [UInt8.ofNat n] := by
    decide
  obtain ⟨hnat, hutf8⟩ := hchar n hn
  rw [← hutf8]
  apply CharText.unicode (Char.ofNat n) [48, 48, upperHexChar (n / 16), upperHexChar (n % 16)]
  refine ⟨_, _, _, _, 0, 0, n / 16, n % 16, rfl, rfl, rfl, ?_, ?_, ?_⟩
  · apply hdigit
    omega
  · apply hdigit
    omega
  · omega

/-- The text of a character in a quoted string stands for the character. -/
theorem charText_escape {c : UInt8} (hc : c ≠ 0) :
  CharText (escape c) [c]
  := by
  by_cases hquote : c = 34
  · subst hquote
    apply CharText.quote
  by_cases hbackslash : c = 92
  · subst hbackslash
    apply CharText.backslash
  by_cases hbackspace : c = 8
  · subst hbackspace
    apply CharText.backspace
  by_cases hformFeed : c = 12
  · subst hformFeed
    apply CharText.formFeed
  by_cases hlineFeed : c = 10
  · subst hlineFeed
    apply CharText.lineFeed
  by_cases hreturn : c = 13
  · subst hreturn
    apply CharText.carriageReturn
  by_cases htab : c = 9
  · subst htab
    apply CharText.tab
  rw [escape, if_neg hquote, if_neg hbackslash, if_neg hbackspace, if_neg hformFeed,
    if_neg hlineFeed, if_neg hreturn, if_neg htab]
  split
  · next hcontrol =>
    have hlt : c.toNat < 32 := by
      simp only [isControlCharacter, Bool.and_eq_true, decide_eq_true_eq, UInt8.le_iff_toNat_le,
        UInt8.reduceToNat] at hcontrol
      omega
    have htext := charText_control hlt
    rw [UInt8.ofNat_toNat] at htext
    apply htext
  · next hcontrol =>
    apply CharText.plain c _ hquote hbackslash
    have hpos : c.toNat ≠ 0 := fun h => hc (UInt8.toNat_inj.mp h)
    simp only [isControlCharacter, Bool.and_eq_true, decide_eq_true_eq, UInt8.le_iff_toNat_le,
      UInt8.lt_iff_toNat_lt, UInt8.reduceToNat] at hcontrol
    simp only [UInt8.le_iff_toNat_le, UInt8.reduceToNat]
    omega

/-- The texts of the characters of a string, one after another. -/
theorem charsText_flatMap {s : List UInt8} (hs : 0 ∉ s) :
  CharsText (s.flatMap escape) s
  := by
  induction s with
  | nil => apply CharsText.nil
  | cons c s ih =>
    rw [List.flatMap_cons]
    apply CharsText.cons (t := [c])
    · apply charText_escape
      rintro rfl
      apply hs List.mem_cons_self
    · apply ih
      intro h
      apply hs (List.mem_cons_of_mem c h)

/-- A character that is written as it is. -/
theorem escape_eq_self {c : UInt8} (hspecial : c ∉ ascii "\"\\\x08\x0c\n\r\t")
    (hcontrol : isControlCharacter c = false) :
  escape c = [c]
  := by
  have hne : ∀ d ∈ ascii "\"\\\x08\x0c\n\r\t", c ≠ d := by
    rintro d hd rfl
    apply hspecial hd
  rw [escape, if_neg (hne 34 (by decide)), if_neg (hne 92 (by decide)), if_neg (hne 8 (by decide)),
    if_neg (hne 12 (by decide)), if_neg (hne 10 (by decide)), if_neg (hne 13 (by decide)),
    if_neg (hne 9 (by decide)), if_neg (by rw [hcontrol]; decide)]

/-- The short way of `valueToQuotedString` agrees with the long one. -/
theorem valueToQuotedString_eq (value : List UInt8) :
  valueToQuotedString value = 34 :: (cstr value).flatMap escape ++ [34]
  := by
  rw [valueToQuotedString]
  split
  · next h =>
    rw [Bool.and_eq_true, Bool.not_eq_true', Bool.not_eq_true', containsControlCharacter,
      List.any_eq_false, List.any_eq_false] at h
    obtain ⟨hspecial, hcontrol⟩ := h
    have hescape : ∀ c ∈ cstr value, escape c = [c] := by
      intro c hc
      apply escape_eq_self
      · simpa using hspecial c hc
      · simpa using hcontrol c hc
    rw [List.flatMap_congr hescape, List.flatMap_singleton']
    rfl
  · rfl

/-- What is written of a string is the text of its C string. -/
theorem stringText_valueToQuotedString (value : List UInt8) :
  StringText (valueToQuotedString value) (cstr value)
  := by
  rw [valueToQuotedString_eq]
  exact ⟨_, rfl, charsText_flatMap (Members.zero_notMem_cstr value)⟩

/-! ### Values -/

namespace Value

mutual

/-- The numbers in a value that are not integers. -/
def reals : Value → List Double
  | .real r => [r]
  | .array items => realsOfItems items
  | .object members => realsOfMembers members
  | _ => []

def realsOfItems : List Value → List Double
  | [] => []
  | value :: items => reals value ++ realsOfItems items

def realsOfMembers : List (List UInt8 × Value) → List Double
  | [] => []
  | (_, value) :: members => reals value ++ realsOfMembers members

end

mutual

/-- What is made of a value when it is written and read: an integer is of type `int` if it fits
that type and of type `uint` otherwise, a string ends before its first NUL byte, and `double` says
what is made of a `double`. -/
def reread (double : Double → Double) : Value → Value
  | .null => .null
  | .int n => if n.toInt ≤ 2147483647 then .int n else .uint n.toUInt64
  | .uint n => if n.toNat ≤ 2147483647 then .int n.toInt64 else .uint n
  | .real r => .real (double r)
  | .string s => .string (cstr s)
  | .bool b => .bool b
  | .array items => .array (rereadItems double items)
  | .object members => .object (rereadMembers double members)

def rereadItems (double : Double → Double) : List Value → List Value
  | [] => []
  | value :: items => reread double value :: rereadItems double items

def rereadMembers (double : Double → Double) :
    List (List UInt8 × Value) → List (List UInt8 × Value)
  | [] => []
  | (name, value) :: members => (name, reread double value) :: rereadMembers double members

end

theorem fst_rereadMembers (double : Double → Double) (members : Members) :
  (rereadMembers double members).map Prod.fst = members.map Prod.fst
  := by
  induction members with
  | nil => rfl
  | cons m members ih =>
    rw [rereadMembers, List.map_cons, List.map_cons, ih]

/-- The members stay in the order of their keys. -/
theorem sorted_rereadMembers
    (double : Double → Double) {members : Members} (h : members.Sorted) :
  Members.Sorted (rereadMembers double members)
  := by
  obtain ⟨hkeys, hsorted⟩ := h
  have hfst := fst_rereadMembers double members
  constructor
  · intro m hm
    have hmem : m.1 ∈ members.map Prod.fst := by
      rw [← hfst]
      apply List.mem_map_of_mem hm
    obtain ⟨n, hn, heq⟩ := List.mem_map.mp hmem
    rw [← heq]
    apply hkeys n hn
  · rw [← List.pairwise_map (f := Prod.fst) (R := (· < ·)), hfst, List.pairwise_map]
    apply hsorted

end Value

/-! ### The texts that are written -/

theorem FastWriter.writeItems_cons
    {sprintf : Double → List UInt8} {value : Value} {items : List Value} (h : items ≠ []) :
  writeItems sprintf (value :: items)
    = writeValue sprintf value ++ ascii "," ++ writeItems sprintf items
  := by
  cases items with
  | nil => contradiction
  | cons => rfl

theorem FastWriter.writeMembers_cons
    {sprintf : Double → List UInt8} {name : List UInt8} {value : Value}
    {members : List (List UInt8 × Value)} (h : members ≠ []) :
  writeMembers sprintf ((name, value) :: members)
    = valueToQuotedString name ++ ascii ":" ++ writeValue sprintf value ++ ascii ","
      ++ writeMembers sprintf members
  := by
  cases members with
  | nil => contradiction
  | cons => rfl

section

variable {sprintf : Double → List UInt8} {sscanf : List UInt8 → Option Double}
  {double : Double → Double}

/-- The text that is written of a `double` is that of a number, which is read as the result of
`double`. -/
def Reads (sprintf : Double → List UInt8) (sscanf : List UInt8 → Option Double)
    (double : Double → Double) (r : Double) : Prop :=
  IsReal (valueToStringDouble sprintf r)
    ∧ sscanf (valueToStringDouble sprintf r) = some (double r)

theorem toNat_toUInt64 {n : Int64} (h : 0 ≤ n.toInt) :
  (n.toUInt64.toNat : ℤ) = n.toInt
  := by
  rw [Int64.toNat_toUInt64_of_le]
  · apply Int.toNat_of_nonneg h
  · rw [Int64.le_iff_toInt_le, Int64.toInt_zero]
    apply h

theorem toInt_toInt64 {n : UInt64} (h : n.toNat ≤ 2147483647) :
  n.toInt64.toInt = n.toNat
  := by
  rw [← UInt64.ofNat_toNat (x := n), UInt64.toInt64_ofNat', Int64.toInt_ofNat_of_lt]
  · simp
  · omega

/-- The text of an integer, for each of the two types. -/
theorem numberText_int (n : Int64) :
  NumberText sscanf (Decimal.text n.toInt) (Value.reread double (.int n))
  := by
  rw [Value.reread]
  split
  · next h => apply NumberText.int n h
  · next h =>
    have hnat := toNat_toUInt64 (n := n) (by omega)
    rw [← hnat]
    apply NumberText.uint
    omega

theorem numberText_uint (n : UInt64) :
  NumberText sscanf (Decimal.text n.toNat) (Value.reread double (.uint n))
  := by
  rw [Value.reread]
  split
  · next h =>
    have hint := toInt_toInt64 (n := n) (by omega)
    rw [← hint]
    apply NumberText.int
    omega
  · next h => apply NumberText.uint n (by omega)

/-- The text of a member that is written. -/
theorem memberText_write
    {name s : List UInt8} (hname : 0 ∉ name) {v : Value} (h : ValueText sscanf s v) :
  MemberText sscanf (valueToQuotedString name ++ ascii ":" ++ s) (name, v)
  := by
  have hkey := stringText_valueToQuotedString name
  rw [cstr_eq_self hname] at hkey
  have hmember := MemberText.mk Reader.isSpace_nil hkey Reader.isSpace_nil Reader.isSpace_nil h
    Reader.isSpace_nil
  simp only [List.nil_append, List.append_nil] at hmember
  apply hmember

open FastWriter in
mutual

/-- What is written of a well-formed value is the text of what `reread` says. -/
theorem valueText_writeValue
    {v : Value} (hv : v.WellFormed) (hreals : ∀ r ∈ v.reals, Reads sprintf sscanf double r) :
  ValueText sscanf (writeValue sprintf v) (v.reread double)
  := by
  cases v with
  | null => apply ValueText.null
  | int n => apply ValueText.number (numberText_int n)
  | uint n => apply ValueText.number (numberText_uint n)
  | real r =>
    obtain ⟨hreal, hread⟩ := hreals r (by simp [Value.reals])
    apply ValueText.number (NumberText.real _ _ hreal hread)
  | string s =>
    have htext : ValueText sscanf _ _ := ValueText.string (stringText_valueToQuotedString s)
    rw [cstr_eq_self (Members.zero_notMem_cstr s)] at htext
    apply htext
  | bool b =>
    cases b with
    | true => apply ValueText.true
    | false => apply ValueText.false
  | array items =>
    cases hv with
    | array hitems =>
      by_cases hnil : items = []
      · subst hnil
        apply ValueText.emptyArray Reader.isSpace_nil
      · apply ValueText.array
        apply itemsText_writeItems hnil hitems
        intro r hr
        apply hreals r hr
  | object members =>
    cases hv with
    | object hsorted hmembers =>
      by_cases hnil : members = []
      · subst hnil
        apply ValueText.emptyObject Reader.isSpace_nil
      · have hobject : Value.reread double (.object members)
            = objectOf (Value.rereadMembers double members) := by
          have henter : Members.enter [] (Value.rereadMembers double members)
              = [] ++ Value.rereadMembers double members := by
            apply Members.enter_append
            apply Value.sorted_rereadMembers double hsorted
          rw [Value.reread, objectOf, henter, List.nil_append]
        rw [hobject]
        apply ValueText.object
        apply membersText_writeMembers hnil hsorted.keys hmembers
        intro r hr
        apply hreals r hr

/-- What is written of items is their text. -/
theorem itemsText_writeItems
    {items : List Value} (hne : items ≠ []) (hitems : ∀ v ∈ items, v.WellFormed)
    (hreals : ∀ r ∈ Value.realsOfItems items, Reads sprintf sscanf double r) :
  ItemsText sscanf (writeItems sprintf items) (Value.rereadItems double items)
  := by
  match items with
  | [] => contradiction
  | [value] =>
    have hvalue := valueText_writeValue (hitems value List.mem_cons_self)
      (fun r hr => hreals r (List.mem_append_left _ hr))
    rw [writeItems, ← List.append_nil (writeValue sprintf value)]
    apply ItemsText.last Reader.isSpace_nil hvalue Reader.isSpace_nil
  | value :: value' :: items =>
    have hvalue := valueText_writeValue (hitems value List.mem_cons_self)
      (fun r hr => hreals r (List.mem_append_left _ hr))
    have hrest := itemsText_writeItems (List.cons_ne_nil value' items)
      (fun v hv => hitems v (List.mem_cons_of_mem _ hv))
      (fun r hr => hreals r (List.mem_append_right _ hr))
    rw [writeItems_cons (List.cons_ne_nil _ _), ← List.append_nil (writeValue sprintf value),
      List.append_assoc]
    apply ItemsText.cons Reader.isSpace_nil hvalue Reader.isSpace_nil hrest

/-- What is written of members is their text. -/
theorem membersText_writeMembers
    {members : List (List UInt8 × Value)} (hne : members ≠ []) (hkeys : ∀ m ∈ members, 0 ∉ m.1)
    (hmembers : ∀ m ∈ members, m.2.WellFormed)
    (hreals : ∀ r ∈ Value.realsOfMembers members, Reads sprintf sscanf double r) :
  MembersText sscanf (writeMembers sprintf members) (Value.rereadMembers double members)
  := by
  match members with
  | [] => contradiction
  | [(name, value)] =>
    have hvalue := valueText_writeValue (hmembers (name, value) List.mem_cons_self)
      (fun r hr => hreals r (List.mem_append_left _ hr))
    rw [writeMembers]
    apply MembersText.last (memberText_write (hkeys (name, value) List.mem_cons_self) hvalue)
  | (name, value) :: m :: members =>
    have hvalue := valueText_writeValue (hmembers (name, value) List.mem_cons_self)
      (fun r hr => hreals r (List.mem_append_left _ hr))
    have hrest := membersText_writeMembers (List.cons_ne_nil m members)
      (fun m hm => hkeys m (List.mem_cons_of_mem _ hm))
      (fun m hm => hmembers m (List.mem_cons_of_mem _ hm))
      (fun r hr => hreals r (List.mem_append_right _ hr))
    have hmember := memberText_write (hkeys (name, value) List.mem_cons_self) hvalue
    rw [writeMembers_cons (List.cons_ne_nil _ _), List.append_assoc]
    apply MembersText.cons hmember hrest

end

/-- What the fast writer writes of a well-formed value is a JSON text. -/
theorem documentText_write
    {v : Value} (hv : v.WellFormed) (hreals : ∀ r ∈ v.reals, Reads sprintf sscanf double r) :
  DocumentText sscanf (FastWriter.write sprintf v) (v.reread double)
  := by
  refine ⟨[], _, [10], rfl, Reader.isSpace_nil, valueText_writeValue hv hreals, ?_⟩
  intro c hc
  rw [List.mem_singleton.mp hc]
  decide

/-- What is written of a well-formed value is read. -/
theorem parse_write
    {setup : Reader.Setup} {v : Value} (hv : v.WellFormed)
    (hreals : ∀ r ∈ v.reals, Reads sprintf setup.sscanf double r) :
  Reader.parse setup (FastWriter.write sprintf v) = (some (v.reread double), [])
  := Reader.parse_of_documentText (documentText_write hv hreals)

end

/-! ### Normal texts -/

mutual

/-- Without a `double`, the text does not tell a value from what is read of it. -/
theorem writeValue_reread
    (sprintf : Double → List UInt8) (double : Double → Double) {v : Value} (h : v.reals = []) :
  FastWriter.writeValue sprintf (v.reread double) = FastWriter.writeValue sprintf v
  := by
  cases v with
  | null | bool => rfl
  | int n =>
    rw [Value.reread]
    split
    · rfl
    · rw [FastWriter.writeValue, FastWriter.writeValue, toNat_toUInt64 (by omega)]
  | uint n =>
    rw [Value.reread]
    split
    · next hn => rw [FastWriter.writeValue, FastWriter.writeValue, toInt_toInt64 hn]
    · rfl
  | real r => contradiction
  | string s =>
    rw [Value.reread, FastWriter.writeValue, FastWriter.writeValue, valueToQuotedString_eq,
      valueToQuotedString_eq, cstr_eq_self (Members.zero_notMem_cstr s)]
  | array items =>
    rw [Value.reread, FastWriter.writeValue, FastWriter.writeValue,
      writeItems_rereadItems sprintf double h]
  | object members =>
    rw [Value.reread, FastWriter.writeValue, FastWriter.writeValue,
      writeMembers_rereadMembers sprintf double h]

theorem writeItems_rereadItems
    (sprintf : Double → List UInt8) (double : Double → Double) {items : List Value}
    (h : Value.realsOfItems items = []) :
  FastWriter.writeItems sprintf (Value.rereadItems double items)
    = FastWriter.writeItems sprintf items
  := by
  match items with
  | [] => rfl
  | [value] =>
    obtain ⟨hvalue, -⟩ := List.append_eq_nil_iff.mp h
    apply writeValue_reread sprintf double hvalue
  | value :: value' :: items =>
    obtain ⟨hvalue, hrest⟩ := List.append_eq_nil_iff.mp h
    rw [Value.rereadItems, FastWriter.writeItems_cons, FastWriter.writeItems_cons,
      writeItems_rereadItems sprintf double hrest, writeValue_reread sprintf double hvalue]
    · apply List.cons_ne_nil
    · apply List.cons_ne_nil

theorem writeMembers_rereadMembers
    (sprintf : Double → List UInt8) (double : Double → Double)
    {members : List (List UInt8 × Value)} (h : Value.realsOfMembers members = []) :
  FastWriter.writeMembers sprintf (Value.rereadMembers double members)
    = FastWriter.writeMembers sprintf members
  := by
  match members with
  | [] => rfl
  | [(name, value)] =>
    obtain ⟨hvalue, -⟩ := List.append_eq_nil_iff.mp h
    rw [Value.rereadMembers, Value.rereadMembers, FastWriter.writeMembers, FastWriter.writeMembers,
      writeValue_reread sprintf double hvalue]
  | (name, value) :: (name', value') :: members =>
    obtain ⟨hvalue, hrest⟩ := List.append_eq_nil_iff.mp h
    rw [Value.rereadMembers, FastWriter.writeMembers_cons, FastWriter.writeMembers_cons,
      writeMembers_rereadMembers sprintf double hrest, writeValue_reread sprintf double hvalue]
    · apply List.cons_ne_nil
    · apply List.cons_ne_nil

end

section

variable {sprintf : Double → List UInt8} {double : Double → Double}

/-- What the fast writer writes of a well-formed value is read without an error, and as the value
that `reread` says; if there is no `double` in it, then that value is written as the same text. -/
theorem parse_write_reread
    (setup : Reader.Setup) {v : Value} (hv : v.WellFormed)
    (hreals : ∀ r ∈ v.reals, Reads sprintf setup.sscanf double r) :
  Reader.parse setup (FastWriter.write sprintf v) = (some (v.reread double), [])
    ∧ (v.reals = [] →
      FastWriter.write sprintf (v.reread double) = FastWriter.write sprintf v)
  := by
  use parse_write hv hreals
  intro hnil
  rw [FastWriter.write, writeValue_reread sprintf double hnil, FastWriter.write]

/-- An object with a `double`, an integer that changes its type, and a string with escapes. -/
theorem parse_write_reread_object
  : let v := Value.object [(ascii "a", .array [.real (.finite 1.5), .int 3000000000]),
      (ascii "b", .string (ascii "\"\n"))]
    Reader.parse ⟨fun _ => some (.finite 1.5), 0⟩
        (FastWriter.write (fun _ => ascii "1.500000000000000") v) = (some (v.reread id), [])
      ∧ (v.reals = [] → FastWriter.write (fun _ => ascii "1.500000000000000") (v.reread id)
        = FastWriter.write (fun _ => ascii "1.500000000000000") v)
  := by
  intro v
  have hwell : v.WellFormed := by
    apply Value.WellFormed.object
    · exact ⟨by decide, by decide⟩
    · simp [Value.WellFormed.array, Value.WellFormed.real, Value.WellFormed.int,
        Value.WellFormed.string]
  have hreals : ∀ r ∈ v.reals,
      Reads (fun _ => ascii "1.500000000000000") (fun _ => some (.finite 1.5)) id r := by
    intro r hr
    obtain rfl : r = .finite 1.5 := List.mem_singleton.mp hr
    have hdigits : IsDigits (ascii "50") := by
      constructor
      · apply List.cons_ne_nil
      · intro c hc
        rcases List.mem_pair.mp hc with rfl | rfl
        · decide
        · decide
    exact ⟨⟨[], 1, ascii ".50", [], by decide +kernel, Or.inl rfl,
      Or.inr ⟨ascii "50", rfl, hdigits⟩, Or.inl rfl, List.cons_ne_nil _ _⟩, rfl⟩
  apply parse_write_reread ⟨fun _ => some (.finite 1.5), 0⟩ hwell hreals

end

end Json
