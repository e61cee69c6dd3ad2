import IotDeviceSdk.Json.Value

/-!
# The reader

`Json::Reader`, which reads a value from a document.  A location in the document is what is left
of the document from there on.  What `sscanf` reads from a text under the format `%lf`, and the
byte that stands in memory after the document, are parameters.

The depth of nesting and the loops are bounded by numbers, which the length of what is left of the
document gives.  They suffice: a loop that goes on after that yields `none`, or fails without an
error, and neither happens, see `parse_outcome`.
-/

namespace Json

open CString

namespace Reader

/-- `TokenType`. -/
inductive TokenType where
  | endOfStream | objectBegin | objectEnd | arrayBegin | arrayEnd | string | number | true | false
  | null | arraySeparator | memberSeparator | comment | error
  deriving DecidableEq

/-- `Token`: the characters from `start_` to `end_`, and what follows. -/
structure Token where
  type : TokenType
  text : List UInt8
  rest : List UInt8

/-- `ErrorInfo`. -/
structure ErrorInfo where
  token : Token
  message : List UInt8
  extra : Option (List UInt8)

/-- What a reader is given besides the document. -/
structure Setup where
  sscanf : List UInt8 → Option Double
  beyond : UInt8

/-! ### Tokens -/

/-- `getNextChar`. -/
def getNextChar : List UInt8 → UInt8 × List UInt8
  | [] => (0, [])
  | c :: current => (c, current)

/-- The characters that `skipSpaces` skips. -/
def isSpace (c : UInt8) : Bool :=
  c = 32 || c = 9 || c = 13 || c = 10

/-- `skipSpaces`. -/
def skipSpaces (current : List UInt8) : List UInt8 :=
  current.dropWhile isSpace

/-- `match`, with what is left after it. -/
def matchPattern (pattern current : List UInt8) : Bool × List UInt8 :=
  if pattern.isPrefixOf current then (true, current.drop pattern.length) else (false, current)

/-- The loop of `readCStyleComment`. -/
def skipCStyleComment (beyond : UInt8) : List UInt8 → List UInt8
  | [] => []
  | c :: current =>
    if c = 42 ∧ current.headD beyond = 47 then current else skipCStyleComment beyond current

/-- `readCStyleComment`. -/
def readCStyleComment (beyond : UInt8) (current : List UInt8) : Bool × List UInt8 :=
  let (c, current) := getNextChar (skipCStyleComment beyond current)
  (c = 47, current)

/-- `readCppStyleComment`. -/
def readCppStyleComment : List UInt8 → List UInt8
  | [] => []
  | c :: current => if c = 13 ∨ c = 10 then current else readCppStyleComment current

/-- `readComment`. -/
def readComment (beyond : UInt8) (current : List UInt8) : Bool × List UInt8 :=
  let (c, current) := getNextChar current
  if c = 42 then readCStyleComment beyond current
  else if c = 47 then (true, readCppStyleComment current)
  else (false, current)

/-- The characters that `readNumber` reads. -/
def isNumberChar (c : UInt8) : Bool :=
  (48 ≤ c && c ≤ 57) || c = 46 || c = 101 || c = 69 || c = 43 || c = 45

/-- `readNumber`. -/
def readNumber (current : List UInt8) : List UInt8 :=
  current.dropWhile isNumberChar

/-- `readString`, which reads up to the closing quote. -/
def readString : List UInt8 → Bool × List UInt8
  | [] => (false, [])
  | [c] => (c = 34, [])
  | c :: d :: current =>
    if c = 92 then readString current
    else if c = 34 then (true, d :: current)
    else readString (d :: current)

/-- The type of the token that begins with `c`, and what is left after it. -/
def readTokenFrom (beyond c : UInt8) (current : List UInt8) : TokenType × List UInt8 :=
  let checked (type : TokenType) (r : Bool × List UInt8) : TokenType × List UInt8 :=
    (if r.1 then type else .error, r.2)
  if c = 123 then (.objectBegin, current)
  else if c = 125 then (.objectEnd, current)
  else if c = 91 then (.arrayBegin, current)
  else if c = 93 then (.arrayEnd, current)
  else if c = 34 then checked .string (readString current)
  else if c = 47 then checked .comment (readComment beyond current)
  else if (48 ≤ c ∧ c ≤ 57) ∨ c = 45 then (.number, readNumber current)
  else if c = 116 then checked .true (matchPattern (ascii "rue") current)
  else if c = 102 then checked .false (matchPattern (ascii "alse") current)
  else if c = 110 then checked .null (matchPattern (ascii "ull") current)
  else if c = 44 then (.arraySeparator, current)
  else if c = 58 then (.memberSeparator, current)
  else if c = 0 then (.endOfStream, current)
  else (.error, current)

/-- `readToken`. -/
def readToken (beyond : UInt8) (current : List UInt8) : Token :=
  let start := skipSpaces current
  let (c, current) := getNextChar start
  let (type, current) := readTokenFrom beyond c current
  ⟨type, start.take (start.length - current.length), current⟩

/-- The loops that read tokens until one is not a comment, for at most `fuel` comments. -/
def readTokenPastComments (beyond : UInt8) : ℕ → List UInt8 → Token
  | 0, current => readToken beyond current
  | fuel + 1, current =>
    let token := readToken beyond current
    if token.type = .comment then readTokenPastComments beyond fuel token.rest else token

/-- `skipCommentTokens`, which allows comments. -/
def skipCommentTokens (beyond : UInt8) (current : List UInt8) : Token :=
  readTokenPastComments beyond current.length current

/-! ### Strings -/

/-- The value of a hexadecimal digit. -/
def hexDigit (c : UInt8) : Option UInt32 :=
  if 48 ≤ c ∧ c ≤ 57 then some (c - 48).toUInt32
  else if 97 ≤ c ∧ c ≤ 102 then some (c - 97 + 10).toUInt32
  else if 65 ≤ c ∧ c ≤ 70 then some (c - 65 + 10).toUInt32
  else none

/-- A message, and what is left of the characters of the string where it is issued. -/
abbrev Complaint := List UInt8 × List UInt8

/-- The loop of `decodeUnicodeEscapeSequence`. -/
def readHexDigits : ℕ → UInt32 → List UInt8 → Except Complaint (UInt32 × List UInt8)
  | 0, unicode, current => .ok (unicode, current)
  | n + 1, unicode, current =>
    let (c, current) := getNextChar current
    match hexDigit c with
    | some d => readHexDigits n (unicode * 16 + d) current
    | none =>
      .error (ascii "Bad unicode escape sequence in string: hexadecimal digit expected.", current)

/-- `decodeUnicodeEscapeSequence`. -/
def decodeUnicodeEscapeSequence (current : List UInt8) :
    Except Complaint (UInt32 × List UInt8) :=
  if current.length < 4 then
    .error (ascii "Bad unicode escape sequence in string: four digits expected.", current)
  else
    readHexDigits 4 0 current

/-- The message about a surrogate that is not followed by another one. -/
def expectingAnother : List UInt8 :=
  ascii "expecting another \\u token to begin the second half of "
    ++ ascii "a unicode surrogate pair"

/-- `decodeUnicodeCodePoint`. -/
def decodeUnicodeCodePoint (current : List UInt8) : Except Complaint (UInt32 × List UInt8) := do
  let (unicode, current) ← decodeUnicodeEscapeSequence current
  if 0xD800 ≤ unicode ∧ unicode ≤ 0xDBFF then
    if current.length < 6 then
      .error (ascii "additional six characters expected to parse unicode surrogate pair.", current)
    else if current.head? ≠ some 92 then
      .error (expectingAnother, current.drop 1)
    else if (current.drop 1).head? ≠ some 117 then
      .error (expectingAnother, current.drop 2)
    else do
      let (surrogatePair, current) ← decodeUnicodeEscapeSequence (current.drop 2)
      return ((0x10000 : UInt32) + ((unicode &&& 0x3FF) <<< 10) + (surrogatePair &&& 0x3FF),
        current)
  else
    return (unicode, current)

/-- `codePointToUTF8`. -/
def codePointToUTF8 (cp : UInt32) : List UInt8 :=
  if cp ≤ 0x7f then [cp.toUInt8]
  else if cp ≤ 0x7FF then
    [((cp >>> 6) &&& 0x1f).toUInt8 ||| 0xC0, (cp &&& 0x3f).toUInt8 ||| 0x80]
  else if cp ≤ 0xFFFF then
    [((cp >>> 12) &&& 0xf).toUInt8 ||| 0xE0, ((cp >>> 6) &&& 0x3f).toUInt8 ||| 0x80,
      (cp &&& 0x3f).toUInt8 ||| 0x80]
  else if cp ≤ 0x10FFFF then
    [((cp >>> 18) &&& 0x7).toUInt8 ||| 0xF0, ((cp >>> 12) &&& 0x3f).toUInt8 ||| 0x80,
      ((cp >>> 6) &&& 0x3f).toUInt8 ||| 0x80, (cp &&& 0x3f).toUInt8 ||| 0x80]
  else []

/-- The character that an escape other than `\u` stands for. -/
def unescape (c : UInt8) : Option UInt8 :=
  if c = 34 then some 34
  else if c = 47 then some 47
  else if c = 92 then some 92
  else if c = 98 then some 8
  else if c = 102 then some 12
  else if c = 110 then some 10
  else if c = 114 then some 13
  else if c = 116 then some 9
  else none

/-- What an escape after `\` stands for, and what is left after it. -/
def decodeEscape : List UInt8 → Except Complaint (List UInt8 × List UInt8)
  | [] => .error (ascii "Empty escape sequence in string", [])
  | c :: current =>
    if c = 117 then do
      let (unicode, current) ← decodeUnicodeCodePoint current
      return (codePointToUTF8 unicode, current)
    else
      match unescape c with
      | some d => .ok ([d], current)
      | none => .error (ascii "Bad escape sequence in string", current)

/-- The loop of `decodeString`; `none` when it goes on after `fuel` characters and escapes. -/
def decodeChars : ℕ → List UInt8 → List UInt8 → Option (Except Complaint (List UInt8))
  | _, [], decoded => some (.ok decoded)
  | 0, _ :: _, _ => none
  | fuel + 1, c :: current, decoded =>
    if c = 34 then some (.ok decoded)
    else if c = 92 then
      match decodeEscape current with
      | .error complaint => some (.error complaint)
      | .ok (chars, current) => decodeChars fuel current (decoded ++ chars)
    else
      decodeChars fuel current (decoded ++ [c])

/-- `decodeString`. -/
def decodeString (token : Token) : Except ErrorInfo (List UInt8) :=
  let chars := token.text.tail.dropLast
  match (decodeChars chars.length chars []).getD (.ok []) with
  | .ok decoded => .ok decoded
  | .error (message, current) =>
    .error ⟨token, message, some (current ++ token.text.drop (token.text.length - 1) ++ token.rest)⟩

/-! ### Numbers -/

/-- The text of a token in a message about it. -/
def notANumber (token : Token) : ErrorInfo :=
  ⟨token, ascii "'" ++ token.text ++ ascii "' is not a number.", none⟩

/-- `decodeDouble`. -/
def decodeDouble (setup : Setup) (token : Token) : Except ErrorInfo Value :=
  match setup.sscanf token.text with
  | some value => .ok (.real value)
  | none => .error (notANumber token)

/-- How the loop of `decodeNumber` over the digits of an integer ends. -/
inductive Digits where
  | integer (value : UInt64)
  | double
  | notANumber

/-- The loop of `decodeNumber` over the digits of an integer. -/
def decodeDigits (threshold : UInt64) (lastDigitThreshold : UInt32) :
    UInt64 → List UInt8 → Digits
  | value, [] => .integer value
  | value, c :: current =>
    if c < 48 ∨ 57 < c then .notANumber
    else
      let digit := (c - 48).toUInt32
      if threshold ≤ value ∧ (current ≠ [] ∨ lastDigitThreshold < digit) then .double
      else decodeDigits threshold lastDigitThreshold (value * 10 + digit.toUInt64) current

/-- Whether `decodeNumber` takes the text for that of a `double`. -/
def isDouble (text : List UInt8) : Bool :=
  text.any (fun c => c = 46 || c = 101 || c = 69 || c = 43) || text.tail.any (· = 45)

/-- `decodeNumber`. -/
def decodeNumber (setup : Setup) (token : Token) : Except ErrorInfo Value :=
  if isDouble token.text then decodeDouble setup token
  else
    let isNegative := token.text.head? == some 45
    let digits := if isNegative then token.text.tail else token.text
    let maxIntegerValue : UInt64 := if isNegative then 9223372036854775808 else 18446744073709551615
    match decodeDigits (maxIntegerValue / 10) (maxIntegerValue % 10).toUInt32 0 digits with
    | .notANumber => .error (notANumber token)
    | .double => decodeDouble setup token
    | .integer value =>
      if isNegative then .ok (.int (-value.toInt64))
      else if value ≤ 2147483647 then .ok (.int value.toInt64)
      else .ok (.uint value)

/-! ### Values -/

/-- What is left of the document, and the errors so far. -/
structure State where
  current : List UInt8
  errors : List ErrorInfo

/-- `addError`. -/
def addError (error : ErrorInfo) (s : State) : State :=
  { s with errors := s.errors ++ [error] }

/-- The loop of `recoverFromError`; `none` when it goes on after `fuel` tokens. -/
def skipUntil (beyond : UInt8) (type : TokenType) : ℕ → List UInt8 → Option (List UInt8)
  | 0, _ => none
  | fuel + 1, current =>
    let skip := readToken beyond current
    if skip.type = type ∨ skip.type = .endOfStream then some skip.rest
    else skipUntil beyond type fuel skip.rest

/-- `recoverFromError`. -/
def recoverFromError (setup : Setup) (type : TokenType) (s : State) : State :=
  { s with current := (skipUntil setup.beyond type (s.current.length + 1) s.current).getD [] }

/-- `addErrorAndRecover`. -/
def addErrorAndRecover (setup : Setup) (message : String) (token : Token) (type : TokenType)
    (errors : List ErrorInfo) : State :=
  recoverFromError setup type (addError ⟨token, ascii message, none⟩ ⟨token.rest, errors⟩)

section

variable (setup : Setup) (readValue : State → Option Value × State)

/-- The loop of `readObject`, for at most `fuel` members; `name` is the name of the last one. -/
def readMembers : ℕ → Members → List UInt8 → State → Option Value × State
  | 0, _, _, s => (none, s)
  | fuel + 1, members, name, s =>
    let tokenName := skipCommentTokens setup.beyond s.current
    if tokenName.type = .objectEnd ∧ name = [] then
      (some (.object members), { s with current := tokenName.rest })
    else if tokenName.type ≠ .string then
      (none, addErrorAndRecover setup "Missing '\x7d' or object member name" tokenName .objectEnd
        s.errors)
    else
      match decodeString tokenName with
      | .error error =>
        (none, recoverFromError setup .objectEnd (addError error ⟨tokenName.rest, s.errors⟩))
      | .ok name =>
        let colon := readToken setup.beyond tokenName.rest
        if colon.type ≠ .memberSeparator then
          (none, addErrorAndRecover setup "Missing ':' after object member name" colon .objectEnd
            s.errors)
        else
          match readValue { s with current := colon.rest } with
          | (none, s) => (none, recoverFromError setup .objectEnd s)
          | (some value, s) =>
            let members := Members.insert (cstr name) value members
            let comma := readToken setup.beyond s.current
            if comma.type ≠ .objectEnd ∧ comma.type ≠ .arraySeparator ∧ comma.type ≠ .comment then
              (none, addErrorAndRecover setup "Missing ',' or '\x7d' in object declaration" comma
                .objectEnd s.errors)
            else
              let comma := skipCommentTokens setup.beyond s.current
              let s := { s with current := comma.rest }
              if comma.type = .objectEnd then (some (.object members), s)
              else readMembers fuel members name s

/-- The loop of `readArray`, for at most `fuel` items. -/
def readItems : ℕ → List Value → State → Option Value × State
  | 0, _, s => (none, s)
  | fuel + 1, items, s =>
    match readValue s with
    | (none, s) => (none, recoverFromError setup .arrayEnd s)
    | (some value, s) =>
      let token := skipCommentTokens setup.beyond s.current
      if token.type ≠ .arraySeparator ∧ token.type ≠ .arrayEnd then
        (none, addErrorAndRecover setup "Missing ',' or ']' in array declaration" token .arrayEnd
          s.errors)
      else if token.type = .arrayEnd then
        (some (.array (items ++ [value])), { s with current := token.rest })
      else readItems fuel (items ++ [value]) { s with current := token.rest }

/-- `readArray`. -/
def readArray (s : State) : Option Value × State :=
  let current := skipSpaces s.current
  if current.headD setup.beyond = 93 then
    (some (.array []), { s with current := (readToken setup.beyond current).rest })
  else
    readItems setup readValue (current.length + 1) [] { s with current := current }

/-- `readObject`. -/
def readObject (s : State) : Option Value × State :=
  readMembers setup readValue (s.current.length + 1) [] [] s

end

/-- The value that a number or a string stands for. -/
def accept (decoded : Except ErrorInfo Value) (s : State) : Option Value × State :=
  match decoded with
  | .ok value => (some value, s)
  | .error error => (none, addError error s)

/-- `readValue`, for a nesting of depth `fuel` at most.  The string that is decoded is copied as a C
string. -/
def readValue (setup : Setup) : ℕ → State → Option Value × State
  | 0, s => (none, s)
  | fuel + 1, s =>
    let token := skipCommentTokens setup.beyond s.current
    let s := { s with current := token.rest }
    match token.type with
    | .objectBegin => readObject setup (readValue setup fuel) s
    | .arrayBegin => readArray setup (readValue setup fuel) s
    | .number => accept (decodeNumber setup token) s
    | .string => accept ((decodeString token).map fun decoded => .string (cstr decoded)) s
    | .true => (some (.bool true), s)
    | .false => (some (.bool false), s)
    | .null => (some .null, s)
    | _ => (none, addError ⟨token, ascii "Syntax error: value, object or array expected.", none⟩ s)

/-- `parse`, without the collection of comments: the value if it is successful, and the errors. -/
def parse (setup : Setup) (document : List UInt8) : Option Value × List ErrorInfo :=
  let (value, s) := readValue setup (document.length + 1) ⟨document, []⟩
  (value, s.errors)

end Reader

end Json
