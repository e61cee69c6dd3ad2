import IotDeviceSdk.Baselib.Logging.Basic
import IotDeviceSdk.Foundation.Words
import Mathlib.Data.List.Perm.Basic
import Mathlib.Data.List.Induction
import Mathlib.Order.Defs.LinearOrder

/-!
# What the parameters of `ConfigureLog` do

`GetParamToken` cuts a string at its spaces, see `getParamToken_eq`, and `ConfigureLog` reads
the words one after another.  Only whole words count, and of those that name a level only the
last one: `configured` is the state that `ConfigureLog` leaves.
-/

namespace LogMessage

open CString

/-! ### Positions in a string -/

/-- A position is the same number in `int` and in `size_type`. -/
theorem sizeType_ofNat {n : ℕ} (h : n < 2147483648) :
  sizeType (Int32.ofNat n) = n
  := by
  have hle : (n : ℤ) ≤ Int32.maxValue.toInt := by
    rw [show Int32.maxValue.toInt = 2147483647 by decide]
    omega
  rw [sizeType, Int32.toInt64_ofNat' hle, Int64.toUInt64_ofNat', UInt64.toNat_ofNat_of_lt']
  rw [UInt64.size]
  omega

/-- `npos` is recognised in a variable of type `int`, where it is `-1`. -/
theorem sizeType_ofNat_npos :
  sizeType (Int32.ofNat npos) = npos
  := by decide

theorem findIdx?_eq_none {b : List UInt8} {c : UInt8} (h : c ∉ b) :
  b.findIdx? (· = c) = none
  := by
  rw [List.findIdx?_eq_none_iff]
  intro x hx
  apply decide_eq_false
  rintro rfl
  apply h hx

theorem find_of_notMem (a : List UInt8) {b : List UInt8} {c : UInt8} (h : c ∉ b) :
  find (a ++ b) c a.length = npos
  := by
  rw [find, List.drop_left, findIdx?_eq_none h]

theorem find_of_mem (a : List UInt8) {x : List UInt8} {c : UInt8} (h : c ∉ x) (y : List UInt8) :
  find (a ++ (x ++ c :: y)) c a.length = a.length + x.length
  := by
  have hsome : (x ++ c :: y).findIdx? (· = c) = some x.length := by
    simp [List.findIdx?_append, List.findIdx?_cons, findIdx?_eq_none h]
  rw [find, List.drop_left, hsome]

theorem substr_append (a x y : List UInt8) :
  substr (a ++ (x ++ y)) a.length x.length = some x
  := by
  rw [substr, if_pos (by simp), List.drop_left, List.take_left]

/-! ### Tokens -/

/-- The loop cuts a word off at the next space. -/
theorem getParamTokenFrom_of_space
    {a x y : List UInt8} (hx : 32 ∉ x) (hlen : (a ++ (x ++ 32 :: y)).length < 2147483648)
    (fuel : ℕ) (paramTable : List (List UInt8)) :
  getParamTokenFrom (a ++ (x ++ 32 :: y)) (fuel + 1) (Int32.ofNat a.length) paramTable
    = getParamTokenFrom (a ++ (x ++ [32]) ++ y) fuel (Int32.ofNat (a ++ (x ++ [32])).length)
      (paramTable ++ [x])
  := by
  simp only [List.length_append, List.length_cons] at hlen
  have ha : sizeType (Int32.ofNat a.length) = a.length := sizeType_ofNat (by omega)
  have hpos : sizeType (Int32.ofNat (a.length + x.length)) = a.length + x.length :=
    sizeType_ofNat (by omega)
  have hne : a.length + x.length ≠ npos := by
    rw [npos]
    omega
  have hsub : Int32.ofNat (a.length + x.length) - Int32.ofNat a.length = Int32.ofNat x.length := by
    rw [Int32.ofNat_add, Int32.add_comm, Int32.add_sub_cancel]
  have hnext : Int32.ofNat (a.length + x.length) + 1
      = Int32.ofNat (a ++ (x ++ [32])).length := by
    simp [Int32.ofNat_add, Int32.add_assoc]
  have happend : a ++ (x ++ [32]) ++ y = a ++ (x ++ 32 :: y) := by simp
  rw [getParamTokenFrom, ha, find_of_mem a hx, hpos, if_pos hne, hsub,
    sizeType_ofNat (by omega), substr_append, hnext, happend]
  rfl

/-- The loop ends with the word after the last space. -/
theorem getParamTokenFrom_of_not_space
    {a b : List UInt8} (hb : 32 ∉ b) (hlen : (a ++ b).length < 2147483648)
    (fuel : ℕ) (paramTable : List (List UInt8)) :
  getParamTokenFrom (a ++ b) (fuel + 1) (Int32.ofNat a.length) paramTable
    = some (paramTable ++ [b])
  := by
  have hsub : Int32.ofNat (a ++ b).length - Int32.ofNat a.length = Int32.ofNat b.length := by
    rw [List.length_append, Int32.ofNat_add, Int32.add_comm, Int32.add_sub_cancel]
  have hsubstr : substr (a ++ b) a.length b.length = some b := by
    simpa using substr_append a b []
  rw [List.length_append] at hlen
  have ha : sizeType (Int32.ofNat a.length) = a.length := sizeType_ofNat (by omega)
  rw [getParamTokenFrom, ha, find_of_notMem a hb, sizeType_ofNat_npos, if_neg (not_not.mpr rfl)]
  dsimp only
  rw [hsub, sizeType_ofNat (by omega), hsubstr]
  rfl

/-- What is left of a string is cut at its spaces. -/
theorem getParamTokenFrom_append
    {a b : List UInt8} {fuel : ℕ} (hlen : (a ++ b).length < 2147483648) (hfuel : b.length < fuel)
    (paramTable : List (List UInt8)) :
  getParamTokenFrom (a ++ b) fuel (Int32.ofNat a.length) paramTable
    = some (paramTable ++ b.splitOn 32)
  := by
  induction fuel generalizing a b paramTable with
  | zero => contradiction
  | succ fuel ih =>
    by_cases hmem : 32 ∈ b
    · obtain ⟨x, y, rfl, hx⟩ := List.eq_append_cons_of_mem hmem
      rw [getParamTokenFrom_of_space hx hlen, List.splitOn_append_cons_self_of_not_mem hx, ih]
      · simp
      · simpa using hlen
      · rw [List.length_append, List.length_cons] at hfuel
        omega
    · rw [getParamTokenFrom_of_not_space hmem hlen, List.splitOn_eq_singleton hmem]

/-- The words of the parameters, as they stand between spaces; without parameters there are
none. -/
def words (params : Option (List UInt8)) : List (List UInt8) :=
  match params with
  | none => []
  | some params => (cstr params).splitOn 32

/-- `GetParamToken` appends the words of the parameters. -/
theorem getParamToken_eq
    {params : Option (List UInt8)} (h : ∀ p, params = some p → (cstr p).length < 2147483648)
    (paramTable : List (List UInt8)) :
  getParamToken params paramTable = some (paramTable ++ words params)
  := by
  cases params with
  | none => simp [getParamToken, words]
  | some p => apply getParamTokenFrom_append (a := []) (h p rfl) (Nat.lt_succ_self _)

/-- `GetParamToken` takes a string apart into what joined with spaces is the string, and
takes apart again what was joined with spaces. -/
theorem getParamToken_join
    (params : List UInt8) (paramTable : List (List UInt8))
    (h : (cstr params).length < 2147483648) :
  (∃ tokens, getParamToken (some params) paramTable = some (paramTable ++ tokens)
      ∧ tokens.length = (cstr params).count 32 + 1 ∧ (∀ token ∈ tokens, 32 ∉ token)
      ∧ [32].intercalate tokens = cstr params)
    ∧ ∀ tokens, tokens ≠ [] → (∀ token ∈ tokens, 32 ∉ token ∧ 0 ∉ token) →
      ([32].intercalate tokens).length < 2147483648 →
      getParamToken (some ([32].intercalate tokens ++ [0])) paramTable
        = some (paramTable ++ tokens)
  := by
  constructor
  · use (cstr params).splitOn 32
    constructor
    · apply getParamToken_eq
      intro p hp
      rw [← Option.some.inj hp]
      apply h
    · use Words.length_splitOn 32 (cstr params)
      constructor
      · intro token
        apply Words.notMem_of_mem_splitOn
      · apply List.intercalate_splitOn
  · intro tokens hne htokens hlen
    have hcstr : cstr ([32].intercalate tokens ++ [0]) = [32].intercalate tokens := by
      apply cstr_concat_zero
      apply Words.notMem_intercalate
      · decide
      · intro token htoken
        apply (htokens token htoken).2
    have hsplit : words (some ([32].intercalate tokens ++ [0])) = tokens := by
      rw [words, hcstr, List.splitOn_intercalate]
      · intro token htoken
        apply (htokens token htoken).1
      · apply hne
    rw [getParamToken_eq, hsplit]
    intro p hp
    rw [← Option.some.inj hp, hcstr]
    apply hlen

/-- The hypothesis of `getParamToken_join` is met by a string with two spaces in a row. -/
theorem getParamToken_twoSpaces_join :
  let params := ascii "a  b"
  (∃ tokens, getParamToken (some params) [] = some ([] ++ tokens)
      ∧ tokens.length = (cstr params).count 32 + 1 ∧ (∀ token ∈ tokens, 32 ∉ token)
      ∧ [32].intercalate tokens = cstr params)
    ∧ ∀ tokens, tokens ≠ [] → (∀ token ∈ tokens, 32 ∉ token ∧ 0 ∉ token) →
      ([32].intercalate tokens).length < 2147483648 →
      getParamToken (some ([32].intercalate tokens ++ [0])) [] = some ([] ++ tokens)
  := by
  apply getParamToken_join
  decide

/-! ### Words -/

/-- The level that a word names. -/
def levelOf (word : List UInt8) : Option ℤ :=
  if word = ascii "sensitive" then some LoggingSeverity.LS_SENSITIVE.toInt
  else if word = ascii "verbose" then some LoggingSeverity.LS_VERBOSE.toInt
  else if word = ascii "info" then some LoggingSeverity.LS_INFO.toInt
  else if word = ascii "warning" then some LoggingSeverity.LS_WARNING.toInt
  else if word = ascii "error" then some LoggingSeverity.LS_ERROR.toInt
  else none

/-- The level that the last of the words names that names one. -/
def lastLevel (words : List (List UInt8)) : ℤ :=
  (words.filterMap levelOf).getLast?.getD LoggingSeverity.LS_SENSITIVE.toInt

/-- The variables after `ConfigureLog` has read these words. -/
def configured (words : List (List UInt8)) (filename : Option (List UInt8)) (s : State) :
    State where
  minSev := min (lastLevel words) s.streamSev
  dbgSev := lastLevel words
  streamSev := s.streamSev
  ctxSev := lastLevel words
  streamList := s.streamList
    ++ filename.toList.map fun _ => (.rollingFile s.rollingFiles.length, lastLevel words)
  thread := s.thread || decide (ascii "thread" ∈ words)
  timestamp := s.timestamp || decide (ascii "timestamp" ∈ words)
  start := s.start
  rollingFiles := s.rollingFiles ++ filename.toList

theorem levelOf_timestamp :
  levelOf (ascii "timestamp") = none
  := by decide

theorem levelOf_thread :
  levelOf (ascii "thread") = none
  := by decide

/-- What one word does. -/
theorem configureParam_eq (s : State) (level : ℤ) (word : List UInt8) :
  configureParam (s, level) word
    = ({ s with
          thread := s.thread || decide (ascii "thread" = word)
          timestamp := s.timestamp || decide (ascii "timestamp" = word) },
        (levelOf word).getD level)
  := by
  have hne : ascii "thread" ≠ ascii "timestamp" := by decide
  rw [configureParam]
  by_cases htimestamp : word = ascii "timestamp"
  · subst htimestamp
    rw [if_pos rfl, levelOf_timestamp, decide_eq_false hne, decide_eq_true rfl, Bool.or_false,
      Bool.or_true]
    rfl
  · rw [if_neg htimestamp, decide_eq_false (Ne.symm htimestamp), Bool.or_false]
    by_cases hthread : word = ascii "thread"
    · subst hthread
      rw [if_pos rfl, levelOf_thread, decide_eq_true rfl, Bool.or_true]
      rfl
    · rw [if_neg hthread, decide_eq_false (Ne.symm hthread), Bool.or_false, levelOf]
      split_ifs
      all_goals rfl

theorem lastLevel_concat (words : List (List UInt8)) (word : List UInt8) :
  lastLevel (words ++ [word]) = (levelOf word).getD (lastLevel words)
  := by
  rw [lastLevel, List.filterMap_append]
  cases h : levelOf word with
  | none => simp [h, lastLevel]
  | some level => simp [h]

/-- The words of a list are read one after another, and the last level wins. -/
theorem foldl_configureParam (s : State) (words : List (List UInt8)) :
  words.foldl configureParam (s, LoggingSeverity.LS_SENSITIVE.toInt)
    = ({ s with
          thread := s.thread || decide (ascii "thread" ∈ words)
          timestamp := s.timestamp || decide (ascii "timestamp" ∈ words) },
        lastLevel words)
  := by
  induction words using List.reverseRecOn with
  | nil => simp [lastLevel]
  | append_singleton words word ih =>
    rw [List.foldl_concat, ih, configureParam_eq, lastLevel_concat]
    simp only [List.mem_append, List.mem_singleton, Bool.decide_or, Bool.or_assoc]

/-- `ConfigureLog` is decided by the words of its parameters. -/
theorem configureLog_eq
    {params : Option (List UInt8)} (h : ∀ p, params = some p → (cstr p).length < 2147483648)
    (filename : Option (List UInt8)) (s : State) :
  configureLog params filename s = some (configured (words params) filename s)
  := by
  rw [configureLog, getParamToken_eq h, List.nil_append, Option.bind_eq_bind, Option.bind_some,
    foldl_configureParam]
  cases filename with
  | none => simp [logToDebug, logContext, configured]
  | some filename => simp [logToDebug, logContext, logToStream, configured]

/-- Words in another order that keeps the levels in order have the same effect. -/
theorem configured_of_perm
    {ws ws' : List (List UInt8)} (hperm : ws'.Perm ws)
    (hlevels : ws'.filterMap levelOf = ws.filterMap levelOf) (filename : Option (List UInt8))
    (s : State) :
  configured ws' filename s = configured ws filename s
  := by
  rw [configured, configured, lastLevel, lastLevel, hlevels]
  simp only [hperm.mem_iff]

/-- `ConfigureLog` is decided by the words of its parameters, whose order matters only as far as
they name levels. -/
theorem configureLog_configured
    (params filename : Option (List UInt8)) (s : State)
    (h : ∀ p, params = some p → (cstr p).length < 2147483648) :
  configureLog params filename s = some (configured (words params) filename s)
    ∧ ∀ params', (∀ p, params' = some p → (cstr p).length < 2147483648) →
      (words params').Perm (words params) →
      (words params').filterMap levelOf = (words params).filterMap levelOf →
      configureLog params' filename s = configureLog params filename s
  := by
  have heq := configureLog_eq h filename s
  constructor
  · apply heq
  · intro params' h' hperm hlevels
    rw [heq, configureLog_eq h' filename s, configured_of_perm hperm hlevels]

/-- The hypothesis of `configureLog_configured` is met by parameters with two levels. -/
theorem configureLog_twoLevels_configured :
  let params := some (ascii "error thread  info")
  configureLog params none (.init false 0) = some (configured (words params) none (.init false 0))
    ∧ ∀ params', (∀ p, params' = some p → (cstr p).length < 2147483648) →
      (words params').Perm (words params) →
      (words params').filterMap levelOf = (words params).filterMap levelOf →
      configureLog params' none (.init false 0) = configureLog params none (.init false 0)
  := by
  intro params
  apply configureLog_configured
  intro p hp
  obtain rfl := Option.some.inj hp
  decide

example :
  lastLevel (words (some (ascii "error thread  info"))) = LoggingSeverity.LS_INFO.toInt
  := by decide

end LogMessage
