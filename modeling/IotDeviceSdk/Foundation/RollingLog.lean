import Mathlib.Data.List.Infix
import Mathlib.Tactic.Common

/-!
# Rolling logs

A rolling log keeps a growing block of messages, the log, and one older block.  When an
appended message takes the log past the limit, the log becomes the older block and a new
log is started.  `run_retained` says what is kept of the history, which is the initial
content of the log followed by all messages: a suffix of the history that holds at least
its last `limit` elements and is cut only between messages.
-/

namespace RollingLog

variable {α : Type*}

/-- The two blocks of a rolling log, and whether the log was ever rotated away. -/
structure State (α : Type*) where
  old : List α
  log : List α
  rotated : Bool

/-- Append a message; a log grown past the limit is rotated away. -/
def append (limit : ℕ) (s : State α) (m : List α) : State α :=
  if limit < s.log.length + m.length then
    ⟨s.log ++ m, [], true⟩
  else
    ⟨s.old, s.log ++ m, s.rotated⟩

/-- Append messages in order. -/
def run (limit : ℕ) (s : State α) (ms : List (List α)) : State α :=
  ms.foldl (append limit) s

/-- The initial content of the log followed by the messages. -/
def history (init : List α) (ms : List (List α)) : List α :=
  init ++ ms.flatten

/-- The prefix `pre` of the history ends where some message begins. -/
def BeforeMessage (init : List α) (ms : List (List α)) (pre : List α) : Prop :=
  ∃ j < ms.length, pre = history init (ms.take j)

/-- What the blocks `old` and `log` retain of the history of a rolling log that started
with the older block `old₀` and the log `init`. -/
structure Retained (limit : ℕ) (old₀ init : List α) (ms : List (List α)) (old log : List α)
    (rotated : Prop) : Prop where
  /-- the two blocks are the last part of all there was -/
  suffix : old ++ log <:+ old₀ ++ history init ms
  /-- the last `limit` elements of the history are there, or all of it if it is shorter -/
  recent : (history init ms).drop ((history init ms).length - min (history init ms).length limit)
    <:+ old ++ log
  /-- the log is within the limit -/
  bounded : log.length ≤ limit
  /-- the log is all of the history, or empty, or begins where a message begins -/
  log_begins : log = history init ms ∨ log = []
    ∨ ∃ pre, history init ms = pre ++ log ∧ BeforeMessage init ms pre
  /-- a block rotated away is followed by the log, and begins the history or begins where
  a message begins -/
  old_begins : rotated → ∃ pre, history init ms = pre ++ old ++ log
    ∧ (pre = [] ∨ BeforeMessage init ms pre)

/-! ### The invariant of a run -/

@[simp]
theorem history_concat (init : List α) (ms : List (List α)) (m : List α) :
  history init (ms ++ [m]) = history init ms ++ m
  := by
  simp [history]

theorem history_take_append_drop (init : List α) (ms : List (List α)) (k : ℕ) :
  history init (ms.take k) ++ (ms.drop k).flatten = history init ms
  := by
  rw [history, history, List.append_assoc, ← List.flatten_append, List.take_append_drop]

/-- Where a message begins does not change with later messages. -/
theorem BeforeMessage.concat
    {init : List α} {ms : List (List α)} {pre : List α} (h : BeforeMessage init ms pre)
    (m : List α) :
  BeforeMessage init (ms ++ [m]) pre
  := by
  obtain ⟨j, hj, rfl⟩ := h
  use j
  constructor
  · rw [List.length_append]
    apply Nat.lt_add_right _ hj
  · rw [List.take_append_of_le_length hj.le]

/-- What comes before the last messages of the history ends where the next message begins. -/
theorem beforeMessage_of_history_eq
    {init : List α} {ms : List (List α)} {pre : List α} {k : ℕ} (hk : k ≤ ms.length)
    (h : history init ms = pre ++ (ms.drop k).flatten) (m : List α) :
  BeforeMessage init (ms ++ [m]) pre
  := by
  use k
  constructor
  · simpa using Nat.lt_succ_of_le hk
  · rw [List.take_append_of_le_length hk]
    apply List.append_cancel_right (h.symm.trans _)
    symm
    apply history_take_append_drop

/-- The invariant of the runs of a rolling log: before the first rotation the log is the
history, afterwards the blocks end the history, each beginning where a message begins. -/
def Invariant (limit : ℕ) (old₀ init : List α) (ms : List (List α)) (s : State α) : Prop :=
  if s.rotated then
    limit < s.old.length ∧ ∃ pre, history init ms = pre ++ s.old ++ s.log
      ∧ (pre = [] ∨ BeforeMessage init ms pre)
      ∧ ∃ k ≤ ms.length, s.log = (ms.drop k).flatten
  else
    s.old = old₀ ∧ s.log = history init ms

theorem invariant_init (limit : ℕ) (old₀ init : List α) :
  Invariant limit old₀ init [] ⟨old₀, init, false⟩
  := by
  simp [Invariant, history]

/-- Appending a message keeps the invariant. -/
theorem Invariant.append
    {limit : ℕ} {old₀ init : List α} {ms : List (List α)} {s : State α}
    (h : Invariant limit old₀ init ms s) (m : List α) :
  Invariant limit old₀ init (ms ++ [m]) (append limit s m)
  := by
  obtain ⟨old, log, rotated⟩ := s
  rw [RollingLog.append]
  cases rotated with
  | false =>
    simp only [Invariant, Bool.false_eq_true, if_false] at h
    obtain ⟨rfl, rfl⟩ := h
    split
    · next hover =>
      constructor
      · simpa using hover
      · use []
        simp only [history_concat, List.nil_append, List.append_nil, true_or, true_and]
        use (ms ++ [m]).length
        simp
    · simp [Invariant]
  | true =>
    simp only [Invariant, if_true] at h
    obtain ⟨hold, pre, hhist, hpre, k, hk, rfl⟩ := h
    have hdrop : (ms.drop k).flatten ++ m = ((ms ++ [m]).drop k).flatten := by
      rw [List.drop_append_of_le_length hk]
      simp
    split
    · next hover =>
      constructor
      · simpa using hover
      · use pre ++ old
        constructor
        · simp [hhist]
        · constructor
          · right
            apply beforeMessage_of_history_eq hk hhist
          · use (ms ++ [m]).length
            simp
    · constructor
      · apply hold
      · use pre
        constructor
        · simp [hhist]
        · constructor
          · apply hpre.imp_right
            intro hb
            apply hb.concat
          · use k
            constructor
            · rw [List.length_append]
              apply Nat.le_add_right_of_le hk
            · apply hdrop

/-- Every run keeps the invariant. -/
theorem invariant_run (limit : ℕ) (old₀ init : List α) (ms : List (List α)) :
  Invariant limit old₀ init ms (run limit ⟨old₀, init, false⟩ ms)
  := by
  induction ms using List.reverseRecOn with
  | nil => apply invariant_init
  | append_singleton ms m ih =>
    rw [run, List.foldl_concat]
    apply ih.append

/-! ### Retention -/

theorem length_log_append (limit : ℕ) (s : State α) (m : List α) :
  (append limit s m).log.length ≤ limit
  := by
  rw [append]
  split
  · simp
  · next h =>
    simp only [List.length_append]
    omega

/-- Of two suffixes of one list, the shorter is a suffix of the longer. -/
theorem drop_suffix_of_suffix
    {u v w : List α} {n : ℕ} (h : w <:+ u ++ v) (hn : v.length - n ≤ w.length) :
  v.drop n <:+ w
  := by
  apply List.suffix_of_suffix_length_le _ h
  · simpa using hn
  · apply (List.drop_suffix n v).trans
    apply List.suffix_append

/-- What the invariant says about the retained part of the history. -/
theorem Invariant.retained
    {limit : ℕ} {old₀ init : List α} {ms : List (List α)} {s : State α}
    (h : Invariant limit old₀ init ms s) (hlog : s.log.length ≤ limit) :
  Retained limit old₀ init ms s.old s.log (s.rotated = true)
  := by
  obtain ⟨old, log, rotated⟩ := s
  cases rotated with
  | false =>
    simp only [Invariant, Bool.false_eq_true, if_false] at h
    obtain ⟨rfl, rfl⟩ := h
    exact {
      suffix := List.suffix_refl _
      recent := (List.drop_suffix _ _).trans (List.suffix_append _ _)
      bounded := hlog
      log_begins := Or.inl rfl
      old_begins := by simp }
  | true =>
    simp only [Invariant, if_true] at h
    obtain ⟨hold, pre, hhist, hpre, k, hk, rfl⟩ := h
    have hsuffix : old ++ (ms.drop k).flatten <:+ old₀ ++ history init ms := by
      rw [hhist, List.append_assoc, ← List.append_assoc]
      apply List.suffix_append
    exact {
      suffix := hsuffix
      recent := by
        apply drop_suffix_of_suffix hsuffix
        rw [List.length_append]
        omega
      bounded := hlog
      log_begins := by
        right
        rcases hk.eq_or_lt with rfl | hlt
        · left
          simp
        · right
          use history init (ms.take k)
          constructor
          · symm
            apply history_take_append_drop
          · use k
      old_begins := fun _ => ⟨pre, hhist, hpre⟩ }

/-- After a run of at least one message, the blocks retain the last part of the history. -/
theorem run_retained (limit : ℕ) (old₀ init : List α) {ms : List (List α)} (hms : ms ≠ []) :
  Retained limit old₀ init ms (run limit ⟨old₀, init, false⟩ ms).old
    (run limit ⟨old₀, init, false⟩ ms).log ((run limit ⟨old₀, init, false⟩ ms).rotated = true)
  := by
  apply (invariant_run limit old₀ init ms).retained
  obtain ⟨ms, m, rfl⟩ := (List.eq_nil_or_concat ms).resolve_left hms
  rw [run, List.concat_eq_append, List.foldl_concat]
  apply length_log_append

end RollingLog
