import IotDeviceSdk.Foundation.HandleTrace
import Mathlib.Data.Int.Notation
import Mathlib.Logic.Function.Basic

/-!
# Buffered files

A file system `Fs N α` names files of type `List α` by names of type `N` and keeps a table
of the streams open on them.  A stream buffers what is written to it until it is flushed
or closed.  Names point to inodes, so a stream stays on its file when the file is renamed
or removed.

Every call takes its outcome from its caller: whether it succeeds, and for `fwrite` how
many elements are accepted.  A call on a handle that is not open changes no file, and
leaves its mark in the list `calls` of the calls made, like every other call.
`Fs.trace` is that list as a trace of the handle discipline.
-/

namespace Stdio

/-- A file: the name it was created under and its number in the order of creation. -/
abbrev Inode (N : Type*) := N × ℕ

/-- The handle of a stream. -/
abbrev Handle := ℕ

/-- An open stream: its file, and what has been written to it but not yet pushed to the
file. -/
structure Stream (N α : Type*) where
  inode : Inode N
  buffer : List α

/-- A call, with its result; of `fwrite`, the elements that were accepted. -/
inductive Call (N α : Type*) where
  | fopen (name : N) (result : Option Handle)
  | fseek (f : Handle) (ok : Bool)
  | ftell (f : Handle) (result : ℤ)
  | fwrite (f : Handle) (accepted : List α)
  | fflush (f : Handle)
  | fclose (f : Handle)
  | remove (name : N) (ok : Bool)
  | rename (old new : N) (ok : Bool)
  deriving DecidableEq

/-- What a call does to a handle. -/
def Call.event {N α : Type*} : Call N α → Option (HandleTrace.Event Handle)
  | .fopen _ result => result.map .acquire
  | .fseek f _ => some (.use f)
  | .ftell f _ => some (.use f)
  | .fwrite f _ => some (.use f)
  | .fflush f => some (.use f)
  | .fclose f => some (.release f)
  | .remove _ _ => none
  | .rename _ _ _ => none

/-- The stream that a call writes to, with what is accepted. -/
def Call.writesTo {N α : Type*} : Call N α → Option (Handle × List α)
  | .fwrite f accepted => some (f, accepted)
  | _ => none

/-- A file system with the streams open on it. -/
structure Fs (N α : Type*) where
  /-- the file of a name -/
  dir : N → Option (Inode N)
  /-- the elements that have been pushed to a file -/
  data : Inode N → List α
  /-- the stream of a handle -/
  streams : Handle → Option (Stream N α)
  /-- the number of the next file -/
  nextInode : ℕ
  /-- the next handle -/
  nextHandle : Handle
  /-- the calls made, oldest first -/
  calls : List (Call N α)
  data_fresh : ∀ i, nextInode ≤ i.2 → data i = []
  dir_lt : ∀ n i, dir n = some i → i.2 < nextInode
  dir_inj : ∀ n m i, dir n = some i → dir m = some i → n = m
  stream_lt : ∀ f s, streams f = some s → s.inode.2 < nextInode
  calls_lt : ∀ n f, .fopen n (some f) ∈ calls → f < nextHandle

namespace Fs

variable {N α : Type*}

/-- The trace of the handle discipline left by the calls made. -/
def trace (w : Fs N α) : List (HandleTrace.Event Handle) :=
  w.calls.filterMap Call.event

/-- The content of a named file; `none` when there is no such file. -/
def content (w : Fs N α) (name : N) : Option (List α) :=
  (w.dir name).map w.data

/-- What has been written to the file of an open stream, the part still in the buffer of
the stream included. -/
def written (w : Fs N α) (f : Handle) : Option (List α) :=
  (w.streams f).map fun s => w.data s.inode ++ s.buffer

/-- What is in the buffer of an open stream. -/
def buffered (w : Fs N α) (f : Handle) : List α :=
  ((w.streams f).map Stream.buffer).getD []

/-- The file system that holds the given files, before any call. -/
def boot (files : N → Option (List α)) : Fs N α where
  dir n := (files n).map fun _ => (n, 0)
  data i := if i.2 = 0 then (files i.1).getD [] else []
  streams _ := none
  nextInode := 1
  nextHandle := 0
  calls := []
  data_fresh i hi := if_neg (by omega)
  dir_lt n i h := by
    obtain ⟨_, -, rfl⟩ := Option.map_eq_some_iff.mp h
    apply Nat.zero_lt_one
  dir_inj n m i hn hm := by
    obtain ⟨_, -, rfl⟩ := Option.map_eq_some_iff.mp hn
    obtain ⟨_, -, h⟩ := Option.map_eq_some_iff.mp hm
    apply (congrArg Prod.fst h).symm
  stream_lt _ _ h := nomatch h
  calls_lt _ _ h := nomatch h

/-- Append a call that opens no stream to the list of calls. -/
def record (w : Fs N α) (c : Call N α) (hc : ∀ n f, c ≠ .fopen n (some f) := by nofun) :
    Fs N α :=
  { w with
    calls := w.calls ++ [c]
    calls_lt := by
      intro n f h
      apply w.calls_lt n f
      simpa [Ne.symm (hc n f)] using h }

/-- Push the buffer of a stream to its file. -/
def push [DecidableEq N] (w : Fs N α) (f : Handle) : Fs N α :=
  match hs : w.streams f with
  | none => w
  | some s =>
    { w with
      data := Function.update w.data s.inode (w.data s.inode ++ s.buffer)
      streams := Function.update w.streams f (some { s with buffer := [] })
      data_fresh := by
        intro i hi
        have hne : i ≠ s.inode := by
          rintro rfl
          apply Nat.not_lt.mpr hi (w.stream_lt f s hs)
        rw [Function.update_of_ne hne]
        apply w.data_fresh i hi
      stream_lt := by
        intro g t ht
        rcases eq_or_ne g f with rfl | hne
        · rw [Function.update_self, Option.some.injEq] at ht
          rw [← ht]
          apply w.stream_lt g s hs
        · rw [Function.update_of_ne hne] at ht
          apply w.stream_lt g t ht }

/-- Replace the stream of a handle by one on the same file, or by none. -/
def setStream (w : Fs N α) (f : Handle) (s : Option (Stream N α))
    (hs : ∀ t ∈ s, ∃ u ∈ w.streams f, t.inode = u.inode) : Fs N α :=
  { w with
    streams := Function.update w.streams f s
    stream_lt := by
      intro g t ht
      rcases eq_or_ne g f with rfl | hne
      · rw [Function.update_self] at ht
        obtain ⟨u, hu, htu⟩ := hs t ht
        rw [htu]
        apply w.stream_lt g u hu
      · rw [Function.update_of_ne hne] at ht
        apply w.stream_lt g t ht }

/-- Take a name out of the directory. -/
def unlink [DecidableEq N] (w : Fs N α) (name : N) : Fs N α :=
  { w with
    dir := Function.update w.dir name none
    dir_lt := by
      intro n i h
      rcases eq_or_ne n name with rfl | hne
      · simp at h
      · rw [Function.update_of_ne hne] at h
        apply w.dir_lt n i h
    dir_inj := by
      intro n m i hn hm
      rcases eq_or_ne n name with rfl | hnn
      · simp at hn
      · rcases eq_or_ne m name with rfl | hmn
        · simp at hm
        · rw [Function.update_of_ne hnn] at hn
          rw [Function.update_of_ne hmn] at hm
          apply w.dir_inj n m i hn hm }

/-- Let the name `new` point to the file of `old`, in place of `old`. -/
def move [DecidableEq N] (w : Fs N α) (old new : N) : Fs N α :=
  { w with
    dir := Function.update (w.unlink old).dir new (w.dir old)
    dir_lt := by
      intro n i h
      rcases eq_or_ne n new with rfl | hne
      · rw [Function.update_self] at h
        apply w.dir_lt old i h
      · rw [Function.update_of_ne hne] at h
        apply (w.unlink old).dir_lt n i h
    dir_inj := by
      have hold : ∀ n i, (w.unlink old).dir n = some i → w.dir old ≠ some i := by
        intro n i hn hi
        rcases eq_or_ne n old with rfl | hne
        · simp [unlink] at hn
        · simp only [unlink, Function.update_of_ne hne] at hn
          apply hne (w.dir_inj n old i hn hi)
      intro n m i hn hm
      rcases eq_or_ne n new with rfl | hnn
      · rcases eq_or_ne m n with rfl | hmn
        · rfl
        · rw [Function.update_self] at hn
          rw [Function.update_of_ne hmn] at hm
          apply absurd hn (hold m i hm)
      · rw [Function.update_of_ne hnn] at hn
        rcases eq_or_ne m new with rfl | hmn
        · rw [Function.update_self] at hm
          apply absurd hm (hold n i hn)
        · rw [Function.update_of_ne hmn] at hm
          apply (w.unlink old).dir_inj n m i hn hm }

/-! ### The calls -/

/-- The file of a name, or the next new file when there is none. -/
def locate (w : Fs N α) (name : N) : Inode N :=
  (w.dir name).getD (name, w.nextInode)

theorem locate_lt (w : Fs N α) (name : N) :
  (w.locate name).2 < w.nextInode + 1
  := by
  rw [locate]
  cases h : w.dir name with
  | none => simp
  | some i =>
    apply Nat.lt_succ_of_lt
    apply w.dir_lt name i h

/-- Only the name itself can point to the file located for it. -/
theorem eq_of_dir_eq_locate {w : Fs N α} {n name : N} (h : w.dir n = some (w.locate name)) :
  n = name
  := by
  unfold locate at h
  cases hname : w.dir name with
  | none =>
    rw [hname] at h
    apply absurd (w.dir_lt n _ h)
    simp
  | some i =>
    rw [hname] at h
    apply w.dir_inj n name i h hname

/-- `fopen` in a mode that appends: the file is created when there is none. -/
def fopen [DecidableEq N] (w : Fs N α) (name : N) (ok : Bool) : Option Handle × Fs N α :=
  if ok then
    (some w.nextHandle,
      { w with
        dir := Function.update w.dir name (some (w.locate name))
        streams := Function.update w.streams w.nextHandle (some ⟨w.locate name, []⟩)
        nextInode := w.nextInode + 1
        nextHandle := w.nextHandle + 1
        calls := w.calls ++ [.fopen name (some w.nextHandle)]
        data_fresh := fun i hi => w.data_fresh i (by omega)
        dir_lt := by
          intro n i h
          rcases eq_or_ne n name with rfl | hne
          · rw [Function.update_self, Option.some.injEq] at h
            rw [← h]
            apply w.locate_lt
          · rw [Function.update_of_ne hne] at h
            apply Nat.lt_succ_of_lt
            apply w.dir_lt n i h
        dir_inj := by
          intro n m i hn hm
          rcases eq_or_ne n name with rfl | hnn
          · rcases eq_or_ne m n with rfl | hmn
            · rfl
            · rw [Function.update_self] at hn
              rw [Function.update_of_ne hmn, ← hn] at hm
              symm
              apply eq_of_dir_eq_locate hm
          · rw [Function.update_of_ne hnn] at hn
            rcases eq_or_ne m name with rfl | hmn
            · rw [Function.update_self] at hm
              rw [← hm] at hn
              apply eq_of_dir_eq_locate hn
            · rw [Function.update_of_ne hmn] at hm
              apply w.dir_inj n m i hn hm
        stream_lt := by
          intro g s hs
          rcases eq_or_ne g w.nextHandle with rfl | hne
          · rw [Function.update_self, Option.some.injEq] at hs
            rw [← hs]
            apply w.locate_lt
          · rw [Function.update_of_ne hne] at hs
            apply Nat.lt_succ_of_lt
            apply w.stream_lt g s hs
        calls_lt := by
          intro n f h
          rcases List.mem_append.mp h with h | h
          · apply Nat.lt_succ_of_lt
            apply w.calls_lt n f h
          · simp only [List.mem_singleton, Call.fopen.injEq, Option.some.injEq] at h
            rw [h.2]
            apply Nat.lt_succ_self })
  else
    (none, w.record (.fopen name none))

/-- `fseek` to the end of a stream. -/
def fseek (w : Fs N α) (f : Handle) (ok : Bool) : Bool × Fs N α :=
  (ok, w.record (.fseek f ok))

/-- `ftell` on a stream that stands at its end: what has been written to the file, or
`-1` on failure. -/
def ftell (w : Fs N α) (f : Handle) (ok : Bool) : ℤ × Fs N α :=
  let result : ℤ := if ok then ((w.written f).getD []).length else -1
  (result, w.record (.ftell f result))

/-- `fwrite` of `elements`, of which the first `count` are accepted. -/
def fwrite (w : Fs N α) (f : Handle) (elements : List α) (count : ℕ) : Fs N α :=
  (w.setStream f
    ((w.streams f).map fun s => { s with buffer := s.buffer ++ elements.take count })
    (by
      intro t ht
      obtain ⟨u, hu, rfl⟩ := Option.map_eq_some_iff.mp ht
      use u, hu)).record (.fwrite f (elements.take count))

/-- `fflush`. -/
def fflush [DecidableEq N] (w : Fs N α) (f : Handle) : Fs N α :=
  (w.push f).record (.fflush f)

/-- `fclose`. -/
def fclose [DecidableEq N] (w : Fs N α) (f : Handle) : Fs N α :=
  ((w.push f).setStream f none (by simp)).record (.fclose f)

/-- `remove`, which fails on a missing file; the result is whether it succeeds. -/
def remove [DecidableEq N] (w : Fs N α) (name : N) (ok : Bool) : Bool × Fs N α :=
  let ok := ok && (w.dir name).isSome
  (ok, (if ok then w.unlink name else w).record (.remove name ok))

/-- `rename`, which fails on a missing file and replaces the target; the result is whether
it succeeds. -/
def rename [DecidableEq N] (w : Fs N α) (old new : N) (ok : Bool) : Bool × Fs N α :=
  let ok := ok && (w.dir old).isSome
  (ok, (if ok then w.move old new else w).record (.rename old new ok))

/-! ### The calls made and their trace -/

/-- The next handle is a new one. -/
theorem acquire_nextHandle_notMem (w : Fs N α) :
  .acquire w.nextHandle ∉ w.trace
  := by
  intro h
  obtain ⟨c, hc, he⟩ := List.mem_filterMap.mp h
  cases c with
  | fopen n result =>
    simp only [Call.event, Option.map_eq_some_iff, HandleTrace.Event.acquire.injEq] at he
    obtain ⟨f, rfl, rfl⟩ := he
    apply Nat.lt_irrefl _ (w.calls_lt n _ hc)
  | fseek | ftell | fwrite | fflush | fclose | remove | rename => simp [Call.event] at he

/-- One more call adds its event to the trace. -/
theorem trace_of_calls {v w : Fs N α} {c : Call N α} (h : v.calls = w.calls ++ [c]) :
  v.trace = w.trace ++ c.event.toList
  := by
  simp only [trace, h, List.filterMap_append, List.filterMap_cons, List.filterMap_nil]
  cases c.event with
  | none => rfl
  | some e => rfl

theorem calls_fseek (w : Fs N α) (f : Handle) (ok : Bool) :
  (w.fseek f ok).2.calls = w.calls ++ [.fseek f ok]
  := rfl

theorem calls_ftell (w : Fs N α) (f : Handle) (ok : Bool) :
  (w.ftell f ok).2.calls = w.calls ++ [.ftell f (w.ftell f ok).1]
  := rfl

theorem calls_fwrite (w : Fs N α) (f : Handle) (elements : List α) (count : ℕ) :
  (w.fwrite f elements count).calls = w.calls ++ [.fwrite f (elements.take count)]
  := rfl

@[simp]
theorem trace_fseek (w : Fs N α) (f : Handle) (ok : Bool) :
  (w.fseek f ok).2.trace = w.trace ++ [.use f]
  := trace_of_calls (w.calls_fseek f ok)

@[simp]
theorem trace_ftell (w : Fs N α) (f : Handle) (ok : Bool) :
  (w.ftell f ok).2.trace = w.trace ++ [.use f]
  := trace_of_calls (w.calls_ftell f ok)

@[simp]
theorem trace_fwrite (w : Fs N α) (f : Handle) (elements : List α) (count : ℕ) :
  (w.fwrite f elements count).trace = w.trace ++ [.use f]
  := trace_of_calls (w.calls_fwrite f elements count)

/-! ### The file of a stream -/

/-- The stream of the handle `f` is open on the file that `name` points to. -/
def OpenOn (w : Fs N α) (f : Handle) (name : N) : Prop :=
  ∃ s, w.streams f = some s ∧ w.dir name = some s.inode

@[simp]
theorem written_record (w : Fs N α) (c : Call N α) (hc : ∀ n f, c ≠ .fopen n (some f))
    (f : Handle) :
  (w.record c hc).written f = w.written f
  := rfl

@[simp]
theorem content_boot (files : N → Option (List α)) (name : N) :
  (boot files).content name = files name
  := by
  simp only [boot, content, Option.map_map]
  cases h : files name with
  | none => rfl
  | some d => simp [h]

/-- Writing to an open stream leaves it open on its file. -/
theorem OpenOn.fwrite
    {w : Fs N α} {f : Handle} {name : N} (h : w.OpenOn f name) (elements : List α) (count : ℕ) :
  (w.fwrite f elements count).OpenOn f name
  := by
  obtain ⟨s, hs, hdir⟩ := h
  use { s with buffer := s.buffer ++ elements.take count }
  constructor
  · simp [Fs.fwrite, record, setStream, hs]
  · apply hdir

/-- Writing to a stream adds the accepted elements to what is written to its file, if the
stream is open. -/
theorem written_fwrite (w : Fs N α) (f : Handle) (elements : List α) (count : ℕ) :
  (w.fwrite f elements count).written f = (w.written f).map (· ++ elements.take count)
  := by
  cases hs : w.streams f with
  | none => simp [Fs.fwrite, record, setStream, written, hs]
  | some s => simp [Fs.fwrite, record, setStream, written, hs]

/-- Writing to an open stream appends the accepted elements to its buffer. -/
theorem buffered_fwrite
    {w : Fs N α} {f : Handle} {d : List α} (h : w.written f = some d) (elements : List α)
    (count : ℕ) :
  (w.fwrite f elements count).buffered f = w.buffered f ++ elements.take count
  := by
  obtain ⟨s, hs, -⟩ := Option.map_eq_some_iff.mp h
  simp [fwrite, record, setStream, buffered, hs]

@[simp]
theorem content_fwrite (w : Fs N α) (f : Handle) (elements : List α) (count : ℕ) (name : N) :
  (w.fwrite f elements count).content name = w.content name
  := rfl

section Calls

variable [DecidableEq N]

theorem calls_fopen (w : Fs N α) (name : N) (ok : Bool) :
  (w.fopen name ok).2.calls = w.calls ++ [.fopen name (w.fopen name ok).1]
  := by
  cases ok with
  | false => rfl
  | true => rfl

theorem calls_push (w : Fs N α) (f : Handle) :
  (w.push f).calls = w.calls
  := by
  rw [push]
  split
  · rfl
  · rfl

theorem calls_fflush (w : Fs N α) (f : Handle) :
  (w.fflush f).calls = w.calls ++ [.fflush f]
  := by
  rw [← calls_push w f]
  rfl

theorem calls_fclose (w : Fs N α) (f : Handle) :
  (w.fclose f).calls = w.calls ++ [.fclose f]
  := by
  rw [← calls_push w f]
  rfl

theorem calls_remove (w : Fs N α) (name : N) (ok : Bool) :
  (w.remove name ok).2.calls = w.calls ++ [.remove name (w.remove name ok).1]
  := by
  rw [remove]
  simp only [record]
  split
  · rfl
  · rfl

theorem calls_rename (w : Fs N α) (old new : N) (ok : Bool) :
  (w.rename old new ok).2.calls = w.calls ++ [.rename old new (w.rename old new ok).1]
  := by
  rw [rename]
  simp only [record]
  split
  · rfl
  · rfl

theorem trace_fopen (w : Fs N α) (name : N) (ok : Bool) :
  (w.fopen name ok).2.trace = w.trace ++ ((w.fopen name ok).1.map .acquire).toList
  := trace_of_calls (w.calls_fopen name ok)

@[simp]
theorem trace_fflush (w : Fs N α) (f : Handle) :
  (w.fflush f).trace = w.trace ++ [.use f]
  := trace_of_calls (w.calls_fflush f)

@[simp]
theorem trace_fclose (w : Fs N α) (f : Handle) :
  (w.fclose f).trace = w.trace ++ [.release f]
  := trace_of_calls (w.calls_fclose f)

@[simp]
theorem trace_remove (w : Fs N α) (name : N) (ok : Bool) :
  (w.remove name ok).2.trace = w.trace
  := by
  rw [trace_of_calls (w.calls_remove name ok)]
  apply List.append_nil

@[simp]
theorem trace_rename (w : Fs N α) (old new : N) (ok : Bool) :
  (w.rename old new ok).2.trace = w.trace
  := by
  rw [trace_of_calls (w.calls_rename old new ok)]
  apply List.append_nil

end Calls

variable [DecidableEq N]

/-! ### The files after a call -/

theorem push_of_open {w : Fs N α} {f : Handle} {s : Stream N α} (hs : w.streams f = some s) :
  (w.push f).dir = w.dir
    ∧ (w.push f).data = Function.update w.data s.inode (w.data s.inode ++ s.buffer)
    ∧ (w.push f).streams = Function.update w.streams f (some { s with buffer := [] })
  := by
  rw [push]
  split
  · next h => simp [hs] at h
  · next t h =>
    obtain rfl := Option.some.inj (hs.symm.trans h)
    simp

theorem push_of_closed {w : Fs N α} {f : Handle} (hs : w.streams f = none) :
  w.push f = w
  := by
  rw [push]
  split
  · rfl
  · next h =>
    rw [hs] at h
    contradiction

theorem dir_push (w : Fs N α) (f : Handle) :
  (w.push f).dir = w.dir
  := by
  rw [push]
  split
  · rfl
  · rfl

/-- Pushing a buffer leaves the names as they are. -/
theorem isSome_content_push (w : Fs N α) (f : Handle) (n : N) :
  ((w.push f).content n).isSome = (w.content n).isSome
  := by
  rw [content, content, dir_push, Option.isSome_map, Option.isSome_map]

/-- Opening a file by its name succeeds with the next handle, whose stream is open on the
file with nothing in the buffer. -/
theorem fopen_true (w : Fs N α) (name : N) :
  (w.fopen name true).1 = some w.nextHandle
    ∧ (w.fopen name true).2.OpenOn w.nextHandle name
    ∧ (w.fopen name true).2.written w.nextHandle = some ((w.content name).getD [])
  := by
  have hdata : w.data (w.locate name) = (w.content name).getD [] := by
    rw [locate, content]
    cases h : w.dir name with
    | none =>
      apply w.data_fresh
      apply Nat.le_refl
    | some i => rfl
  constructor
  · rfl
  · constructor
    · use ⟨w.locate name, []⟩
      simp [fopen]
    · simp [fopen, written, hdata]

/-- A handle that `fopen` returns is open on the file. -/
theorem OpenOn.of_fopen
    {w : Fs N α} {name : N} {ok : Bool} {f : Handle} (h : (w.fopen name ok).1 = some f) :
  (w.fopen name ok).2.OpenOn f name
  := by
  cases ok with
  | false => simp [fopen] at h
  | true =>
    obtain ⟨hnext, hopen, -⟩ := w.fopen_true name
    obtain rfl := Option.some.inj (hnext.symm.trans h)
    apply hopen

/-- Opening a file leaves all other files as they are. -/
theorem content_fopen_of_ne (w : Fs N α) {name n : N} (hn : n ≠ name) (ok : Bool) :
  (w.fopen name ok).2.content n = w.content n
  := by
  cases ok with
  | false => rfl
  | true => simp [fopen, content, hn]

/-- Pushing the buffer of a stream leaves what is written to its file as it is. -/
theorem written_push (w : Fs N α) (f : Handle) :
  (w.push f).written f = w.written f
  := by
  cases hs : w.streams f with
  | none =>
    rw [push]
    split
    · rfl
    · next h => simp [hs] at h
  | some s =>
    obtain ⟨-, hdata, hstreams⟩ := push_of_open hs
    simp [written, hs, hdata, hstreams]

theorem OpenOn.push {w : Fs N α} {f : Handle} {name : N} (h : w.OpenOn f name) :
  (w.push f).OpenOn f name
  := by
  obtain ⟨s, hs, hdir⟩ := h
  obtain ⟨hdir', -, hstreams⟩ := push_of_open hs
  use { s with buffer := [] }
  simp [hdir', hstreams, hdir]

/-- Pushing the buffer of a stream leaves all other files as they are. -/
theorem OpenOn.content_push_of_ne
    {w : Fs N α} {f : Handle} {name n : N} (h : w.OpenOn f name) (hn : n ≠ name) :
  (w.push f).content n = w.content n
  := by
  obtain ⟨s, hs, hdir⟩ := h
  obtain ⟨hdir', hdata, -⟩ := push_of_open hs
  unfold content
  rw [hdir']
  cases hi : w.dir n with
  | none => rfl
  | some i =>
    have hne : i ≠ s.inode := by
      rintro rfl
      apply hn (w.dir_inj n name _ hi hdir)
    simp [hdata, Function.update_of_ne hne]

/-- Once its buffer is pushed, the file of a stream holds all that was written to it. -/
theorem OpenOn.content_push {w : Fs N α} {f : Handle} {name : N} (h : w.OpenOn f name) :
  (w.push f).content name = w.written f
  := by
  obtain ⟨s, hs, hdir⟩ := h
  obtain ⟨hdir', hdata, -⟩ := push_of_open hs
  simp [content, written, hs, hdir', hdir, hdata]

@[simp]
theorem content_fflush (w : Fs N α) (f : Handle) (n : N) :
  (w.fflush f).content n = (w.push f).content n
  := rfl

@[simp]
theorem content_fclose (w : Fs N α) (f : Handle) (n : N) :
  (w.fclose f).content n = (w.push f).content n
  := rfl

theorem OpenOn.fflush {w : Fs N α} {f : Handle} {name : N} (h : w.OpenOn f name) :
  (w.fflush f).OpenOn f name
  := h.push

@[simp]
theorem written_fflush (w : Fs N α) (f : Handle) :
  (w.fflush f).written f = w.written f
  := written_push w f

/-- A closed stream is not open. -/
@[simp]
theorem written_fclose (w : Fs N α) (f : Handle) :
  (w.fclose f).written f = none
  := by
  simp [fclose, record, setStream, written]

@[simp]
theorem written_remove (w : Fs N α) (name : N) (ok : Bool) (f : Handle) :
  (w.remove name ok).2.written f = w.written f
  := by
  rw [remove]
  rw [written_record]
  split
  · rfl
  · rfl

@[simp]
theorem written_rename (w : Fs N α) (old new : N) (ok : Bool) (f : Handle) :
  (w.rename old new ok).2.written f = w.written f
  := by
  rw [rename]
  rw [written_record]
  split
  · rfl
  · rfl

/-- What `remove` does to the content of the files. -/
theorem content_remove (w : Fs N α) (name : N) (ok : Bool) (n : N) :
  (w.remove name ok).2.content n = if n = name ∧ ok then none else w.content n
  := by
  have hremove : (w.remove name ok).2.content n
      = (if ok && (w.dir name).isSome then w.unlink name else w).content n := rfl
  rw [hremove]
  cases ok with
  | false => simp
  | true =>
    cases h : w.dir name with
    | none =>
      by_cases hn : n = name
      · subst hn
        simp [content, h]
      · simp [hn]
    | some i =>
      by_cases hn : n = name
      · subst hn
        simp [content, unlink]
      · simp [content, unlink, hn]

/-- `rename` succeeds on an existing file when it is allowed to. -/
theorem rename_fst (w : Fs N α) (old new : N) (ok : Bool) :
  (w.rename old new ok).1 = (ok && (w.content old).isSome)
  := by
  simp [rename, content]

/-- What `rename` does to the content of the files. -/
theorem content_rename (w : Fs N α) {old new : N} (hne : old ≠ new) (ok : Bool) (n : N) :
  (w.rename old new ok).2.content n
    = if (w.rename old new ok).1 then
        if n = new then w.content old else if n = old then none else w.content n
      else w.content n
  := by
  have hrename : (w.rename old new ok).2.content n
      = (if (w.rename old new ok).1 then w.move old new else w).content n := rfl
  rw [hrename]
  cases (w.rename old new ok).1 with
  | false => simp
  | true =>
    by_cases hn : n = new
    · subst hn
      simp [content, move]
    · by_cases ho : n = old
      · subst ho
        simp [content, move, unlink, hn]
      · simp [content, move, unlink, hn, ho]

/-! ### Buffers -/

/-- Pushing a buffer empties it. -/
theorem buffered_push (w : Fs N α) (f : Handle) :
  (w.push f).buffered f = []
  := by
  cases hs : w.streams f with
  | none =>
    rw [push]
    split
    · simp [buffered, hs]
    · next h => simp [hs] at h
  | some s =>
    obtain ⟨-, -, hstreams⟩ := push_of_open hs
    simp [buffered, hstreams]

@[simp]
theorem buffered_fflush (w : Fs N α) (f : Handle) :
  (w.fflush f).buffered f = []
  := buffered_push w f

/-- Nothing is buffered in a new stream. -/
theorem buffered_of_fopen {w : Fs N α} {name : N} {ok : Bool} {f : Handle}
    (h : (w.fopen name ok).1 = some f) :
  (w.fopen name ok).2.buffered f = []
  := by
  cases ok with
  | false => simp [fopen] at h
  | true =>
    obtain rfl := Option.some.inj h
    simp [fopen, buffered]

end Fs

end Stdio
