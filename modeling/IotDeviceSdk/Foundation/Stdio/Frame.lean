import IotDeviceSdk.Foundation.Stdio
import Mathlib.Algebra.Ring.Nat
import Mathlib.Order.Basic

/-!
# What calls leave alone

Several owners can use one file system, each with a stream of its own and a name that it opens,
and renames to other names.  `Frame name f w v` says what such an owner leaves alone between the
states `w` and `v`: the other streams stay on their files, and no name points to a file that it
did not point to before, except to a new one or to the one that `name` pointed to.
-/

namespace Stdio

namespace Fs

variable {N α : Type*}

/-- The file of an open stream. -/
def inodeOf (w : Fs N α) (f : Handle) : Option (Inode N) :=
  (w.streams f).map Stream.inode

/-- What is appended by the calls that lead from `w` to `v`: for each call of `fwrite` on an open
stream, the file and the elements that were accepted.  The streams are those of `w`. -/
def writes (w v : Fs N α) : List (Inode N × List α) :=
  (v.calls.drop w.calls.length).filterMap fun c =>
    c.writesTo.bind fun p => (w.inodeOf p.1).map fun i => (i, p.2)

/-- From `w` to `v`, only the stream `f` was used, and new ones, and only `name` was renamed. -/
structure Frame (name : N) (f : Handle) (w v : Fs N α) : Prop where
  nextHandle_le : w.nextHandle ≤ v.nextHandle
  nextInode_le : w.nextInode ≤ v.nextInode
  inodeOf_eq : ∀ g, g ≠ f → g < w.nextHandle → v.inodeOf g = w.inodeOf g
  dir_of : ∀ n i, v.dir n = some i → w.nextInode ≤ i.2 ∨ w.dir n = some i ∨ w.dir name = some i

/-- The file of a handle has been given out. -/
theorem inodeOf_lt {w : Fs N α} {f : Handle} {i : Inode N} (h : w.inodeOf f = some i) :
  i.2 < w.nextInode
  := by
  obtain ⟨s, hs, rfl⟩ := Option.map_eq_some_iff.mp h
  apply w.stream_lt f s hs

/-- The first call writes, and the others do not. -/
theorem writes_of_calls
    {w v : Fs N α} {f : Handle} {accepted : List α} {u : List (Call N α)}
    (h : v.calls = w.calls ++ .fwrite f accepted :: u) (hu : ∀ c ∈ u, c.writesTo = none) :
  w.writes v = ((w.inodeOf f).map fun i => (i, accepted)).toList
  := by
  have hnil : (u.filterMap fun c =>
      c.writesTo.bind fun p => (w.inodeOf p.1).map fun i => (i, p.2)) = [] := by
    rw [List.filterMap_eq_nil_iff]
    intro c hc
    rw [hu c hc]
    rfl
  rw [writes, h, List.drop_left, List.filterMap_cons, hnil]
  simp only [Call.writesTo, Option.bind_some]
  cases w.inodeOf f with
  | none => rfl
  | some i => rfl

/-- A call that opens, closes and renames nothing. -/
theorem Frame.of_eq {name : N} {f : Handle} {w v : Fs N α}
    (hdir : v.dir = w.dir) (hhandle : v.nextHandle = w.nextHandle)
    (hinode : v.nextInode = w.nextInode) (hstreams : ∀ g, v.inodeOf g = w.inodeOf g) :
  Frame name f w v
  where
  nextHandle_le := hhandle.ge
  nextInode_le := hinode.ge
  inodeOf_eq g _ _ := hstreams g
  dir_of n i h := by
    rw [hdir] at h
    right
    left
    apply h

/-- Nothing has happened. -/
theorem frame_refl (name : N) (w : Fs N α) (f : Handle) :
  Frame name f w w
  := Frame.of_eq rfl rfl rfl fun _ => rfl

/-- Two steps on the same stream and name. -/
theorem Frame.trans
    {name : N} {f : Handle} {u v w : Fs N α} (h : Frame name f u v) (h' : Frame name f v w) :
  Frame name f u w
  where
  nextHandle_le := h.nextHandle_le.trans h'.nextHandle_le
  nextInode_le := h.nextInode_le.trans h'.nextInode_le
  inodeOf_eq g hne hlt := by
    rw [h'.inodeOf_eq g hne (hlt.trans_le h.nextHandle_le), h.inodeOf_eq g hne hlt]
  dir_of n i hi := by
    rcases h'.dir_of n i hi with hnew | hsame | hname
    · left
      apply h.nextInode_le.trans hnew
    · apply h.dir_of n i hsame
    · rcases h.dir_of name i hname with hnew | hname | hname
      · left
        apply hnew
      · right
        right
        apply hname
      · right
        right
        apply hname

theorem inodeOf_fwrite (w : Fs N α) (f : Handle) (elements : List α) (count : ℕ) (g : Handle) :
  (w.fwrite f elements count).inodeOf g = w.inodeOf g
  := by
  rcases eq_or_ne g f with rfl | hne
  · cases hs : w.streams g with
    | none => simp [fwrite, record, setStream, inodeOf, hs]
    | some s => simp [fwrite, record, setStream, inodeOf, hs]
  · simp [fwrite, record, setStream, inodeOf, hne]

/-- `fwrite` leaves the files of the other handles alone. -/
theorem frame_fwrite (name : N) (w : Fs N α) (f : Handle) (elements : List α) (count : ℕ) :
  Frame name f w (w.fwrite f elements count)
  := Frame.of_eq rfl rfl rfl (w.inodeOf_fwrite f elements count)

variable [DecidableEq N]

theorem inodeOf_push (w : Fs N α) (f g : Handle) :
  (w.push f).inodeOf g = w.inodeOf g
  := by
  cases hs : w.streams f with
  | none => rw [push_of_closed hs]
  | some s =>
    obtain ⟨-, -, hstreams⟩ := push_of_open hs
    rcases eq_or_ne g f with rfl | hne
    · simp [inodeOf, hstreams, hs]
    · simp [inodeOf, hstreams, hne]

/-- Emptying the buffer of a stream leaves the files of all handles alone. -/
theorem frame_push (name : N) (w : Fs N α) (f : Handle) :
  Frame name f w (w.push f)
  := by
  apply Frame.of_eq (w.dir_push f) _ _ (w.inodeOf_push f)
  · rw [push]
    split
    · rfl
    · rfl
  · rw [push]
    split
    · rfl
    · rfl

theorem inodeOf_fflush (w : Fs N α) (f g : Handle) :
  (w.fflush f).inodeOf g = w.inodeOf g
  := w.inodeOf_push f g

theorem frame_fflush (name : N) (w : Fs N α) (f : Handle) :
  Frame name f w (w.fflush f)
  := (w.frame_push name f).trans (Frame.of_eq rfl rfl rfl fun _ => rfl)

/-- `fclose` takes the file from its handle only. -/
theorem frame_fclose (name : N) (w : Fs N α) (f : Handle) :
  Frame name f w (w.fclose f)
  := by
  apply (w.frame_push name f).trans
  constructor
  · apply le_rfl
  · apply le_rfl
  · intro g hne _
    simp [fclose, record, setStream, inodeOf, hne]
  · intro n i h
    right
    left
    apply h

/-- A file that is opened has its name. -/
theorem isSome_content_of_fopen (w : Fs N α) (name : N) :
  ((w.fopen name true).2.content name).isSome
  := by
  obtain ⟨-, ⟨s, -, hdir⟩, -⟩ := w.fopen_true name
  rw [content, hdir]
  rfl

/-- `fopen` leaves all names of files names of files. -/
theorem isSome_content_fopen {w : Fs N α} {n : N} (h : (w.content n).isSome) (name : N)
    (ok : Bool) :
  ((w.fopen name ok).2.content n).isSome
  := by
  rcases eq_or_ne n name with rfl | hne
  · cases ok with
    | false => apply h
    | true => apply isSome_content_of_fopen
  · rw [content_fopen_of_ne w hne]
    apply h

theorem frame_unlink (name : N) (w : Fs N α) (f : Handle) (n : N) :
  Frame name f w (w.unlink n)
  where
  nextHandle_le := le_rfl
  nextInode_le := le_rfl
  inodeOf_eq _ _ _ := rfl
  dir_of m i h := by
    right
    left
    rcases eq_or_ne m n with rfl | hne
    · simp [unlink] at h
    · simpa [unlink, hne] using h

/-- `remove` gives no file another name. -/
theorem frame_remove (name : N) (w : Fs N α) (f : Handle) (n : N) (ok : Bool) :
  Frame name f w (w.remove n ok).2
  := by
  have h : Frame name f w (if ok && (w.dir n).isSome then w.unlink n else w) := by
    split
    · apply frame_unlink
    · apply frame_refl
  exact h.trans (Frame.of_eq rfl rfl rfl fun _ => rfl)

/-- A file that is renamed had the old name. -/
theorem frame_move (w : Fs N α) (f : Handle) (old new : N) :
  Frame old f w (w.move old new)
  where
  nextHandle_le := le_rfl
  nextInode_le := le_rfl
  inodeOf_eq _ _ _ := rfl
  dir_of n i h := by
    rcases eq_or_ne n new with rfl | hne
    · right
      right
      simpa [move] using h
    · apply (w.frame_unlink old f old).dir_of n i
      simpa [move, hne] using h

theorem frame_rename (w : Fs N α) (f : Handle) (old new : N) (ok : Bool) :
  Frame old f w (w.rename old new ok).2
  := by
  have h : Frame old f w (if ok && (w.dir old).isSome then w.move old new else w) := by
    split
    · apply frame_move
    · apply frame_refl
  exact h.trans (Frame.of_eq rfl rfl rfl fun _ => rfl)

/-- `fopen` makes a new handle, and perhaps a new file. -/
theorem frame_fopen (w : Fs N α) (f : Handle) (name : N) (ok : Bool) :
  Frame name f w (w.fopen name ok).2
  := by
  cases ok with
  | false => exact Frame.of_eq rfl rfl rfl fun _ => rfl
  | true =>
    constructor
    · apply Nat.le_succ
    · apply Nat.le_succ
    · intro g _ hlt
      simp [fopen, inodeOf, Nat.ne_of_lt hlt]
    · intro n i h
      rcases eq_or_ne n name with rfl | hne
      · have hi : w.locate n = i := by simpa [fopen] using h
        rw [locate] at hi
        cases hdir : w.dir n with
        | none =>
          left
          rw [← hi, hdir]
          apply le_rfl
        | some j =>
          right
          left
          rw [← hi, hdir]
          rfl
      · right
        left
        simpa [fopen, hne] using h

/-- The file that a name is opened on. -/
theorem inodeOf_of_fopen {w : Fs N α} {name : N} {ok : Bool} {f : Handle}
    (h : (w.fopen name ok).1 = some f) :
  f = w.nextHandle ∧ (w.fopen name ok).2.nextHandle = f + 1
    ∧ (w.fopen name ok).2.inodeOf f = some (w.locate name)
  := by
  cases ok with
  | false => simp [fopen] at h
  | true =>
    obtain rfl := Option.some.inj h
    use rfl, rfl
    simp [fopen, inodeOf]

/-- A name that is opened is the only name of its file. -/
theorem eq_of_dir_fopen {w : Fs N α} {n name : N} {ok : Bool}
    (h : (w.fopen name ok).2.dir n = some (w.locate name)) :
  n = name
  := by
  rcases eq_or_ne n name with rfl | hne
  · rfl
  · apply eq_of_dir_eq_locate (w := w)
    cases ok with
    | false => apply h
    | true => simpa [fopen, hne] using h

end Fs

end Stdio
