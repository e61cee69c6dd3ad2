import IotDeviceSdk.Baselib.RollingFileLogger.Handles

/-!
# Rotations that fail

A rotation closes the log file, removes the old file and renames the log file, in this
order.  When the renaming fails, the log file keeps all that was written to it, and the
old file is gone if it could be removed.
-/

namespace RollingFileLogger

open CString

/-- The handle of the logger, if its stream is open at all, is open on the log file. -/
def Placed (s : Session) : Prop :=
  ∀ f d, s.1.pfLogFile = some f → s.2.written f = some d → s.2.OpenOn f s.1.strFilename

theorem placed_construct (pszFilename : Option (List UInt8)) (o : OpenOutcomes)
    (files : List UInt8 → Option (List UInt8)) :
  Placed (construct pszFilename o (Stdio.Fs.boot files))
  := by
  intro f d hf _
  have htidy := tidy_construct pszFilename o (w := Stdio.Fs.boot files) HandleTrace.owns_nil
  apply htidy.openOn f hf

/-- Every call keeps the stream of the logger on the log file, whatever the outcomes. -/
theorem Placed.step {s : Session} (h : Placed s) (c : LogCall) :
  Placed (step s c)
  := by
  rw [RollingFileLogger.step]
  cases hf : s.1.pfLogFile with
  | none =>
    rw [logData_of_null hf]
    apply h
  | some f =>
    rw [logData_of_open hf]
    split
    · next hover =>
      cases hrename : ((s.1.write f c.data c.outcomes s.2).1.renameLog f c.outcomes
          (s.1.write f c.data c.outcomes s.2).2).1 with
      | true =>
        rw [rotate_of_renamed hrename]
        intro g d hg _
        apply Stdio.Fs.OpenOn.of_fopen hg
      | false =>
        rw [rotate_of_not_renamed hrename]
        intro g d hg hd
        obtain rfl := Option.some.inj (hf.symm.trans hg)
        rw [written_renameLog] at hd
        contradiction
    · intro g d hg hd
      obtain rfl := Option.some.inj (hf.symm.trans hg)
      rw [written_write] at hd
      obtain ⟨d', hd', -⟩ := Option.map_eq_some_iff.mp hd
      apply openOn_write (h f d' hf hd')

theorem placed_run {s : Session} (h : Placed s) (cs : List LogCall) :
  Placed (run s cs)
  := Run.invariant (fun _ c hs => hs.step c) h cs

/-- The files after a call whose rotation fails. -/
theorem content_of_rotationFails
    {s : Session} {f : Stdio.Handle} {d : List UInt8} (h : Placed s)
    (hf : s.1.pfLogFile = some f) (hd : s.2.written f = some d) {c : LogCall}
    (hc : RotationFails s c) (n : List UInt8) :
  (step s c).2.content n
    = if n = s.1.strFilename then some (d ++ c.data.take c.outcomes.fwrite)
      else if n = oldFile s.1.strFilename ∧ c.outcomes.remove then none
      else s.2.content n
  := by
  obtain ⟨-, hover, hrename⟩ := hc
  have hopen := h f d hf hd
  have hwrite := openOn_write hopen s.1 c.data c.outcomes
  rw [step]
  rw [logData_of_open hf, if_pos hover,
    rotate_of_not_renamed (renameLog_fst_of_fails hrename _ f _)]
  apply Eq.trans (content_renameLog_of_fails hwrite hrename n)
  rw [written_write, hd]
  rcases eq_or_ne n s.1.strFilename with rfl | hn
  · simp
  · rw [content_write_of_ne hopen hn]
    rfl

/-- After a rotation that fails in any reachable state with an open log, the log file holds
all that was written to it, the accepted part of the new message included; the old file is
gone if it could be removed and as it was otherwise; and no other file has changed. -/
theorem files_after_failed_rotation
    (pszFilename : Option (List UInt8)) (o : OpenOutcomes)
    (files : List UInt8 → Option (List UInt8)) (cs : List LogCall) (c : LogCall)
    (f : Stdio.Handle) (d : List UInt8)
    (hf : (run (construct pszFilename o (Stdio.Fs.boot files)) cs).1.pfLogFile = some f)
    (hd : (run (construct pszFilename o (Stdio.Fs.boot files)) cs).2.written f = some d)
    (hover : maxLogFileSize
      < (run (construct pszFilename o (Stdio.Fs.boot files)) cs).1.sizeAfter c.data)
    (hrename : c.outcomes.rename = false) :
  let s := run (construct pszFilename o (Stdio.Fs.boot files)) cs
  let w := (step s c).2
  w.content s.1.strFilename = some (d ++ c.data.take c.outcomes.fwrite)
    ∧ w.content (oldFile s.1.strFilename)
      = (if c.outcomes.remove then none else s.2.content (oldFile s.1.strFilename))
    ∧ ∀ n, n ≠ s.1.strFilename → n ≠ oldFile s.1.strFilename → w.content n = s.2.content n
  := by
  intro s w
  have hplaced : Placed s := placed_run (placed_construct pszFilename o files) cs
  have hc : RotationFails s c := by
    constructor
    · rw [hf]
      nofun
    · exact ⟨hover, hrename⟩
  have hcontent := content_of_rotationFails hplaced hf hd hc
  constructor
  · rw [hcontent, if_pos rfl]
  · constructor
    · rw [hcontent, if_neg (oldFile_ne _)]
      simp
    · intro n hlog hold
      rw [hcontent, if_neg hlog, if_neg (fun h => hold h.1)]

/-- There is an old file, but no log file. -/
def backupOnly : List UInt8 → Option (List UInt8) :=
  fun n => if n = ascii "test.log.old" then some [1] else none

/-- The hypotheses of `files_after_failed_rotation` are met by an oversized message that is
the first one of a new log. -/
theorem files_after_oversizedCall :
  let s := run (construct (some (ascii "test.log")) ⟨true, true, true, true, true⟩
    (Stdio.Fs.boot backupOnly)) []
  let w := (step s oversizedCall).2
  w.content s.1.strFilename = some ([] ++ oversizedCall.data.take oversizedCall.outcomes.fwrite)
    ∧ w.content (oldFile s.1.strFilename)
      = (if oversizedCall.outcomes.remove then none else s.2.content (oldFile s.1.strFilename))
    ∧ ∀ n, n ≠ s.1.strFilename → n ≠ oldFile s.1.strFilename → w.content n = s.2.content n
  := by
  apply files_after_failed_rotation (some (ascii "test.log")) ⟨true, true, true, true, true⟩
    backupOnly [] oversizedCall 0 []
  · rfl
  · decide
  · rw [sizeAfter, oversizedCall, List.length_replicate]
    decide
  · rfl

/-- A logger with an open log and an old file that receives one oversized message loses the
old file when it can be removed but the log file cannot be renamed. -/
theorem backup_lost :
  let s := construct (some (ascii "test.log")) ⟨true, true, true, true, true⟩
    (Stdio.Fs.boot backupOnly)
  s.1.pfLogFile = some 0 ∧ s.2.written 0 = some []
    ∧ RotationFails s oversizedCall
    ∧ s.2.content (ascii "test.log.old") = some [1]
    ∧ (step s oversizedCall).2.content (ascii "test.log.old") = none
  := by
  intro s
  have hf : s.1.pfLogFile = some 0 := by rfl
  have hd : s.2.written 0 = some [] := by decide
  have hc : RotationFails s oversizedCall := by
    constructor
    · rw [hf]
      nofun
    · constructor
      · rw [sizeAfter, oversizedCall, List.length_replicate]
        decide
      · rfl
  have hplaced : Placed s := placed_construct _ _ backupOnly
  use hf, hd, hc
  constructor
  · decide
  · rw [content_of_rotationFails hplaced hf hd hc, if_neg (by decide), if_pos]
    exact ⟨by decide, rfl⟩

end RollingFileLogger
