import IotDeviceSdk.Foundation.Run
import Mathlib.Data.List.Infix

/-!
# Backlogs

In a state that is `Open`, an input `i` adds `out i` to what is pending, or pushes all that is
pending.  So what is pending at the end of a run is the output of its last inputs, back to the
last push (`Buffer.suffix_iff`), and whether anything stays pending for too long is decided by
the pushes alone (`Buffer.aged_iff`).
-/

namespace Backlog

open Run

variable {σ ι α : Type*} {step : σ → ι → σ} {pending : σ → List α} {out : ι → List α}
  {Open : σ → Prop} {Pushes : σ → ι → Prop}

/-- What the steps do to what is pending. -/
structure Buffer (step : σ → ι → σ) (pending : σ → List α) (out : ι → List α)
    (Open : σ → Prop) (Pushes : σ → ι → Prop) : Prop where
  of_pushes : ∀ s i, Open s → Pushes s i → pending (step s i) = []
  of_not_pushes : ∀ s i, Open s → ¬ Pushes s i → pending (step s i) = pending s ++ out i

/-- Without a push, all output stays pending. -/
theorem Buffer.pending_of_quiet
    (h : Buffer step pending out Open Pushes) {s : σ} {is : List ι}
    (hopen : Guarded step (fun s _ => Open s) s is)
    (hquiet : Guarded step (fun s i => ¬ Pushes s i) s is) :
  pending (is.foldl step s) = pending s ++ is.flatMap out
  := by
  induction is generalizing s with
  | nil => simp
  | cons i is ih =>
    rw [List.foldl_cons, ih hopen.2 hquiet.2, h.of_not_pushes s i hopen.1 hquiet.1,
      List.flatMap_cons, List.append_assoc]

/-- After a push, only the output since the last one is pending. -/
theorem Buffer.exists_pending_eq
    (h : Buffer step pending out Open Pushes) {s : σ} {is : List ι}
    (hopen : Guarded step (fun s _ => Open s) s is)
    (hpush : ¬ Guarded step (fun s i => ¬ Pushes s i) s is) :
  ∃ old i new, is = old ++ i :: new ∧ pending (is.foldl step s) = new.flatMap out
  := by
  induction is generalizing s with
  | nil => apply absurd trivial hpush
  | cons i is ih =>
    by_cases hquiet : Guarded step (fun s i => ¬ Pushes s i) (step s i) is
    · have hi : Pushes s i := by
        by_contra hi
        apply hpush ⟨hi, hquiet⟩
      use [], i, is, rfl
      rw [List.foldl_cons, h.pending_of_quiet hopen.2 hquiet, h.of_pushes s i hopen.1 hi,
        List.nil_append]
    · obtain ⟨old, j, new, rfl, hnew⟩ := ih hopen.2 hquiet
      use i :: old, j, new, rfl, hnew

/-- No more than the output after `i` is pending exactly when there was nothing else to push,
or a push from `i` on. -/
theorem Buffer.suffix_iff
    (h : Buffer step pending out Open Pushes) {s : σ} {i : ι} {is : List ι}
    (hopen : Guarded step (fun s _ => Open s) s (i :: is)) :
  pending ((i :: is).foldl step s) <:+ is.flatMap out
    ↔ (pending s = [] ∧ out i = []) ∨ ¬ Guarded step (fun s i => ¬ Pushes s i) s (i :: is)
  := by
  by_cases hquiet : Guarded step (fun s i => ¬ Pushes s i) s (i :: is)
  · rw [or_iff_left (not_not.mpr hquiet), h.pending_of_quiet hopen hquiet, List.flatMap_cons,
      ← List.append_assoc, ← List.append_eq_nil_iff]
    constructor
    · intro hsuffix
      apply List.eq_nil_of_length_eq_zero
      have hlen := hsuffix.length_le
      rw [List.length_append] at hlen
      omega
    · intro hnil
      rw [hnil, List.nil_append]
  · apply iff_of_true _ (Or.inr hquiet)
    obtain ⟨old, j, new, hsplit, hnew⟩ := h.exists_pending_eq hopen hquiet
    rw [hnew]
    have hsuffix : new <:+ is := by
      cases old with
      | nil =>
        obtain ⟨-, rfl⟩ := List.cons.inj hsplit
        apply List.suffix_rfl
      | cons k old =>
        obtain ⟨-, rfl⟩ := List.cons.inj hsplit
        exact ⟨old ++ [j], by simp⟩
    obtain ⟨t, rfl⟩ := hsuffix
    use t.flatMap out
    rw [List.flatMap_append]

/-- What is pending at the end of a run that began with nothing has been so since some input
put it out. -/
theorem Buffer.exists_quiet
    (h : Buffer step pending out Open Pushes) {s : σ} {is : List ι}
    (hopen : Guarded step (fun s _ => Open s) s is) (hnil : pending s = [])
    (hne : pending (is.foldl step s) ≠ []) :
  ∃ pre i post, is = pre ++ i :: post ∧ out i ≠ []
    ∧ Guarded step (fun s i => ¬ Pushes s i) (pre.foldl step s) (i :: post)
  := by
  induction is using List.reverseRecOn with
  | nil => contradiction
  | append_singleton is i ih =>
    obtain ⟨hopen, hi⟩ := guarded_append.mp hopen
    rw [List.foldl_concat] at hne
    have hquiet : ¬ Pushes (is.foldl step s) i := by
      intro hpush
      apply hne (h.of_pushes _ i hi.1 hpush)
    rw [h.of_not_pushes _ i hi.1 hquiet] at hne
    by_cases hout : out i = []
    · rw [hout, List.append_nil] at hne
      obtain ⟨pre, j, post, rfl, hj, hpost⟩ := ih hopen hne
      use pre, j, post ++ [i]
      constructor
      · simp
      · use hj
        rw [← List.cons_append, guarded_append]
        use hpost
        rw [List.foldl_append] at hquiet
        exact ⟨hquiet, trivial⟩
    · use is, i, [], rfl, hout
      exact ⟨hquiet, trivial⟩

/-- `exists_quiet`, if nothing is pushed in a later part of the run either. -/
theorem Buffer.exists_quiet_append
    (h : Buffer step pending out Open Pushes) {s : σ} {is js : List ι}
    (hopen : Guarded step (fun s _ => Open s) s is) (hnil : pending s = [])
    (hne : pending (is.foldl step s) ≠ [])
    (hquiet : Guarded step (fun s i => ¬ Pushes s i) (is.foldl step s) js) :
  ∃ pre i post, is = pre ++ i :: post ∧ out i ≠ []
    ∧ Guarded step (fun s i => ¬ Pushes s i) (pre.foldl step s) (i :: (post ++ js))
  := by
  obtain ⟨pre, i, post, rfl, hi, hpost⟩ := h.exists_quiet hopen hnil hne
  use pre, i, post, rfl, hi
  rw [List.foldl_append] at hquiet
  rw [← List.cons_append]
  apply guarded_append.mpr ⟨hpost, hquiet⟩

/-- `suffix_iff` for a part of a run. -/
theorem Buffer.suffix_iff_append
    (h : Buffer step pending out Open Pushes) {s : σ} {pre : List ι} {i : ι} {is post : List ι}
    (hopen : Guarded step (fun s _ => Open s) s (pre ++ (i :: is ++ post))) :
  pending ((pre ++ i :: is).foldl step s) <:+ is.flatMap out
    ↔ (pending (pre.foldl step s) = [] ∧ out i = [])
      ∨ ¬ Guarded step (fun s i => ¬ Pushes s i) (pre.foldl step s) (i :: is)
  := by
  rw [List.foldl_append]
  apply h.suffix_iff
  apply (guarded_append.mp (guarded_append.mp hopen).2).1

/-- The output of no input `i` is still pending after a later input `c` with `Late i c`,
exactly when all output is pushed in between.  An input is late for whatever came before an
input that it is late for. -/
theorem Buffer.aged_iff
    (h : Buffer step pending out Open Pushes) {s : σ} {is : List ι}
    (hopen : Guarded step (fun s _ => Open s) s is) (hnil : pending s = [])
    {Late : ι → ι → Prop} (hlate : is.Pairwise fun i j => ∀ c, Late j c → Late i c) :
  (∀ pre i mid c post, is = pre ++ i :: (mid ++ c :: post) → Late i c →
      pending ((pre ++ i :: (mid ++ [c])).foldl step s) <:+ (mid ++ [c]).flatMap out)
    ↔ ∀ pre i mid c post, is = pre ++ i :: (mid ++ c :: post) → Late i c → out i ≠ [] →
      ¬ Guarded step (fun s i => ¬ Pushes s i) (pre.foldl step s) (i :: (mid ++ [c]))
  := by
  constructor
  · intro haged pre i mid c post hsplit hic hout
    have hopen' : Guarded step (fun s _ => Open s) s (pre ++ (i :: (mid ++ [c]) ++ post)) := by
      simpa [hsplit] using hopen
    rcases (h.suffix_iff_append hopen').mp (haged pre i mid c post hsplit hic) with
      ⟨-, hnil⟩ | hpush
    · contradiction
    · apply hpush
  · intro hpush pre i mid c post hsplit hic
    have hopen' : Guarded step (fun s _ => Open s) s (pre ++ (i :: (mid ++ [c]) ++ post)) := by
      simpa [hsplit] using hopen
    rw [h.suffix_iff_append hopen']
    by_contra hnot
    rw [not_or, not_not] at hnot
    obtain ⟨hne, hquiet⟩ := hnot
    have hout : out i = [] := by
      by_contra hout
      apply hpush pre i mid c post hsplit hic hout hquiet
    have hpending : pending (pre.foldl step s) ≠ [] := fun hnil => hne ⟨hnil, hout⟩
    obtain ⟨pre, j, post', rfl, hj, hquiet'⟩ :=
      h.exists_quiet_append (guarded_append.mp hopen').1 hnil hpending hquiet
    have hjc : Late j c := by
      rw [hsplit] at hlate
      apply (List.pairwise_append.mp hlate).2.2 j (by simp) i (by simp) c hic
    apply hpush pre j (post' ++ i :: mid) c post (by simp [hsplit]) hjc hj
    simpa using hquiet'

end Backlog
