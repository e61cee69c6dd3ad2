import Mathlib.Data.List.Basic
import Mathlib.Tactic.Common

/-!
# Runs

The run of a step function `step` from a state `s` on inputs `is` is `is.foldl step s`.
It is guarded by `G` when `G` holds of every input and the state that receives it.  An
invariant that guarded steps keep holds at the end of every guarded run
(`Guarded.invariant`).
-/

namespace Run

variable {σ ι : Type*} {step : σ → ι → σ} {G : σ → ι → Prop}

/-- Every input of the run from `s` satisfies `G` at the state that receives it. -/
def Guarded (step : σ → ι → σ) (G : σ → ι → Prop) : σ → List ι → Prop
  | _, [] => True
  | s, i :: is => G s i ∧ Guarded step G (step s i) is

/-- A run is guarded when `G` holds at every point of it. -/
theorem guarded_iff {s : σ} {is : List ι} :
  Guarded step G s is ↔ ∀ pre i post, is = pre ++ i :: post → G (pre.foldl step s) i
  := by
  induction is generalizing s with
  | nil => simp [Guarded]
  | cons i is ih =>
    rw [Guarded, ih]
    constructor
    · rintro ⟨hi, his⟩ pre j post h
      cases pre with
      | nil =>
        obtain ⟨rfl, -⟩ := List.cons.inj h
        apply hi
      | cons k pre =>
        obtain ⟨rfl, htail⟩ := List.cons.inj h
        apply his pre j post htail
    · intro h
      constructor
      · apply h [] i is rfl
      · intro pre j post hpost
        apply h (i :: pre) j post
        rw [hpost, List.cons_append]

theorem guarded_append {s : σ} {is js : List ι} :
  Guarded step G s (is ++ js) ↔ Guarded step G s is ∧ Guarded step G (is.foldl step s) js
  := by
  induction is generalizing s with
  | nil => simp [Guarded]
  | cons i is ih => rw [List.cons_append, Guarded, Guarded, ih, and_assoc, List.foldl_cons]

/-- A run in which something happens, at some point of it. -/
theorem not_guarded_not_iff {s : σ} {is : List ι} :
  ¬ Guarded step (fun s i => ¬ G s i) s is
    ↔ ∃ pre i post, is = pre ++ i :: post ∧ G (pre.foldl step s) i
  := by
  rw [guarded_iff]
  push Not
  rfl

/-- An invariant that guarded steps keep holds at the end of a guarded run. -/
theorem Guarded.invariant
    {I : σ → Prop} (hstep : ∀ s i, I s → G s i → I (step s i)) {s : σ} {is : List ι}
    (hs : I s) (hG : Guarded step G s is) :
  I (is.foldl step s)
  := by
  induction is generalizing s with
  | nil => apply hs
  | cons i is ih => apply ih (hstep s i hs hG.1) hG.2

/-- Guards that agree wherever an invariant holds guard the same runs. -/
theorem guarded_iff_guarded
    {I : σ → Prop} {G' : σ → ι → Prop} {is : List ι}
    (hiff : ∀ s, ∀ i ∈ is, I s → (G s i ↔ G' s i))
    (hstep : ∀ s, ∀ i ∈ is, I s → G' s i → I (step s i)) {s : σ} (hs : I s) :
  Guarded step G s is ↔ Guarded step G' s is
  := by
  induction is generalizing s with
  | nil => rfl
  | cons i is ih =>
    rw [Guarded, Guarded, hiff s i List.mem_cons_self hs]
    apply and_congr_right
    intro hi
    apply ih
    · intro t j hj
      apply hiff t j (List.mem_cons_of_mem i hj)
    · intro t j hj
      apply hstep t j (List.mem_cons_of_mem i hj)
    · apply hstep s i List.mem_cons_self hs hi

/-- An invariant that every step keeps holds at the end of every run. -/
theorem invariant
    {I : σ → Prop} (hstep : ∀ s i, I s → I (step s i)) {s : σ} (hs : I s) (is : List ι) :
  I (is.foldl step s)
  := by
  induction is generalizing s with
  | nil => apply hs
  | cons i is ih => apply ih (hstep s i hs)

end Run
