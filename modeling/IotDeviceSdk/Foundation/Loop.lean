import Mathlib.Data.Nat.Notation
import Mathlib.Tactic.Common

/-!
# Loops that may not end

The body of a loop takes a state either to another state, with which the loop goes on, or to a
result, with which it ends.  A loop may go on for ever: `run` is given the number of rounds, and
the loop ends when some number of rounds is enough.
-/

namespace Loop

variable {σ α : Type*}

/-- The result of a loop, if it ends in so many rounds. -/
def run (body : σ → σ ⊕ α) : ℕ → σ → Option α
  | 0, _ => none
  | n + 1, s =>
    match body s with
    | .inl s' => run body n s'
    | .inr a => some a

/-- The loop ends, with the result `a`. -/
def Ends (body : σ → σ ⊕ α) (s : σ) (a : α) : Prop :=
  ∃ n, run body n s = some a

variable {body : σ → σ ⊕ α} {s s' : σ} {a : α}

theorem ends_of_inr (h : body s = .inr a) :
  Ends body s a
  := by
  use 1
  rw [run, h]

/-- A round that goes on leaves the result to the rounds that follow. -/
theorem ends_iff_of_inl (h : body s = .inl s') :
  Ends body s a ↔ Ends body s' a
  := by
  constructor
  · rintro ⟨n, hn⟩
    cases n with
    | zero => contradiction
    | succ n =>
      rw [run, h] at hn
      use n, hn
  · rintro ⟨n, hn⟩
    use n + 1
    rw [run, h]
    apply hn

/-- A loop does not end in an invariant whose states all go on. -/
theorem not_ends_of_invariant
    {inv : σ → Prop} (hinv : ∀ s, inv s → ∃ s', body s = .inl s' ∧ inv s') (hs : inv s) :
  ¬ Ends body s a
  := by
  rintro ⟨n, hn⟩
  induction n generalizing s with
  | zero => contradiction
  | succ n ih =>
    obtain ⟨s', hbody, hs'⟩ := hinv s hs
    rw [run, hbody] at hn
    apply ih hs' hn

end Loop
