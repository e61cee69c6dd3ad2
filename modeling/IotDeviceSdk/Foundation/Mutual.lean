import Mathlib.Data.List.Basic
import Mathlib.Tactic.Common

/-!
# Lists of related elements

`Mutually R as` says that elements at different places of the list `as` are related by `R`,
whichever of them comes first.  It is kept when an element is replaced or added that is related
to the others (`Mutually.set`, `Mutually.concat`).
-/

namespace Mutual

variable {α : Type*} {R S : α → α → Prop} {as : List α}

/-- Elements at different places are related. -/
def Mutually (R : α → α → Prop) (as : List α) : Prop :=
  ∀ (i j : ℕ) a b, as[i]? = some a → as[j]? = some b → i ≠ j → R a b

theorem mutually_nil :
  Mutually R []
  := by
  intro i j a b ha
  simp at ha

/-- The elements of a list of which one has been replaced. -/
theorem getElem?_set_cases {k j : ℕ} {a b : α} (h : (as.set k a)[j]? = some b) :
  (j = k ∧ b = a) ∨ (j ≠ k ∧ as[j]? = some b)
  := by
  rw [List.getElem?_set] at h
  split_ifs at h with hjk
  · left
    exact ⟨hjk.symm, (Option.some.inj h).symm⟩
  · right
    exact ⟨Ne.symm hjk, h⟩

/-- The elements of a list to which one has been added. -/
theorem getElem?_concat_cases {j : ℕ} {a b : α} (h : (as ++ [a])[j]? = some b) :
  (j = as.length ∧ b = a) ∨ as[j]? = some b
  := by
  rw [List.getElem?_append] at h
  split_ifs at h with hlt
  · right
    apply h
  · left
    rw [List.getElem?_singleton] at h
    split_ifs at h with hzero
    constructor
    · omega
    · exact (Option.some.inj h).symm

/-- Replacing an element by one that is related to the others. -/
theorem Mutually.set
    (h : Mutually R as) (hsymm : ∀ a b, S a b → S b a) {k : ℕ} {a : α}
    (hself : ∀ (j : ℕ) b, as[j]? = some b → j ≠ k → S a b)
    (hothers : ∀ (i j : ℕ) b c, as[i]? = some b → as[j]? = some c → i ≠ k → j ≠ k →
      R b c → S b c) :
  Mutually S (as.set k a)
  := by
  intro i j b c hb hc hij
  rcases getElem?_set_cases hb with ⟨hik, rfl⟩ | ⟨hik, hb'⟩
  · rcases getElem?_set_cases hc with ⟨hjk, -⟩ | ⟨hjk, hc'⟩
    · apply absurd (hik.trans hjk.symm) hij
    · apply hself j c hc' hjk
  · rcases getElem?_set_cases hc with ⟨-, rfl⟩ | ⟨hjk, hc'⟩
    · apply hsymm
      apply hself i b hb' hik
    · apply hothers i j b c hb' hc' hik hjk
      apply h i j b c hb' hc' hij

/-- Adding an element that is related to the others. -/
theorem Mutually.concat
    (h : Mutually R as) (hsymm : ∀ a b, S a b → S b a) {a : α}
    (hself : ∀ (j : ℕ) b, as[j]? = some b → S a b)
    (hothers : ∀ (i j : ℕ) b c, as[i]? = some b → as[j]? = some c → R b c → S b c) :
  Mutually S (as ++ [a])
  := by
  intro i j b c hb hc hij
  rcases getElem?_concat_cases hb with ⟨hi, rfl⟩ | hb'
  · rcases getElem?_concat_cases hc with ⟨hj, -⟩ | hc'
    · apply absurd (hi.trans hj.symm) hij
    · apply hself j c hc'
  · rcases getElem?_concat_cases hc with ⟨-, rfl⟩ | hc'
    · apply hsymm
      apply hself i b hb'
    · apply hothers i j b c hb' hc'
      apply h i j b c hb' hc' hij

end Mutual
