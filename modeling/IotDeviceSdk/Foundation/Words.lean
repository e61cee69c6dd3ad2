import Mathlib.Data.List.Basic
import Mathlib.Tactic.Common

/-!
# Words

Facts about concatenations of lists: how two factorisations of one word compare
(`exists_of_append_eq_append`), where a letter of a word can stand once a letter is added
at the end (`concat_eq_append_cons_iff`), when a word `K` without repeated letters can
slide along itself (`slide_of_nodup`), when the tail of a word after the last letter
outside a set is determined (`append_cons_inj_of_forall`), and what the pieces are that a word
falls into when it is cut at a letter.
-/

namespace Words

variable {α : Type*}

/-- Of two factorisations of one word, the one with the longer first factor refines the
other. -/
theorem exists_of_append_eq_append
    {a b c d : List α} (h : a ++ b = c ++ d) (hl : a.length ≤ c.length) :
  ∃ u, c = a ++ u ∧ b = u ++ d
  := by
  rcases List.append_eq_append_iff.mp h with ⟨u, rfl, rfl⟩ | ⟨u, rfl, rfl⟩
  · exact ⟨u, rfl, rfl⟩
  · have hu : u = [] := by
      apply List.eq_nil_of_length_eq_zero
      simp only [List.length_append] at hl
      omega
    subst hu
    exact ⟨[], by simp, by simp⟩

/-- A letter of `t ++ [e]` is the last one, or a letter of `t`. -/
theorem concat_eq_append_cons_iff {t a b : List α} {e x : α} :
  t ++ [e] = a ++ x :: b
    ↔ (a = t ∧ x = e ∧ b = []) ∨ ∃ b', b = b' ++ [e] ∧ t = a ++ x :: b'
  := by
  constructor
  · intro h
    rcases b.eq_nil_or_concat with rfl | ⟨b', y, rfl⟩
    · left
      obtain ⟨rfl, hx⟩ := List.append_inj' h rfl
      simp_all
    · right
      have h' : t ++ [e] = (a ++ x :: b') ++ [y] := by simpa using h
      obtain ⟨rfl, hy⟩ := List.append_inj' h' rfl
      use b'
      simp_all
  · rintro (⟨rfl, rfl, rfl⟩ | ⟨b', rfl, rfl⟩)
    · rfl
    · simp

/-- A word without repeated letters that overlaps itself does so with the whole word or
with nothing. -/
theorem eq_nil_of_nodup
    {w a v K : List α} (hK : K.Nodup) (hleft : K = w ++ a) (hright : K = a ++ v) :
  w = [] ∨ a = []
  := by
  cases a with
  | nil => exact Or.inr rfl
  | cons x a =>
    cases w with
    | nil => exact Or.inl rfl
    | cons y w =>
      have hxy : y = x := by
        have h := hleft.symm.trans hright
        simp only [List.cons_append, List.cons.injEq] at h
        exact h.1
      rw [hleft, hxy] at hK
      simp at hK

/-- A word `K` without repeated letters slides along itself only past a whole copy of
itself. -/
theorem slide_of_nodup {w v K : List α} (hK : K.Nodup) (h : w ++ K = K ++ v) :
  (w = [] ∧ v = []) ∨ ∃ s, w = K ++ s ∧ v = s ++ K
  := by
  rcases Nat.le_total w.length K.length with hl | hl
  · obtain ⟨a, hleft, hright⟩ := exists_of_append_eq_append h hl
    rcases eq_nil_of_nodup hK hleft hright with rfl | rfl
    · left
      simpa using h
    · right
      rw [List.append_nil] at hleft
      subst hleft
      use []
      simpa using h.symm
  · obtain ⟨s, rfl, rfl⟩ := exists_of_append_eq_append h.symm hl
    right
    exact ⟨s, rfl, rfl⟩

/-- The part of a word after its last letter outside `P` is determined by the word. -/
theorem append_cons_inj_of_forall
    {P : α → Prop} {a a' t t' : List α} {c c' : α} (h : a ++ c :: t = a' ++ c' :: t')
    (ht : ∀ x ∈ t, P x) (hc : ¬ P c) (ht' : ∀ x ∈ t', P x) (hc' : ¬ P c') :
  a = a' ∧ c = c' ∧ t = t'
  := by
  rcases List.append_eq_append_iff.mp h with ⟨u, rfl, hu⟩ | ⟨u, rfl, hu⟩
  · cases u with
    | nil => simpa using hu
    | cons x u =>
      rw [List.cons_append, List.cons.injEq] at hu
      apply absurd (ht c' _) hc'
      rw [hu.2]
      simp
  · cases u with
    | nil => simpa [eq_comm] using hu
    | cons x u =>
      rw [List.cons_append, List.cons.injEq] at hu
      apply absurd (ht' c _) hc
      rw [hu.2]
      simp

/-! ### Pieces -/

/-- A letter that neither the pieces contain nor separates them is not in the word. -/
theorem notMem_intercalate
    {c sep : α} (hsep : c ≠ sep) {ws : List (List α)} (h : ∀ w ∈ ws, c ∉ w) :
  c ∉ [sep].intercalate ws
  := by
  induction ws with
  | nil => simp
  | cons w ws ih =>
    rw [List.forall_mem_cons] at h
    cases ws with
    | nil => simpa using h.1
    | cons u ws =>
      rw [List.intercalate_cons_cons, List.mem_append, List.mem_append, List.mem_singleton]
      rintro ((hw | hc) | hws)
      · apply h.1 hw
      · apply hsep hc
      · apply ih h.2 hws

variable [BEq α]

/-- A word that is cut at a letter falls into one piece more than there are such letters. -/
theorem length_splitOn (c : α) (s : List α) :
  (s.splitOn c).length = s.count c + 1
  := by
  induction s with
  | nil => rfl
  | cons x s ih =>
    rw [List.splitOn_cons_eq_if_modifyHead, List.count_cons]
    split
    · rw [List.length_cons, ih]
    · rw [List.length_modifyHead, ih, Nat.add_zero]

/-- The pieces of a word that is cut at a letter do not contain the letter. -/
theorem notMem_of_mem_splitOn [LawfulBEq α] {c : α} {s w : List α} (h : w ∈ s.splitOn c) :
  c ∉ w
  := by
  induction s generalizing w with
  | nil =>
    rw [List.splitOn_nil, List.mem_singleton] at h
    rw [h]
    apply List.not_mem_nil
  | cons x s ih =>
    rw [List.splitOn_cons_eq_if_modifyHead] at h
    split at h
    · rcases List.mem_cons.mp h with rfl | hw
      · apply List.not_mem_nil
      · apply ih hw
    · next hne =>
      obtain ⟨u, us, hus⟩ := List.exists_cons_of_ne_nil (List.splitOn_ne_nil c s)
      rw [hus] at ih h
      rw [List.modifyHead_cons] at h
      rcases List.mem_cons.mp h with rfl | hw
      · rw [List.mem_cons, not_or]
        constructor
        · rintro rfl
          simp at hne
        · apply ih List.mem_cons_self
      · apply ih (List.mem_cons_of_mem u hw)

end Words
