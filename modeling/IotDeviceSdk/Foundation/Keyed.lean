import Mathlib.Data.List.Basic
import Mathlib.Data.List.Nodup
import Mathlib.Tactic.Common

/-!
# Lists with keys

Every element of a list has a key, and an element is found, changed and removed by its key.
What is done to one key leaves the others alone, and in a list whose keys are distinct an
element that is removed is gone (`find_remove_self`).
-/

namespace Keyed

variable {α κ : Type*} [DecidableEq κ] (key : α → κ)

/-- The keys of a list are distinct. -/
def Distinct (l : List α) : Prop :=
  (l.map key).Nodup

/-- The first element with a key. -/
def find (k : κ) (l : List α) : Option α :=
  l.find? fun a => key a = k

/-- Change the first element with a key. -/
def modify (k : κ) (f : α → α) : List α → List α
  | [] => []
  | a :: l => if key a = k then f a :: l else a :: modify k f l

/-- Remove the first element with a key. -/
def remove (k : κ) : List α → List α
  | [] => []
  | a :: l => if key a = k then l else a :: remove k l

/-- Put an element in the place of the first one with its key, or at the end. -/
def put (a : α) (l : List α) : List α :=
  match find key (key a) l with
  | some _ => modify key (key a) (fun _ => a) l
  | none => l ++ [a]

variable {key} {j k : κ} {f : α → α} {a b : α} {l : List α}

theorem find_cons :
  find key k (a :: l) = if key a = k then some a else find key k l
  := by
  by_cases h : key a = k <;> simp [find, h]

/-- An element that is found has the key. -/
theorem key_of_find (h : find key k l = some a) :
  key a = k
  := by
  have hp := List.find?_some h
  simpa using hp

/-- An element that is found is in the list. -/
theorem mem_of_find (h : find key k l = some a) :
  a ∈ l
  :=
  List.mem_of_find?_eq_some h

/-- Nothing is found exactly when no element has the key. -/
theorem find_eq_none_iff :
  find key k l = none ↔ k ∉ l.map key
  := by
  rw [find, List.find?_eq_none, List.mem_map]
  constructor
  · rintro h ⟨a, ha, hk⟩
    apply h a ha
    simpa using hk
  · intro h a ha hk
    apply h ⟨a, ha, by simpa using hk⟩

theorem find_concat :
  find key k (l ++ [a]) = (find key k l).or (if key a = k then some a else none)
  := by
  rw [find, List.find?_append]
  by_cases h : key a = k <;> simp [find, h]

/-- An element at the end that is the first with its key. -/
theorem find_concat_self (ha : key a = k) (h : find key k l = none) :
  find key k (l ++ [a]) = some a
  := by
  rw [find_concat, h, if_pos ha]
  rfl

/-- An element at the end does not matter to other keys. -/
theorem find_concat_of_ne (ha : key a = k) (h : j ≠ k) :
  find key j (l ++ [a]) = find key j l
  := by
  rw [find_concat, if_neg (fun hj => h (hj.symm.trans ha)), Option.or_none]

/-- A function that keeps the keys may be applied before an element is found, or after it. -/
theorem find_map {f : α → α} (hf : ∀ a, key (f a) = key a) :
  find key k (l.map f) = (find key k l).map f
  := by
  induction l with
  | nil => rfl
  | cons b l ih =>
    rw [List.map_cons, find_cons, find_cons, hf]
    split
    · rfl
    · apply ih

/-- An element with a new key may be put at the end. -/
theorem Distinct.concat (hl : Distinct key l) (ha : key a = k) (h : find key k l = none) :
  Distinct key (l ++ [a])
  := by
  subst ha
  rw [Distinct, List.map_append, List.map_singleton, List.nodup_append]
  refine ⟨hl, List.nodup_singleton _, ?_⟩
  intro j hj i hi hji
  rw [List.mem_singleton] at hi
  subst hji hi
  apply find_eq_none_iff.mp h hj

/-- The element that was changed is found. -/
theorem find_modify_self (h : find key k l = some a) (hf : key (f a) = k) :
  find key k (modify key k f l) = some (f a)
  := by
  induction l with
  | nil => contradiction
  | cons b l ih =>
    rw [find_cons] at h
    rw [modify]
    split at h
    · rename_i hb
      obtain rfl := Option.some.inj h
      rw [if_pos hb, find_cons, if_pos hf]
    · rename_i hb
      rw [if_neg hb, find_cons, if_neg hb, ih h]

/-- A change that keeps a key keeps all keys. -/
theorem map_modify (hf : ∀ a, key a = k → key (f a) = k) :
  (modify key k f l).map key = l.map key
  := by
  induction l with
  | nil => rfl
  | cons b l ih =>
    rw [modify]
    split
    · rename_i hb
      rw [List.map_cons, List.map_cons, hf b hb, hb]
    · rw [List.map_cons, List.map_cons, ih]

theorem Distinct.modify (hl : Distinct key l) (hf : ∀ a, key a = k → key (f a) = k) :
  Distinct key (modify key k f l)
  := by
  rw [Distinct, map_modify hf]
  apply hl

/-- A change does not matter to other keys. -/
theorem find_modify_of_ne (hf : ∀ a, key a = k → key (f a) = k) (h : j ≠ k) :
  find key j (modify key k f l) = find key j l
  := by
  induction l with
  | nil => rfl
  | cons b l ih =>
    rw [modify]
    split
    · rename_i hb
      have hbj : key b ≠ j := fun hj => h (hj.symm.trans hb)
      have hfj : key (f b) ≠ j := fun hj => h (hj.symm.trans (hf b hb))
      rw [find_cons, find_cons, if_neg hbj, if_neg hfj]
    · rw [find_cons, find_cons, ih]

/-- What is left after a removal was there before. -/
theorem remove_sublist :
  (remove key k l).Sublist l
  := by
  induction l with
  | nil => apply List.Sublist.refl
  | cons b l ih =>
    rw [remove]
    split
    · apply List.sublist_cons_self
    · apply List.Sublist.cons_cons b ih

theorem Distinct.remove (hl : Distinct key l) :
  Distinct key (remove key k l)
  :=
  List.Nodup.sublist (remove_sublist.map key) hl

/-- A removal does not matter to other keys. -/
theorem find_remove_of_ne (h : j ≠ k) :
  find key j (remove key k l) = find key j l
  := by
  induction l with
  | nil => rfl
  | cons b l ih =>
    rw [remove]
    split
    · rename_i hb
      rw [find_cons, if_neg (fun hj => h (hj.symm.trans hb))]
    · rw [find_cons, find_cons, ih]

/-- When keys are distinct, the key that was removed is gone. -/
theorem find_remove_self (hl : Distinct key l) :
  find key k (remove key k l) = none
  := by
  induction l with
  | nil => rfl
  | cons b l ih =>
    obtain ⟨hb, hl⟩ := List.nodup_cons.mp hl
    rw [remove]
    split
    · rename_i hk
      rw [find_eq_none_iff, ← hk]
      apply hb
    · rename_i hk
      rw [find_cons, if_neg hk, ih hl]

/-- The element that was put is found. -/
theorem find_put_self :
  find key (key a) (put key a l) = some a
  := by
  rw [put]
  split
  · rename_i b hb
    apply find_modify_self hb rfl
  · rename_i hnone
    apply find_concat_self rfl hnone

/-- It does not matter to other keys. -/
theorem find_put_of_ne (h : j ≠ key a) :
  find key j (put key a l) = find key j l
  := by
  rw [put]
  split
  · apply find_modify_of_ne (fun _ _ => rfl) h
  · apply find_concat_of_ne rfl h

theorem Distinct.put (hl : Distinct key l) :
  Distinct key (put key a l)
  := by
  rw [Keyed.put]
  split
  · apply hl.modify (fun _ _ => rfl)
  · rename_i hnone
    apply hl.concat rfl hnone

/-- Only the first element with the key is changed. -/
theorem mem_modify (h : b ∈ modify key k f l) :
  b ∈ l ∨ ∃ a, find key k l = some a ∧ b = f a
  := by
  induction l with
  | nil => contradiction
  | cons c l ih =>
    rw [modify] at h
    split at h
    · rename_i hc
      rcases List.mem_cons.mp h with rfl | h
      · exact .inr ⟨c, by rw [find_cons, if_pos hc], rfl⟩
      · exact .inl (List.mem_cons_of_mem c h)
    · rename_i hc
      rcases List.mem_cons.mp h with rfl | h
      · exact .inl List.mem_cons_self
      · rcases ih h with h | ⟨a, ha, rfl⟩
        · exact .inl (List.mem_cons_of_mem c h)
        · exact .inr ⟨a, by rw [find_cons, if_neg hc, ha], rfl⟩

/-- All elements but the one that was put were there before. -/
theorem mem_put (h : b ∈ put key a l) :
  b ∈ l ∨ b = a
  := by
  rw [put] at h
  split at h
  · rcases mem_modify h with h | ⟨_, _, rfl⟩
    · exact .inl h
    · exact .inr rfl
  · rcases List.mem_append.mp h with h | h
    · exact .inl h
    · exact .inr (List.mem_singleton.mp h)

/-- What is made of the elements of a list with distinct keys, when only those with one key
matter. -/
theorem filterMap_eq_of_distinct {β : Type*} {g : α → Option β} (hl : Distinct key l)
    (hg : ∀ a, key a ≠ k → g a = none) :
  l.filterMap g = ((find key k l).bind g).toList
  := by
  induction l with
  | nil => rfl
  | cons b l ih =>
    obtain ⟨hb, hl⟩ := List.nodup_cons.mp hl
    by_cases hk : key b = k
    · have hnone : find key k l = none := by
        rw [find_eq_none_iff, ← hk]
        apply hb
      have hrest : l.filterMap g = [] := by
        rw [ih hl, hnone]
        rfl
      rw [find_cons, if_pos hk, List.filterMap_cons, hrest, Option.bind_some]
      cases g b <;> rfl
    · rw [find_cons, if_neg hk, List.filterMap_cons_none (hg b hk), ih hl]

end Keyed
