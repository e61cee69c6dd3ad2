import Mathlib.Data.List.Basic
import Mathlib.Tactic.Common

/-!
# Framing

A `Format` says how a text is cut into frames: what the front of a text is, a frame, the
beginning of a frame, or nothing that could become one.  `split` cuts off frames for as long as
there are any.  A text that comes in pieces is cut the same way piece by piece, as long as the
part after the last frame is kept (`split_append`), and the frames that were written one after
another are cut where one of them ends (`split_written`).
-/

namespace Framing

variable {α β γ : Type*}

/-- What is at the front of a text. -/
inductive Front (α β : Type*) where
  | more
  | bad
  | frame (b : β) (rest : List α)

/-- A format of frames: what is at the front of a text does not change when more text comes,
and a frame is not empty. -/
structure Format (α β : Type*) where
  next : List α → Front α β
  next_append : ∀ {s b rest} (t), next s = .frame b rest → next (s ++ t) = .frame b (rest ++ t)
  bad_append : ∀ {s} (t), next s = .bad → next (s ++ t) = .bad
  shorter : ∀ {s b rest}, next s = .frame b rest → rest.length < s.length

variable (F : Format α β)

namespace Format

/-- The frames of a text, and what is left of it. -/
def split (s : List α) : List β × List α :=
  match h : F.next s with
  | .frame b rest =>
    have := F.shorter h
    (b :: (split rest).1, (split rest).2)
  | _ => ([], s)
termination_by s.length

variable {F}

theorem split_frame {s rest : List α} {b : β} (h : F.next s = .frame b rest) :
  F.split s = (b :: (F.split rest).1, (F.split rest).2)
  := by
  rw [split]
  split
  · rename_i b' rest' h'
    obtain ⟨rfl, rfl⟩ := Front.frame.inj (h'.symm.trans h)
    rfl
  · rename_i hne
    exact absurd h (hne b rest)

theorem split_of_ne {s : List α} (h : ∀ b rest, F.next s ≠ .frame b rest) :
  F.split s = ([], s)
  := by
  rw [split]
  split
  · rename_i b rest h'
    exact absurd h' (h b rest)
  · rfl

/-- A text that is only the beginning of a frame has no frame. -/
theorem split_more {s : List α} (h : F.next s = .more) :
  F.split s = ([], s)
  := by
  apply split_of_ne
  intro b rest h'
  rw [h] at h'
  contradiction

/-- A text that is one frame. -/
theorem split_single {s : List α} {b : β} (h : F.next s = .frame b []) (h0 : F.next [] = .more) :
  F.split s = ([b], [])
  := by
  rw [split_frame h, split_more h0]

/-- A text that comes in two pieces is cut like the whole. -/
theorem split_append (s t : List α) :
  F.split (s ++ t)
    = ((F.split s).1 ++ (F.split ((F.split s).2 ++ t)).1, (F.split ((F.split s).2 ++ t)).2)
  := by
  induction hn : s.length using Nat.strongRecOn generalizing s with
  | ind n ih =>
    subst hn
    by_cases hf : ∃ b rest, F.next s = .frame b rest
    · obtain ⟨b, rest, h⟩ := hf
      rw [split_frame h, split_frame (F.next_append t h), ih rest.length (F.shorter h) rest rfl]
      rfl
    · have hne : ∀ b rest, F.next s ≠ .frame b rest := fun b rest h => hf ⟨b, rest, h⟩
      rw [split_of_ne hne]
      rfl

/-- Frames written one after another are the frames of the text, up to where the writing stops. -/
theorem split_written {write : γ → List α} {frame : γ → β} {items : List γ}
    (hwrite : ∀ x ∈ items, ∀ t, F.next (write x ++ t) = .frame (frame x) t) (t : List α) :
  F.split ((items.map write).flatten ++ t)
    = (items.map frame ++ (F.split t).1, (F.split t).2)
  := by
  induction items with
  | nil => rfl
  | cons x items ih =>
    have hx := hwrite x List.mem_cons_self ((items.map write).flatten ++ t)
    rw [List.map_cons, List.flatten_cons, List.append_assoc, split_frame hx,
      ih fun y hy => hwrite y (List.mem_cons_of_mem x hy)]
    rfl

end Format

end Framing
