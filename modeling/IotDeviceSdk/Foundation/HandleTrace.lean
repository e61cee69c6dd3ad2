import IotDeviceSdk.Foundation.Words
import Mathlib.Data.List.Count
import Mathlib.Tactic.Common

/-!
# Traces of a handle discipline

A trace is a list of events, oldest first, each of which acquires, uses or releases a
handle.  `UsesLive` says that every use and every release is of a handle acquired before
and not released since, `ReleasedOnce` that every handle acquired is released exactly
once.  `Owns t held` is the invariant of an owner that keeps at most one handle: `held`
is the only live handle of `t`.  An owner that ends with no handle has a disciplined
trace (`Owns.disciplined`), and a trace that touches a dead handle is past repair
(`not_usesLive_of_dead`).
-/

namespace HandleTrace

/-- An event on a handle. -/
inductive Event (H : Type*) where
  | acquire (h : H)
  | use (h : H)
  | release (h : H)
  deriving DecidableEq

variable {H : Type*}

/-- The event uses or releases the handle `h`. -/
def Event.Touches (e : Event H) (h : H) : Prop :=
  e = .use h ∨ e = .release h

/-- The handle `h` is acquired in `t` and not released since. -/
def Live (t : List (Event H)) (h : H) : Prop :=
  ∃ a b, t = a ++ .acquire h :: b ∧ .release h ∉ b

/-- Every use and every release in `t` is of a handle that is live at that point. -/
def UsesLive (t : List (Event H)) : Prop :=
  ∀ a e b, t = a ++ e :: b → ∀ h, e.Touches h → Live a h

/-- Every handle acquired in `t` is released exactly once. -/
def ReleasedOnce [DecidableEq H] (t : List (Event H)) : Prop :=
  ∀ h, .acquire h ∈ t → t.count (.release h) = 1

/-- Handles are used and released only while they are live, and every handle acquired is
released exactly once. -/
def Disciplined [DecidableEq H] (t : List (Event H)) : Prop :=
  UsesLive t ∧ ReleasedOnce t

/-! ### Extending a trace -/

theorem not_live_nil (h : H) :
  ¬ Live [] h
  := by
  rintro ⟨a, b, hab, -⟩
  simp at hab

/-- A handle is live after one more event when the event acquires it, or when it was
live and is not released. -/
theorem live_concat_iff {t : List (Event H)} {e : Event H} {h : H} :
  Live (t ++ [e]) h ↔ e = .acquire h ∨ (Live t h ∧ e ≠ .release h)
  := by
  constructor
  · rintro ⟨a, b, hab, hb⟩
    rcases Words.concat_eq_append_cons_iff.mp hab with ⟨-, he, -⟩ | ⟨b', rfl, rfl⟩
    · exact Or.inl he.symm
    · right
      simp only [List.mem_append, List.mem_singleton, not_or] at hb
      exact ⟨⟨a, b', rfl, hb.1⟩, Ne.symm hb.2⟩
  · rintro (rfl | ⟨⟨a, b, rfl, hb⟩, hne⟩)
    · exact ⟨t, [], rfl, by simp⟩
    · use a, b ++ [e]
      simp [hb, Ne.symm hne]

/-- A live handle has been acquired. -/
theorem Live.mem {t : List (Event H)} {h : H} (hl : Live t h) :
  .acquire h ∈ t
  := by
  obtain ⟨a, b, rfl, -⟩ := hl
  simp

theorem usesLive_nil :
  UsesLive ([] : List (Event H))
  := by
  intro a e b hab
  simp at hab

/-- One more event keeps to live handles when the handle it touches is live. -/
theorem usesLive_concat_iff {t : List (Event H)} {e : Event H} :
  UsesLive (t ++ [e]) ↔ UsesLive t ∧ ∀ h, e.Touches h → Live t h
  := by
  constructor
  · intro hu
    constructor
    · intro a x b hab
      apply hu a x (b ++ [e])
      simp [hab]
    · apply hu t e []
      rfl
  · rintro ⟨hu, he⟩ a x b hab
    rcases Words.concat_eq_append_cons_iff.mp hab with ⟨rfl, rfl, -⟩ | ⟨b', -, rfl⟩
    · exact he
    · exact hu a x b' rfl

/-- A handle that a disciplined trace touches has been acquired in it. -/
theorem UsesLive.acquire_mem
    {t : List (Event H)} (hu : UsesLive t) {e : Event H} {h : H} (he : e ∈ t)
    (ht : e.Touches h) :
  .acquire h ∈ t
  := by
  obtain ⟨a, b, rfl⟩ := List.append_of_mem he
  apply List.mem_append_left
  exact (hu a e b rfl h ht).mem

/-- Touching a dead handle breaks the discipline, whatever follows. -/
theorem not_usesLive_of_dead
    {t u : List (Event H)} {e : Event H} {h : H} (ht : e.Touches h) (hd : ¬ Live t h) :
  ¬ UsesLive (t ++ e :: u)
  := by
  intro hu
  apply hd
  exact hu t e u rfl h ht

/-! ### An owner of one handle -/

/-- The trace `t` is that of an owner whose only live handle is `held`. -/
structure Owns [DecidableEq H] (t : List (Event H)) (held : Option H) : Prop where
  /-- only live handles have been touched -/
  usesLive : UsesLive t
  /-- the live handle is the one held -/
  live_iff : ∀ h, Live t h ↔ held = some h
  /-- the handles not held have been released once, the one held not yet -/
  count_release : ∀ h, .acquire h ∈ t → t.count (.release h) = if held = some h then 0 else 1

variable [DecidableEq H]

theorem owns_nil :
  Owns ([] : List (Event H)) none
  where
  usesLive := usesLive_nil
  live_iff h := by simp [not_live_nil]
  count_release h := by simp

/-- An owner without a handle may acquire a new one. -/
theorem Owns.acquire
    {t : List (Event H)} (ho : Owns t none) {h : H} (hnew : .acquire h ∉ t) :
  Owns (t ++ [.acquire h]) (some h)
  where
  usesLive := by
    apply usesLive_concat_iff.mpr
    constructor
    · exact ho.usesLive
    · rintro g (hg | hg) <;> simp at hg
  live_iff g := by
    simp [live_concat_iff, ho.live_iff]
  count_release g hg := by
    have hrel : .release h ∉ t := by
      intro hmem
      apply hnew
      exact ho.usesLive.acquire_mem hmem (Or.inr rfl)
    by_cases hgh : h = g
    · subst hgh
      simp [List.count_eq_zero.mpr hrel]
    · have hmem : .acquire g ∈ t := by simpa [Ne.symm hgh] using hg
      simpa [hgh] using ho.count_release g hmem

/-- An owner may use its handle. -/
theorem Owns.use {t : List (Event H)} {h : H} (ho : Owns t (some h)) :
  Owns (t ++ [.use h]) (some h)
  where
  usesLive := by
    apply usesLive_concat_iff.mpr
    constructor
    · exact ho.usesLive
    · rintro g (hg | hg)
      · simpa [ho.live_iff] using hg
      · simp at hg
  live_iff g := by
    simp [live_concat_iff, ho.live_iff]
  count_release g hg := by
    have hmem : .acquire g ∈ t := by simpa using hg
    simpa using ho.count_release g hmem

/-- An owner that releases its handle holds none. -/
theorem Owns.release {t : List (Event H)} {h : H} (ho : Owns t (some h)) :
  Owns (t ++ [.release h]) none
  where
  usesLive := by
    apply usesLive_concat_iff.mpr
    constructor
    · exact ho.usesLive
    · rintro g (hg | hg)
      · simp at hg
      · simpa [ho.live_iff] using hg
  live_iff g := by
    simp only [live_concat_iff, ho.live_iff]
    simp
  count_release g hg := by
    have hmem : .acquire g ∈ t := by simpa using hg
    have hcount := ho.count_release g hmem
    by_cases hgh : h = g
    · subst hgh
      simpa using hcount
    · simpa [hgh] using hcount

/-- The trace of an owner that holds nothing is disciplined. -/
theorem Owns.disciplined {t : List (Event H)} (ho : Owns t none) :
  Disciplined t
  := by
  constructor
  · exact ho.usesLive
  · intro h hmem
    simpa using ho.count_release h hmem

end HandleTrace
