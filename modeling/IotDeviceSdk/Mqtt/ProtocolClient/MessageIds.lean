import IotDeviceSdk.Mqtt.ProtocolClient

/-!
# Message ids

`MQTTProtocol_assignMsgId` goes around the message ids from the one that was assigned last, and
takes the first that is not in use.  It never takes the id that was assigned last, even if that is
free, and it finds none only when all others are in use; if no id has been assigned before and all
are in use, it goes around forever (`Client.assignMsgId_around`).
-/

namespace Mqtt

open Keyed

/-- The id that is tried after `i` others, when the ids begin after `start`. -/
def candidate (start i : ℕ) : ℕ :=
  (start + i) % MAX_MSG_ID + 1

theorem candidate_zero {start : ℕ} (h : start ≤ MAX_MSG_ID) :
  candidate start 0 = nextMsgId start
  := by
  rw [nextMsgId]
  split
  · rename_i hmax
    rw [hmax]
    rfl
  · rename_i hmax
    simp only [candidate, MAX_MSG_ID] at h hmax ⊢
    omega

theorem candidate_succ (start i : ℕ) :
  candidate start (i + 1) = nextMsgId (candidate start i)
  := by
  rw [nextMsgId]
  split
  · rename_i hmax
    simp only [candidate, MAX_MSG_ID] at hmax ⊢
    omega
  · rename_i hmax
    simp only [candidate, MAX_MSG_ID] at hmax ⊢
    omega

theorem candidate_range (start i : ℕ) :
  1 ≤ candidate start i ∧ candidate start i ≤ MAX_MSG_ID
  := by
  simp only [candidate, MAX_MSG_ID]
  omega

/-- Every id comes up, and the one that is begun with comes up last. -/
theorem exists_candidate (start : ℕ) {k : ℕ} (hk : 1 ≤ k) (hmax : k ≤ MAX_MSG_ID) :
  ∃ i < MAX_MSG_ID, candidate start i = k
  := by
  simp only [candidate, MAX_MSG_ID] at hmax ⊢
  refine ⟨(k + 65535 * start - 1 - start) % 65535, Nat.mod_lt _ (by decide), ?_⟩
  omega

theorem candidate_eq_start_iff {start i : ℕ} (hstart : 1 ≤ start) (hmax : start ≤ MAX_MSG_ID)
    (hi : i < MAX_MSG_ID) :
  candidate start i = start ↔ i + 1 = MAX_MSG_ID
  := by
  simp only [candidate, MAX_MSG_ID] at hmax hi ⊢
  omega

namespace Client

variable {σ : Type*} {c c' : Client σ}

/-- A message with this id is kept. -/
def Taken (c : Client σ) (k : ℕ) : Prop :=
  (find Messages.msgid k c.outboundMsgs).isSome

/-- The first `n` ids have been tried in vain, and the one that was begun with has not come up. -/
def Tried (c : Client σ) (n : ℕ) : Prop :=
  (∀ i < n, c.Taken (candidate c.msgID i)) ∧ ∀ i, 0 < i → i ≤ n → candidate c.msgID i ≠ c.msgID

/-- What the loop comes to. -/
theorem tryMsgIds_spec {k j : ℕ} (hfuel : j + k = MAX_MSG_ID + 1) (htried : c.Tried j) :
  match c.tryMsgIds k (candidate c.msgID j) with
  | none => c.Tried (MAX_MSG_ID + 1)
  | some 0 => ∃ n, candidate c.msgID (n + 1) = c.msgID ∧ ∀ i ≤ n, c.Taken (candidate c.msgID i)
  | some (r + 1) => ∃ n, candidate c.msgID n = r + 1 ∧ ¬ c.Taken (r + 1) ∧ c.Tried n
  := by
  induction k generalizing j with
  | zero =>
    rw [tryMsgIds]
    obtain rfl : j = MAX_MSG_ID + 1 := hfuel
    exact htried
  | succ k ih =>
    rw [tryMsgIds]
    by_cases hj : (find Messages.msgid (candidate c.msgID j) c.outboundMsgs).isSome
    · have htaken : ∀ i < j + 1, c.Taken (candidate c.msgID i) := by
        intro i hi
        rcases Nat.lt_succ_iff_lt_or_eq.mp hi with hi | rfl
        · apply htried.1 i hi
        · apply hj
      rw [if_pos hj, ← candidate_succ]
      by_cases hstart : candidate c.msgID (j + 1) = c.msgID
      · rw [if_pos hstart]
        refine ⟨j, hstart, ?_⟩
        intro i hi
        apply htaken i (Nat.lt_succ_of_le hi)
      · rw [if_neg hstart]
        apply ih (by omega)
        refine ⟨htaken, ?_⟩
        intro i hpos hi
        rcases Nat.le_succ_iff.mp hi with hi | rfl
        · apply htried.2 i hpos hi
        · apply hstart
    · rw [if_neg hj]
      obtain ⟨r, hr⟩ := Nat.exists_eq_add_of_le' (candidate_range c.msgID j).1
      rw [hr]
      rw [hr] at hj
      exact ⟨j, hr, hj, htried⟩

variable (hid : c.msgID ≤ MAX_MSG_ID)

include hid

theorem assignMsgId_cases :
  match c.assignMsgId with
  | none => c.Tried (MAX_MSG_ID + 1)
  | some (0, c') => c' = c
      ∧ ∃ n, candidate c.msgID (n + 1) = c.msgID ∧ ∀ i ≤ n, c.Taken (candidate c.msgID i)
  | some (r + 1, c') => c' = { c with msgID := r + 1 }
      ∧ ∃ n, candidate c.msgID n = r + 1 ∧ ¬ c.Taken (r + 1) ∧ c.Tried n
  := by
  have hspec := tryMsgIds_spec (c := c) (k := MAX_MSG_ID + 1) (j := 0) (Nat.zero_add _)
    ⟨fun i hi => absurd hi (Nat.not_lt_zero i), fun i hpos hi => absurd hpos (Nat.not_lt.mpr hi)⟩
  rw [candidate_zero hid] at hspec
  rw [assignMsgId]
  generalize c.tryMsgIds (MAX_MSG_ID + 1) (nextMsgId c.msgID) = result at hspec
  cases result with
  | none => exact hspec
  | some r =>
    cases r with
    | zero => exact ⟨rfl, hspec⟩
    | succ r => exact ⟨rfl, hspec⟩

/-- The id that is assigned is the first after the last one that is not in use. -/
theorem assignMsgId_first {msgid : ℕ} (h : c.assignMsgId = some (msgid, c')) (hne : msgid ≠ 0) :
  c' = { c with msgID := msgid } ∧ 1 ≤ msgid ∧ msgid ≤ MAX_MSG_ID ∧ ¬ c.Taken msgid
    ∧ ∃ n, candidate c.msgID n = msgid ∧ ∀ i < n, c.Taken (candidate c.msgID i)
  := by
  have hcases := assignMsgId_cases hid
  rw [h] at hcases
  cases msgid with
  | zero => contradiction
  | succ r =>
    obtain ⟨hc', n, hn, hfree, htried⟩ := hcases
    have hrange := candidate_range c.msgID n
    rw [hn] at hrange
    exact ⟨hc', hrange.1, hrange.2, hfree, n, hn, htried.1⟩

omit hid in
/-- When the id that was begun with comes up, all others are in use. -/
theorem taken_of_around {n : ℕ} (hn : candidate c.msgID (n + 1) = c.msgID)
    (htaken : ∀ i ≤ n, c.Taken (candidate c.msgID i)) {k : ℕ} (hk : 1 ≤ k) (hmax : k ≤ MAX_MSG_ID)
    (hne : k ≠ c.msgID) :
  c.Taken k
  := by
  obtain ⟨i, hi, rfl⟩ := exists_candidate c.msgID hk hmax
  have hrange := candidate_range c.msgID (n + 1)
  rw [hn] at hrange
  apply htaken i
  have hlast : i + 1 ≠ MAX_MSG_ID := fun h =>
    hne ((candidate_eq_start_iff hrange.1 hrange.2 hi).mpr h)
  by_cases hn' : n + 1 < MAX_MSG_ID
  · have hlast' := (candidate_eq_start_iff hrange.1 hrange.2 hn').mp hn
    omega
  · omega

/-- No id is assigned only when all are in use, except perhaps the one that was assigned last. -/
theorem assignMsgId_exhausted :
  (c.assignMsgId = none ↔ c.msgID = 0 ∧ ∀ k, 1 ≤ k → k ≤ MAX_MSG_ID → c.Taken k)
    ∧ (c.assignMsgId = some (0, c)
      ↔ c.msgID ≠ 0 ∧ ∀ k, 1 ≤ k → k ≤ MAX_MSG_ID → k ≠ c.msgID → c.Taken k)
  := by
  have hcases := assignMsgId_cases hid
  cases hassign : c.assignMsgId with
  | none =>
    rw [hassign] at hcases
    have hzero : c.msgID = 0 := by
      by_contra hne
      have hlast : MAX_MSG_ID - 1 < MAX_MSG_ID := by decide
      apply hcases.2 (MAX_MSG_ID - 1) (by decide) (by decide)
      exact (candidate_eq_start_iff (Nat.pos_of_ne_zero hne) hid hlast).mpr rfl
    refine ⟨iff_of_true rfl ⟨hzero, ?_⟩, iff_of_false (by simp) fun h => h.1 hzero⟩
    intro k hk hmax
    obtain ⟨i, hi, rfl⟩ := exists_candidate c.msgID hk hmax
    apply hcases.1 i (by omega)
  | some result =>
    rw [hassign] at hcases
    obtain ⟨msgid, c'⟩ := result
    cases msgid with
    | zero =>
      obtain ⟨rfl, n, hn, htaken⟩ := hcases
      have hne : c'.msgID ≠ 0 := by
        rw [← hn]
        exact Nat.succ_ne_zero _
      refine ⟨iff_of_false (by simp) fun h => hne h.1, iff_of_true rfl ⟨hne, ?_⟩⟩
      intro k hk hmax hk'
      apply taken_of_around hn htaken hk hmax hk'
    | succ r =>
      obtain ⟨-, n, hn, hfree, htried⟩ := hcases
      have hrange := candidate_range c.msgID n
      rw [hn] at hrange
      refine ⟨iff_of_false (by simp) fun h => hfree (h.2 _ hrange.1 hrange.2),
        iff_of_false (by simp) ?_⟩
      rintro ⟨hne, htaken⟩
      have hlast : r + 1 = c.msgID := by
        by_contra h
        apply hfree (htaken _ hrange.1 hrange.2 h)
      rcases Nat.eq_zero_or_pos n with rfl | hpos
      · have hfirst := (candidate_eq_start_iff (Nat.pos_of_ne_zero hne) hid (by decide)).mp
          (hn.trans hlast)
        contradiction
      · exact htried.2 n hpos le_rfl (hn.trans hlast)

/-- The id that is assigned is the first after the last one that is not in use; there is none when
all others are in use. -/
theorem assignMsgId_around :
  (∀ msgid c', msgid ≠ 0 → c.assignMsgId = some (msgid, c') →
      c' = { c with msgID := msgid } ∧ 1 ≤ msgid ∧ msgid ≤ MAX_MSG_ID ∧ ¬ c.Taken msgid
        ∧ ∃ n, candidate c.msgID n = msgid ∧ ∀ i < n, c.Taken (candidate c.msgID i))
    ∧ (c.assignMsgId = none ↔ c.msgID = 0 ∧ ∀ k, 1 ≤ k → k ≤ MAX_MSG_ID → c.Taken k)
    ∧ (c.assignMsgId = some (0, c)
      ↔ c.msgID ≠ 0 ∧ ∀ k, 1 ≤ k → k ≤ MAX_MSG_ID → k ≠ c.msgID → c.Taken k)
  :=
  ⟨fun _ _ hne h => assignMsgId_first hid h hne, assignMsgId_exhausted hid⟩

omit hid in
/-- The last id has been assigned, and the first is in use. -/
theorem assignMsgId_around_last :
  let m := createMessage ⟨[97], []⟩ 1 1 false 0
  let c : Client Unit := ⟨true, true, false, MAX_MSG_ID, 10, 0, [], [m], ⟨[], [], []⟩, (), []⟩
  c.assignMsgId = some (2, { c with msgID := 2 }) ∧ ¬ c.Taken 2
  := by
  intro m c
  have hassign : c.assignMsgId = some (2, { c with msgID := 2 }) := rfl
  obtain ⟨-, -, -, hfree, -⟩ := (assignMsgId_around (c := c) le_rfl).1 2 _ two_ne_zero hassign
  exact ⟨hassign, hfree⟩

end Client

end Mqtt
