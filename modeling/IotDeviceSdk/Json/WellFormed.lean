import IotDeviceSdk.Json.Value

/-!
# Well-formed values

In a well-formed value the members of each object stand in the order of their keys, no two under
one key, and the keys are C strings.  Setting a member keeps this, see `wellFormed_insert`, and
members that are entered in the order of their keys stay as they are, see `enter_append`.
-/

namespace CString

/-- On strings without NUL bytes, `strcmp` is the lexicographic order. -/
theorem strcmp_neg_iff {s t : List UInt8} (hs : 0 ∉ s) (ht : 0 ∉ t) :
  strcmp s t < 0 ↔ s < t
  := by
  induction s generalizing t with
  | nil =>
    cases t with
    | nil => simp [strcmp]
    | cons d t =>
      have hd : d ≠ 0 := fun h => ht (h ▸ List.mem_cons_self)
      have hpos : d.toNat ≠ 0 := fun h => hd (UInt8.toNat_inj.mp h)
      simp [strcmp]
      omega
  | cons c s ih =>
    have hc : c ≠ 0 := fun h => hs (h ▸ List.mem_cons_self)
    cases t with
    | nil => simp [strcmp, hc]
    | cons d t =>
      rw [strcmp, List.headD_cons, List.tail_cons, List.cons_lt_cons_iff]
      by_cases hd : c = d
      · subst hd
        rw [if_neg (by simp [hc]), ih (fun h => hs (List.mem_cons_of_mem _ h))
          (fun h => ht (List.mem_cons_of_mem _ h))]
        simp
      · rw [if_pos (Or.inr hd), UInt8.lt_iff_toNat_lt]
        simp only [hd, false_and, or_false]
        omega

end CString

namespace Json

open CString

/-- The keys of the members are C strings in increasing order. -/
structure Members.Sorted (members : Members) : Prop where
  keys : ∀ m ∈ members, 0 ∉ m.1
  sorted : members.Pairwise fun m n => m.1 < n.1

/-- The members of every object in the value are sorted. -/
inductive Value.WellFormed : Value → Prop where
  | null : WellFormed .null
  | int (n : Int64) : WellFormed (.int n)
  | uint (n : UInt64) : WellFormed (.uint n)
  | real (r : Double) : WellFormed (.real r)
  | string (s : List UInt8) : WellFormed (.string s)
  | bool (b : Bool) : WellFormed (.bool b)
  | array {items : List Value} : (∀ v ∈ items, WellFormed v) → WellFormed (.array items)
  | object {members : Members} :
    members.Sorted → (∀ m ∈ members, WellFormed m.2) → WellFormed (.object members)

namespace Members

/-- The members of the list are entered one after another. -/
def enter (members : Members) (entered : List (List UInt8 × Value)) : Members :=
  entered.foldl (fun members m => Members.insert (cstr m.1) m.2 members) members

theorem zero_notMem_cstr (s : List UInt8) :
  0 ∉ cstr s
  := by
  intro h
  have hne := List.mem_takeWhile_imp h
  simp at hne

/-- The members after one was set are that one and some of those before. -/
theorem mem_insert {key : List UInt8} {value : Value} {members : Members} {m : List UInt8 × Value}
    (h : m ∈ insert key value members) :
  m = (key, value) ∨ m ∈ members
  := by
  induction members with
  | nil => apply Or.inl (List.mem_singleton.mp h)
  | cons n members ih =>
    obtain ⟨k, v⟩ := n
    rw [insert] at h
    split at h
    · rcases List.mem_cons.mp h with h | h
      · apply Or.inl h
      · apply Or.inr (List.mem_cons_of_mem _ h)
    · split at h
      · rcases List.mem_cons.mp h with h | h
        · apply Or.inl h
        · apply Or.inr h
      · rcases List.mem_cons.mp h with h | h
        · apply Or.inr (h ▸ List.mem_cons_self)
        · rcases ih h with h | h
          · apply Or.inl h
          · apply Or.inr (List.mem_cons_of_mem _ h)

theorem sorted_insert
    {key : List UInt8} (hkey : 0 ∉ key) (value : Value) {members : Members}
    (h : members.Sorted) :
  (insert key value members).Sorted
  := by
  obtain ⟨hkeys, hsorted⟩ := h
  constructor
  · intro m hm
    rcases mem_insert hm with rfl | hm
    · apply hkey
    · apply hkeys m hm
  · induction members with
    | nil => apply List.pairwise_singleton
    | cons n members ih =>
      obtain ⟨k, v⟩ := n
      have hk : 0 ∉ k := hkeys (k, v) List.mem_cons_self
      have hrest : ∀ m ∈ members, 0 ∉ m.1 := fun m hm => hkeys m (List.mem_cons_of_mem _ hm)
      obtain ⟨hfirst, hlater⟩ := List.pairwise_cons.mp hsorted
      rw [insert]
      split
      · next heq =>
        subst heq
        exact List.pairwise_cons.mpr ⟨hfirst, hlater⟩
      · next hne =>
        split
        · next hlt =>
          rw [strcmp_neg_iff hkey hk] at hlt
          apply List.pairwise_cons.mpr
          constructor
          · intro m hm
            rcases List.mem_cons.mp hm with rfl | hm
            · apply hlt
            · apply List.lt_trans hlt (hfirst m hm)
          · apply hsorted
        · next hge =>
          rw [strcmp_neg_iff hkey hk] at hge
          apply List.pairwise_cons.mpr
          constructor
          · intro m hm
            rcases mem_insert hm with rfl | hm
            · apply Std.lt_of_le_of_ne (Std.not_lt.mp hge) hne
            · apply hfirst m hm
          · apply ih hrest hlater

/-- Setting a member keeps an object well formed. -/
theorem wellFormed_insert
    {key : List UInt8} (hkey : 0 ∉ key) {value : Value} (hvalue : value.WellFormed)
    {members : Members} (h : (Value.object members).WellFormed) :
  (Value.object (insert key value members)).WellFormed
  := by
  cases h with
  | object hsorted hmembers =>
    apply Value.WellFormed.object (sorted_insert hkey value hsorted)
    intro m hm
    rcases mem_insert hm with rfl | hm
    · apply hvalue
    · apply hmembers m hm

/-- A member of a key that is greater than the others is set after them. -/
theorem insert_of_forall_lt
    {key : List UInt8} (hkey : 0 ∉ key) (value : Value) {members : Members}
    (hkeys : ∀ m ∈ members, 0 ∉ m.1) (h : ∀ m ∈ members, m.1 < key) :
  insert key value members = members ++ [(key, value)]
  := by
  induction members with
  | nil => rfl
  | cons m members ih =>
    obtain ⟨k, v⟩ := m
    have hlt : k < key := h (k, v) List.mem_cons_self
    have hk : 0 ∉ k := hkeys (k, v) List.mem_cons_self
    have hne : k ≠ key := Std.ne_of_lt hlt
    have hge : ¬ strcmp key k < 0 := by
      rw [strcmp_neg_iff hkey hk]
      apply Std.not_lt.mpr (Std.le_of_lt hlt)
    rw [insert, if_neg hne, if_neg hge, ih]
    · rfl
    · intro m hm
      apply hkeys m (List.mem_cons_of_mem _ hm)
    · intro m hm
      apply h m (List.mem_cons_of_mem _ hm)

/-- Members that are entered in the order of their keys stay as they are. -/
theorem enter_append {members entered : Members} (h : Sorted (members ++ entered)) :
  enter members entered = members ++ entered
  := by
  induction entered generalizing members with
  | nil => rw [enter, List.foldl_nil, List.append_nil]
  | cons m entered ih =>
    obtain ⟨k, v⟩ := m
    obtain ⟨hkeys, hsorted⟩ := h
    have hk : 0 ∉ k := hkeys (k, v) (List.mem_append_right _ List.mem_cons_self)
    have hmembers : ∀ m ∈ members, 0 ∉ m.1 := fun m hm => hkeys m (List.mem_append_left _ hm)
    have hlt : ∀ m ∈ members, m.1 < k := by
      intro m hm
      apply (List.pairwise_append.mp hsorted).2.2 m hm (k, v) List.mem_cons_self
    have hinsert := insert_of_forall_lt hk v hmembers hlt
    have hstep : enter members ((k, v) :: entered) = enter (members ++ [(k, v)]) entered := by
      rw [enter, List.foldl_cons, cstr_eq_self hk, hinsert, enter]
    rw [hstep, ih]
    · rw [List.append_assoc, List.singleton_append]
    · rw [List.append_assoc, List.singleton_append]
      exact ⟨hkeys, hsorted⟩

end Members

end Json
