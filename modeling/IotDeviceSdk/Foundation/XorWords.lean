import Mathlib.Data.List.Perm.Basic
import Mathlib.Data.Nat.Digits.Defs
import Mathlib.Tactic.Common

/-!
# The XOR of the words of a string

A string of digits is padded with zeros and cut into blocks of `k` digits.  Each block stands
for a number, with its lowest digit first, and `xorWords` is the XOR of these numbers.  Cutting
a string at the end of a block cuts its XOR in two, so the order of the blocks does not matter
(`xorWords_of_perm`).  If the base is a power of two, every digit can be combined with what
stands at its place, one after another (`xorWords_eq_xorPlaces`).
-/

namespace XorWords

/-- The XOR of some numbers. -/
def xorSum (ns : List ℕ) : ℕ :=
  ns.foldr (· ^^^ ·) 0

/-- A string with as many zeros after it as make its length a multiple of `k`. -/
def pad (k : ℕ) (s : List ℕ) : List ℕ :=
  s ++ List.replicate ((k - s.length % k) % k) 0

/-- The blocks of `k` digits of a string. -/
def blocks (k : ℕ) (s : List ℕ) : List (List ℕ) :=
  (List.range (s.length / k)).map fun j => (s.drop (k * j)).take k

/-- The XOR of the words of a string, which have `k` digits with the base `b` each. -/
def xorWords (k b : ℕ) (s : List ℕ) : ℕ :=
  xorSum ((blocks k (pad k s)).map (Nat.ofDigits b))

/-- The XOR of the digits of a string from place `i` on, each of them at its place in a word. -/
def xorPlaces (k b : ℕ) : ℕ → List ℕ → ℕ
  | _, [] => 0
  | i, c :: s => b ^ (i % k) * c ^^^ xorPlaces k b (i + 1) s

variable {k b w : ℕ}

/-! ### Blocks -/

theorem pad_append (a s : List ℕ) (ha : k ∣ a.length) :
  pad k (a ++ s) = a ++ pad k s
  := by
  obtain ⟨n, hn⟩ := ha
  rw [pad, pad, List.length_append, hn, Nat.mul_add_mod, List.append_assoc]

/-- A string that is shorter than a block is padded to a block, unless it is empty. -/
theorem pad_of_length_lt {s : List ℕ} (hs : s.length < k) (hne : s ≠ []) :
  pad k s = s ++ List.replicate (k - s.length) 0
  := by
  have hpos := List.length_pos_iff.mpr hne
  rw [pad, Nat.mod_eq_of_lt hs, Nat.mod_eq_of_lt (by omega)]

theorem blocks_of_length_lt {s : List ℕ} (hs : s.length < k) :
  blocks k s = []
  := by
  rw [blocks, Nat.div_eq_of_lt hs]
  rfl

/-- The first block of a string. -/
theorem blocks_append (hk : 0 < k) {a : List ℕ} (ha : a.length = k) (s : List ℕ) :
  blocks k (a ++ s) = a :: blocks k s
  := by
  subst ha
  rw [blocks, List.length_append, Nat.add_div_left _ hk, List.range_succ_eq_map, List.map_cons,
    List.map_map]
  congr 1
  · rw [Nat.mul_zero, List.drop_zero, List.take_left]
  · apply List.map_congr_left
    intro j _
    rw [Function.comp, Nat.mul_succ, Nat.add_comm, List.drop_length_add_append]

/-- A string is a string shorter than a block with some blocks before it. -/
theorem block_induction
    (hk : 0 < k) {motive : List ℕ → Prop} (short : ∀ s, s.length < k → motive s)
    (block : ∀ a s, a.length = k → motive s → motive (a ++ s)) (s : List ℕ) :
  motive s
  := by
  induction hn : s.length using Nat.strong_induction_on generalizing s with
  | _ n ih =>
    rcases Nat.lt_or_ge s.length k with hlt | hge
    · apply short s hlt
    · rw [← List.take_append_drop k s]
      apply block
      · apply List.length_take_of_le hge
      · apply ih (s.drop k).length _ _ rfl
        rw [← hn, List.length_drop]
        omega

/-! ### Words -/

/-- The first word of a string. -/
theorem xorWords_append_block (hk : 0 < k) {a : List ℕ} (ha : a.length = k) (s : List ℕ) :
  xorWords k b (a ++ s) = Nat.ofDigits b a ^^^ xorWords k b s
  := by
  rw [xorWords, pad_append a s (dvd_of_eq ha.symm), blocks_append hk ha]
  rfl

/-- A string that is shorter than a block is one word. -/
theorem xorWords_of_length_lt {s : List ℕ} (hs : s.length < k) :
  xorWords k b s = Nat.ofDigits b s
  := by
  have hk : 0 < k := Nat.lt_of_le_of_lt (Nat.zero_le _) hs
  by_cases hne : s = []
  · subst hne
    have hpad : pad k [] = [] := by simp [pad]
    rw [xorWords, hpad, blocks_of_length_lt hs]
    rfl
  · have hlen : (s ++ List.replicate (k - s.length) 0).length = k := by
      rw [List.length_append, List.length_replicate]
      omega
    rw [xorWords, pad_of_length_lt hs hne,
      ← List.append_nil (s ++ List.replicate (k - s.length) 0), blocks_append hk hlen,
      blocks_of_length_lt hk]
    simp [xorSum, Nat.ofDigits_append_replicate_zero]

/-- A string that ends with a block can be cut off. -/
theorem xorWords_append (hk : 0 < k) {a : List ℕ} (ha : k ∣ a.length) (s : List ℕ) :
  xorWords k b (a ++ s) = xorWords k b a ^^^ xorWords k b s
  := by
  induction a using block_induction hk with
  | short a hlt =>
    have hnil : a = [] := List.eq_nil_of_length_eq_zero (Nat.eq_zero_of_dvd_of_lt ha hlt)
    subst hnil
    have hzero : xorWords k b [] = 0 := xorWords_of_length_lt (s := []) hk
    rw [List.nil_append, hzero, Nat.zero_xor]
  | block c a hc ih =>
    rw [List.length_append, hc] at ha
    rw [List.append_assoc, xorWords_append_block hk hc, xorWords_append_block hk hc,
      ih ((Nat.dvd_add_right (dvd_refl k)).mp ha), Nat.xor_assoc]

/-- The order of the blocks does not matter. -/
theorem xorWords_of_perm
    (hk : 0 < k) {as as' : List (List ℕ)} (hperm : as.Perm as') (has : ∀ a ∈ as, a.length = k)
    (s : List ℕ) :
  xorWords k b (as.flatten ++ s) = xorWords k b (as'.flatten ++ s)
  := by
  induction hperm with
  | nil => rfl
  | cons a _ ih =>
    rw [List.forall_mem_cons] at has
    rw [List.flatten_cons, List.flatten_cons, List.append_assoc, List.append_assoc,
      xorWords_append_block hk has.1, xorWords_append_block hk has.1, ih has.2]
  | swap a a' as =>
    rw [List.forall_mem_cons, List.forall_mem_cons] at has
    simp only [List.flatten_cons, List.append_assoc]
    rw [xorWords_append_block hk has.1, xorWords_append_block hk has.2.1,
      xorWords_append_block hk has.2.1, xorWords_append_block hk has.1, ← Nat.xor_assoc,
      ← Nat.xor_assoc, Nat.xor_comm (Nat.ofDigits b a')]
  | trans h _ ih ih' =>
    rw [ih has, ih']
    intro a ha
    apply has a (h.mem_iff.mpr ha)

/-! ### Places -/

/-- XOR does not carry from the lower bits to the higher ones. -/
theorem xor_two_pow_mul_add {x y : ℕ} (hx : x < 2 ^ w) (hy : y < 2 ^ w) (m n : ℕ) :
  (2 ^ w * m + x) ^^^ (2 ^ w * n + y) = 2 ^ w * (m ^^^ n) + (x ^^^ y)
  := by
  have hdiv : ∀ {m x}, x < 2 ^ w → (2 ^ w * m + x) / 2 ^ w = m := by
    intro m x hx
    rw [Nat.mul_add_div (Nat.two_pow_pos w), Nat.div_eq_of_lt hx, Nat.add_zero]
  have hmod : ∀ {m x}, x < 2 ^ w → (2 ^ w * m + x) % 2 ^ w = x := by
    intro m x hx
    rw [Nat.mul_add_mod, Nat.mod_eq_of_lt hx]
  rw [← Nat.div_add_mod ((2 ^ w * m + x) ^^^ (2 ^ w * n + y)) (2 ^ w), Nat.xor_div_two_pow,
    Nat.xor_mod_two_pow, hdiv hx, hdiv hy, hmod hx, hmod hy]

theorem two_pow_mul_xor (m n : ℕ) :
  2 ^ w * m ^^^ 2 ^ w * n = 2 ^ w * (m ^^^ n)
  := by
  have h := xor_two_pow_mul_add (Nat.two_pow_pos w) (Nat.two_pow_pos w) m n
  simpa using h

theorem xor_two_pow_mul {x : ℕ} (hx : x < 2 ^ w) (n : ℕ) :
  x ^^^ 2 ^ w * n = x + 2 ^ w * n
  := by
  have h := xor_two_pow_mul_add hx (Nat.two_pow_pos w) 0 n
  simpa [Nat.add_comm] using h

theorem xorPlaces_append (i : ℕ) (s t : List ℕ) :
  xorPlaces k b i (s ++ t) = xorPlaces k b i s ^^^ xorPlaces k b (i + s.length) t
  := by
  induction s generalizing i with
  | nil => rw [List.nil_append, xorPlaces, Nat.zero_xor, List.length_nil, Nat.add_zero]
  | cons c s ih =>
    rw [List.cons_append, xorPlaces, xorPlaces, ih, Nat.xor_assoc, List.length_cons,
      Nat.add_right_comm, Nat.add_assoc]

/-- The places are those of the digits in their words. -/
theorem xorPlaces_add (i : ℕ) (s : List ℕ) :
  xorPlaces k b (i + k) s = xorPlaces k b i s
  := by
  induction s generalizing i with
  | nil => rfl
  | cons c s ih => rw [xorPlaces, xorPlaces, Nat.add_mod_right, Nat.add_right_comm, ih]

/-- Within a word, putting the digits in their places is writing the word. -/
theorem xorPlaces_of_le
    {i : ℕ} {s : List ℕ} (hi : i + s.length ≤ k) (hs : ∀ c ∈ s, c < 2 ^ w) :
  xorPlaces k (2 ^ w) i s = (2 ^ w) ^ i * Nat.ofDigits (2 ^ w) s
  := by
  induction s generalizing i with
  | nil => rfl
  | cons c s ih =>
    rw [List.forall_mem_cons] at hs
    rw [List.length_cons] at hi
    rw [xorPlaces, Nat.mod_eq_of_lt (by omega), ih (by omega) hs.2, Nat.ofDigits_cons, pow_succ,
      Nat.mul_assoc, ← Nat.pow_mul, two_pow_mul_xor, xor_two_pow_mul hs.1]

/-- The XOR of the words is that of the digits at their places. -/
theorem xorWords_eq_xorPlaces (hk : 0 < k) {s : List ℕ} (hs : ∀ c ∈ s, c < 2 ^ w) :
  xorWords k (2 ^ w) s = xorPlaces k (2 ^ w) 0 s
  := by
  have hword : ∀ {s : List ℕ}, s.length ≤ k → (∀ c ∈ s, c < 2 ^ w) →
      xorPlaces k (2 ^ w) 0 s = Nat.ofDigits (2 ^ w) s := by
    intro s hlen hs
    rw [xorPlaces_of_le (by omega) hs, Nat.pow_zero, Nat.one_mul]
  induction s using block_induction hk with
  | short s hlt => rw [xorWords_of_length_lt hlt, hword hlt.le hs]
  | block a s ha ih =>
    rw [List.forall_mem_append] at hs
    rw [xorWords_append_block hk ha, xorPlaces_append, hword ha.le hs.1, ha, xorPlaces_add,
      ih hs.2]

/-- Combining a digit with what stands at its place. -/
theorem ofDigits_modify_xor
    (hw : 0 < w) {v : List ℕ} (hv : ∀ d ∈ v, d < 2 ^ w) {c : ℕ} (hc : c < 2 ^ w) {j : ℕ}
    (hj : j < v.length) :
  Nat.ofDigits (2 ^ w) (v.modify j (· ^^^ c)) = Nat.ofDigits (2 ^ w) v ^^^ (2 ^ w) ^ j * c
  := by
  obtain ⟨l, d, r, rfl, rfl, hmodify⟩ := List.exists_of_modify (· ^^^ c) hj
  rw [List.forall_mem_append, List.forall_mem_cons] at hv
  have hl : Nat.ofDigits (2 ^ w) l < 2 ^ (w * l.length) := by
    rw [Nat.pow_mul]
    apply Nat.ofDigits_lt_base_pow_length (Nat.one_lt_two_pow hw.ne') hv.1
  have hdigit : (d + 2 ^ w * Nat.ofDigits (2 ^ w) r) ^^^ c
      = (d ^^^ c) + 2 ^ w * Nat.ofDigits (2 ^ w) r := by
    have h := xor_two_pow_mul_add hv.2.1 hc (Nat.ofDigits (2 ^ w) r) 0
    simpa [Nat.add_comm] using h
  have hplace := xor_two_pow_mul_add hl (Nat.two_pow_pos _) (d + 2 ^ w * Nat.ofDigits (2 ^ w) r) c
  rw [hdigit, Nat.add_zero, Nat.xor_zero] at hplace
  rw [hmodify, Nat.ofDigits_append, Nat.ofDigits_append, Nat.ofDigits_cons, Nat.ofDigits_cons,
    ← Nat.pow_mul, Nat.add_comm, ← hplace, Nat.add_comm (Nat.ofDigits (2 ^ w) l)]

end XorWords
