import IotDeviceSdk.Foundation.Loop
import IotDeviceSdk.IotDevice.Network

/-!
# The command loop

The loop of `main` reads its commands with `getchar`: `1` makes the light go on and `2` ends
the loop.  It does not look for the end of the input, so it ends only if there is a `2`:
`main_ends_iff`.
-/

namespace IotDevice

open CString

/-- `getchar`, on what is left of the standard input: the next byte, or `EOF` from the end of
the input on, and what is left then. -/
def getchar : List UInt8 → Int32 × List UInt8
  | [] => (-1, [])
  | c :: stdin => (c.toUInt32.toInt32, stdin)

/-- The loop of `main` after some rounds. -/
structure Console where
  stdin : List UInt8
  rounds : ℕ
  process : Process

namespace Mgr

/-- A round of the loop of `main`; `env` is what the calls of each round find around them. -/
def mainRound (b : Build) (m : Mgr) (env : ℕ → Env) (v : Console) : Console ⊕ Process :=
  let (c, stdin) := getchar v.stdin
  if c = 49 then -- '1'
    .inl ⟨stdin, v.rounds + 1, m.lightControl b (env v.rounds) 1 v.process⟩
  else if c = 50 then -- '2'
    .inr v.process
  else
    .inl ⟨stdin, v.rounds + 1, v.process⟩

/-! ### A round -/

/-- `getchar` tells bytes apart. -/
theorem getchar_fst_inj {c d : UInt8} {stdin : List UInt8}
    (h : (getchar (c :: stdin)).1 = d.toUInt32.toInt32) :
  c = d
  := by
  apply UInt8.toUInt32_inj.mp
  rw [← UInt32.toUInt32_toInt32 c.toUInt32, ← UInt32.toUInt32_toInt32 d.toUInt32]
  apply congrArg Int32.toUInt32 h

variable {b : Build} {m : Mgr} {env : ℕ → Env}

theorem mainRound_one (stdin : List UInt8) (n : ℕ) (s : Process) :
  m.mainRound b env ⟨49 :: stdin, n, s⟩ = .inl ⟨stdin, n + 1, m.lightControl b (env n) 1 s⟩
  := rfl

theorem mainRound_two (stdin : List UInt8) (n : ℕ) (s : Process) :
  m.mainRound b env ⟨50 :: stdin, n, s⟩ = .inr s
  := rfl

/-- Other bytes are skipped. -/
theorem mainRound_cons_of_ne
    {c : UInt8} (hone : c ≠ 49) (htwo : c ≠ 50) (stdin : List UInt8) (n : ℕ) (s : Process) :
  m.mainRound b env ⟨c :: stdin, n, s⟩ = .inl ⟨stdin, n + 1, s⟩
  := by
  have hone' : (getchar (c :: stdin)).1 ≠ 49 := fun h => hone (getchar_fst_inj h)
  have htwo' : (getchar (c :: stdin)).1 ≠ 50 := fun h => htwo (getchar_fst_inj h)
  rw [mainRound]
  dsimp only
  rw [if_neg hone', if_neg htwo']
  rfl

/-- The end of the input is skipped as well. -/
theorem mainRound_nil (n : ℕ) (s : Process) :
  m.mainRound b env ⟨[], n, s⟩ = .inl ⟨[], n + 1, s⟩
  := rfl

/-! ### The loop -/

theorem lightControls_append (calls calls' : List Call) :
  lightControls (calls ++ calls') = lightControls calls ++ lightControls calls'
  := List.filterMap_append

/-- Without a `2`, each round goes on. -/
theorem mainRound_of_two_notMem (v : Console) (h : 50 ∉ v.stdin) :
  ∃ v', m.mainRound b env v = .inl v' ∧ 50 ∉ v'.stdin
  := by
  obtain ⟨stdin, n, s⟩ := v
  cases stdin with
  | nil => exact ⟨_, mainRound_nil n s, h⟩
  | cons c stdin =>
    obtain ⟨htwo, hstdin⟩ := List.ne_and_not_mem_of_not_mem_cons h
    by_cases hone : c = 49
    · rw [hone]
      exact ⟨_, mainRound_one stdin n s, hstdin⟩
    · exact ⟨_, mainRound_cons_of_ne hone (Ne.symm htwo) stdin n s, hstdin⟩

/-- With a `2`, the loop ends there, and has called `LightControl` for each `1` before. -/
theorem ends_of_two_mem {stdin : List UInt8} (h : 50 ∈ stdin) (n : ℕ) (s : Process) :
  ∃ s' calls, Loop.Ends (m.mainRound b env) ⟨stdin, n, s⟩ s' ∧ s'.calls = s.calls ++ calls
    ∧ lightControls calls = List.replicate ((stdin.takeWhile (· ≠ 50)).count 49) 1
  := by
  induction stdin generalizing n s with
  | nil => contradiction
  | cons c stdin ih =>
    by_cases htwo : c = 50
    · rw [htwo]
      use s, [], Loop.ends_of_inr (mainRound_two stdin n s)
      simp [lightControls]
    · have hstdin := (List.mem_cons.mp h).resolve_left (Ne.symm htwo)
      rw [List.takeWhile_cons_of_pos (by simpa using htwo)]
      by_cases hone : c = 49
      · obtain ⟨msg, -, hround⟩ := m.calls_lightControl b (env n) 1 s
        obtain ⟨hlight, -⟩ := seen_of_calls b 1 msg s.calls
        obtain ⟨s', calls, hends, hcalls, hcount⟩ :=
          ih hstdin (n + 1) (m.lightControl b (env n) 1 s)
        rw [hone]
        use s', (.lightControl 1 :: b.pinCalls 1 ++ [.sendMessage msg]) ++ calls,
          (Loop.ends_iff_of_inl (mainRound_one stdin n s)).mpr hends
        constructor
        · rw [hcalls, hround, List.append_assoc]
        · rw [lightControls_append, hlight, hcount, List.count_cons_self, List.replicate_succ]
          rfl
      · obtain ⟨s', calls, hends, hcalls, hcount⟩ := ih hstdin (n + 1) s
        rw [List.count_cons_of_ne hone]
        use s', calls,
          (Loop.ends_iff_of_inl (mainRound_cons_of_ne hone htwo stdin n s)).mpr hends

/-- The loop of `main` ends, having called `LightControl(1)` once for each `1` before the first
`2` and for nothing else, exactly when there is a `2` in the input. -/
theorem main_ends_iff
    (b : Build) (m : Mgr) (env : ℕ → Env) (input : List UInt8) (s : Process) :
  (∃ s', Loop.Ends (m.mainRound b env) ⟨input, 0, s⟩ s'
      ∧ lightControls (Network.newCalls s s')
        = List.replicate ((input.takeWhile (· ≠ 50)).count 49) 1)
    ↔ 50 ∈ input
  := by
  constructor
  · rintro ⟨s', hends, -⟩
    by_contra htwo
    apply Loop.not_ends_of_invariant mainRound_of_two_notMem htwo hends
  · intro htwo
    obtain ⟨s', calls, hends, hcalls, hcount⟩ := ends_of_two_mem htwo 0 s
    use s', hends
    rw [Network.newCalls, hcalls, List.drop_left, hcount]

/-- A lamp without a terminal never ends its loop. -/
theorem lamp_main_not_ends :
  ∃ m : Mgr, m.BuiltFrom lamp
    ∧ ∀ s', ¬ Loop.Ends (m.mainRound ⟨.iotDeviceAsync, true⟩ fun _ => epoch)
        ⟨[], 0, .init⟩ s'
  := by
  obtain ⟨m, hm⟩ := exists_builtFrom lamp (by decide)
  use m, hm
  intro s'
  apply Loop.not_ends_of_invariant mainRound_of_two_notMem
  apply List.not_mem_nil

end Mgr

end IotDevice

/-! ### The two programs -/

namespace IotDeviceAsync

open IotDevice

/-- A round of the loop of `main` in `iot_device_async`. -/
def mainRound (enableRaspberryFunc : Bool) : Mgr → (ℕ → Env) → Console → Console ⊕ Process :=
  Mgr.mainRound ⟨.iotDeviceAsync, enableRaspberryFunc⟩

end IotDeviceAsync

namespace IotDeviceSync

open IotDevice

/-- A round of the loop of `main` in `iot_device_sync`. -/
def mainRound (enableRaspberryFunc : Bool) : Mgr → (ℕ → Env) → Console → Console ⊕ Process :=
  Mgr.mainRound ⟨.iotDeviceSync, enableRaspberryFunc⟩

end IotDeviceSync
