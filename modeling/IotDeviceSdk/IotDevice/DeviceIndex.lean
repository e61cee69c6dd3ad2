import IotDeviceSdk.IotDevice.MessageArrived
import IotDeviceSdk.Foundation.Run

/-!
# The device index

Every report carries an entry of `deviceIndexArray`, and the reports should go through the
table in turn.  The subscript is the remainder of a counter of 32 bits that is signed, so it is
negative or out of step once the counter has wrapped: see `posts_entry_iff`.
-/

namespace IotDevice

open CString

/-- What can happen in a process that may lead to a report; `connected` happens in
`IotDeviceAsync` only. -/
inductive Action where
  | start (m : Mgr) (e : Env)
  | connected (m : Mgr) (e : Env)
  | arrive (m : Mgr) (parse : List UInt8 → Option Json.Value) (e : Env) (message : Mgr.Message)
  /-- a `1` on the command line -/
  | key (m : Mgr) (e : Env)
  | send (m : Mgr) (e : Env) (nLightSwitch : Int32) (testTopic : List UInt8)

/-- The process after an action; a message that crashes it leaves it as it is. -/
def act (b : Build) (s : Process) : Action → Process
  | .start m e =>
    match b.program with
    | .iotDeviceAsync => IotDeviceAsyncMgr.startMessager m s
    | .iotDeviceSync => IotDeviceSyncMgr.startMessager b.enableRaspberryFunc m e s
  | .connected m e =>
    match b.program with
    | .iotDeviceAsync => IotDeviceAsyncMgr.onConnected b.enableRaspberryFunc m e s
    | .iotDeviceSync => s
  | .arrive m parse e message => (m.messageArrived b parse e message s).toOption.elim s Prod.snd
  | .key m e => m.lightControl b e 1 s
  | .send m e nLightSwitch testTopic => m.sendMqttMessage e nLightSwitch testTopic s

/-- The number of reports that have been sent is that of the calls of `SendMqttMessage`. -/
def sends (s : Process) : ℕ :=
  (sentMessages s.calls).length

namespace Mgr

/-- The properties that `SendMqttMessage` reports. -/
def report (m : Mgr) (e : Env) (nLightSwitch : Int32) (s : Process) : Json.Value :=
  m.params e nLightSwitch (deviceIndexAt e (s.deviceIndex % 7))

/-- The next call of `SendMqttMessage` uses a subscript of the table, and posts entry number
`n` of the table, which starts over after its last entry. -/
structure PostsEntry (m : Mgr) (e : Env) (nLightSwitch : Int32) (testTopic : List UInt8)
    (s : Process) (n : ℕ) : Prop where
  subscript : 0 ≤ s.deviceIndex % 7 ∧ s.deviceIndex % 7 < 7
  message : m.sendMqttMessage e nLightSwitch testTopic s
    = { s with deviceIndex := s.deviceIndex + 1 }.call (.sendMessage ⟨cstr testTopic,
        Json.FastWriter.write e.sprintf
          (if m.bUsingProVersion then root (m.report e nLightSwitch s)
            else m.report e nLightSwitch s), 1, 0⟩)
  entry : (m.report e nLightSwitch s).member (ascii "deviceIndex")
    = .int (deviceIndexArray.getD (n % 7) 0).toInt64

end Mgr

/-! ### The counter -/

/-- The counter counts the reports, modulo `2 ^ 32`. -/
def Counts (s : Process) : Prop :=
  s.deviceIndex = Int32.ofNat (sends s)

theorem counts_init :
  Counts .init
  := rfl

/-- Calls that are no reports do not count. -/
theorem Counts.of_calls
    {s s' : Process} (h : Counts s) (hindex : s'.deviceIndex = s.deviceIndex)
    (hcalls : sentMessages s'.calls = sentMessages s.calls) :
  Counts s'
  := by
  rw [Counts, hindex, sends, hcalls]
  apply h

theorem Counts.call {s : Process} (h : Counts s) {c : Call} (hc : ∀ msg, c ≠ .sendMessage msg) :
  Counts (s.call c)
  := by
  apply Counts.of_calls h
  · rfl
  · cases c with
    | sendMessage msg => apply absurd rfl (hc msg)
    | create | connect | subscribe | freeMessage | free | gpioFselOutp | gpioWrite
    | lightControl => simp [Process.call, sentMessages]

/-- A report counts. -/
theorem Counts.sendMqttMessage
    {s : Process} (h : Counts s) (m : Mgr) (e : Env) (n : Int32) (topic : List UInt8) :
  Counts (m.sendMqttMessage e n topic s)
    ∧ sends (m.sendMqttMessage e n topic s) = sends s + 1
  := by
  have hsends : sends (m.sendMqttMessage e n topic s) = sends s + 1 := by
    simp [sends, Mgr.sendMqttMessage, Process.call, sentMessages]
  constructor
  · rw [Counts, hsends, Int32.ofNat_add, ← h]
    rfl
  · apply hsends

theorem Counts.lightControl
    {s : Process} (h : Counts s) (b : Build) (m : Mgr) (e : Env) (n : Int32) :
  Counts (m.lightControl b e n s) ∧ sends (m.lightControl b e n s) = sends s + 1
  := by
  have hpin : sentMessages (Mgr.writePin b n (s.call (.lightControl n))).calls
      = sentMessages s.calls := by
    rw [Mgr.calls_writePin, Build.pinCalls]
    split
    · simp [Process.call, sentMessages]
    · simp [Process.call, sentMessages]
  have hcounts : Counts (Mgr.writePin b n (s.call (.lightControl n))) := by
    apply h.of_calls _ hpin
    rw [Mgr.writePin]
    split
    · split
      · rfl
      · rfl
    · rfl
  obtain ⟨hcounts', hsends⟩ := hcounts.sendMqttMessage m e n m.strPostTopic
  use hcounts'
  apply hsends.trans
  rw [sends, hpin, sends]

/-- Every action keeps the count. -/
theorem Counts.act {s : Process} (h : Counts s) (b : Build) (a : Action) :
  Counts (act b s a)
  := by
  obtain ⟨program, enabled⟩ := b
  cases a with
  | start m e =>
    have hbuild : Counts (m.connect (m.buildMqttClient s)) :=
      (h.call (by simp)).call (by simp)
    cases program with
    | iotDeviceAsync => apply hbuild
    | iotDeviceSync => apply ((hbuild.call (by simp)).lightControl _ m e 1).1
  | connected m e =>
    cases program with
    | iotDeviceAsync => apply (h.lightControl _ m e 1).1.call (by simp)
    | iotDeviceSync => apply h
  | arrive m parse e message =>
    rw [IotDevice.act]
    cases hs : m.messageArrived ⟨program, enabled⟩ parse e message s with
    | error failure => apply h
    | ok r =>
      rcases Mgr.messageArrived_cases hs with hr | ⟨-, hr⟩
      · rw [Except.toOption, Option.elim, hr]
        apply h
      · rw [Except.toOption, Option.elim, hr]
        apply (h.lightControl _ m e 1).1
  | key m e => apply (h.lightControl _ m e 1).1
  | send m e n topic => apply (h.sendMqttMessage m e n topic).1

theorem counts_run (b : Build) (as : List Action) :
  Counts (as.foldl (act b) .init)
  := Run.invariant (I := Counts) (fun _ a hs => hs.act b a) counts_init as

/-! ### The table -/

/-- The counter stands at a subscript of the table that is in step after `n` reports: it is not
negative and has wrapped a multiple of seven times, or it is negative and a multiple of seven
and will have wrapped that often when it gets to zero. -/
def InStep (n : ℕ) : Prop :=
  (n % 4294967296 < 2147483648 ∧ 7 ∣ n / 4294967296)
    ∨ (2147483648 ≤ n % 4294967296 ∧ 7 ∣ 4294967296 - n % 4294967296 ∧ 7 ∣ n / 4294967296 + 1)

instance : DecidablePred InStep := fun _ => inferInstanceAs (Decidable (_ ∨ _))

theorem mod_seven (a b : ℕ) :
  (4294967296 * a + b) % 7 = (4 * a + b) % 7
  := by
  have h : 4294967296 * a + b = 7 * (613566756 * a) + (4 * a + b) := by omega
  rw [h, Nat.mul_add_mod]

/-- The subscript is the right one exactly when the counter is in step. -/
theorem inStep_iff (n : ℕ) :
  InStep n ↔ (Int32.ofNat n).toInt.tmod 7 = ((n % 7 : ℕ) : ℤ)
  := by
  have hlt := Nat.mod_lt n (show 4294967296 > 0 by decide)
  have hn := Nat.div_add_mod n 4294967296
  rcases Nat.lt_or_ge (n % 4294967296) 2147483648 with hsmall | hlarge
  · have hcounter : (Int32.ofNat n).toInt = ((n % 4294967296 : ℕ) : ℤ) := by
      rw [Int32.toInt_ofNat', Int.bmod_def, Int32.size]
      omega
    rw [hcounter, Int.tmod_eq_emod_of_nonneg (by omega), InStep]
    generalize n % 4294967296 = r at *
    generalize n / 4294967296 = q at *
    have hmod : n % 7 = (4 * q + r) % 7 := by
      rw [← hn, mod_seven]
    omega
  · have hcounter : (Int32.ofNat n).toInt = -((4294967296 - n % 4294967296 : ℕ) : ℤ) := by
      rw [Int32.toInt_ofNat', Int.bmod_def, Int32.size]
      omega
    rw [hcounter, Int.neg_tmod, Int.tmod_eq_emod_of_nonneg (by omega), InStep]
    generalize n % 4294967296 = r at *
    generalize n / 4294967296 = q at *
    have hmod : (n + (4294967296 - r)) % 7 = (4 * (q + 1) + 0) % 7 := by
      rw [← mod_seven]
      apply congrArg (· % 7)
      omega
    generalize 4294967296 - r = k at *
    omega

namespace Mgr

/-- The entries of the table are different. -/
theorem deviceIndexArray_inj {i j : ℕ} (hi : i < 7) (hj : j < 7)
    (h : deviceIndexArray.getD i 0 = deviceIndexArray.getD j 0) :
  i = j
  := by
  have hall : ∀ i < 7, ∀ j < 7,
      deviceIndexArray.getD i 0 = deviceIndexArray.getD j 0 → i = j := by
    decide
  apply hall i hi j hj h

theorem member_report (m : Mgr) (e : Env) (n : Int32) (s : Process) :
  (m.report e n s).member (ascii "deviceIndex")
    = .int (deviceIndexAt e (s.deviceIndex % 7)).toInt64
  := by
  simp only [report, params, Json.Value.member, Json.Members.find_insert]
  rfl

/-- A process that counts its reports posts the right entry exactly when its counter is in
step. -/
theorem postsEntry_iff_of_counts
    {s : Process} (h : Counts s) (m : Mgr) (e : Env) (n : Int32) (topic : List UInt8) :
  m.PostsEntry e n topic s (sends s) ↔ InStep (sends s)
  := by
  have hindex : (s.deviceIndex % 7).toInt = (Int32.ofNat (sends s)).toInt.tmod 7 := by
    rw [Int32.toInt_mod, h]
    rfl
  have hseven : (7 : Int32).toInt = 7 := rfl
  have hmod := Nat.mod_lt (sends s) (show 7 > 0 by decide)
  have hsubscript : 0 ≤ s.deviceIndex % 7 ∧ s.deviceIndex % 7 < 7
      ↔ 0 ≤ (s.deviceIndex % 7).toInt ∧ (s.deviceIndex % 7).toInt < 7 := by
    rw [Int32.le_iff_toInt_le, Int32.lt_iff_toInt_lt, Int32.toInt_zero, hseven]
  rw [inStep_iff, ← hindex]
  constructor
  · intro hposts
    have hentry := hposts.entry
    rw [member_report, deviceIndexAt, if_pos hposts.subscript, Json.Value.int.injEq,
      ← Int64.toInt_inj, Int32.toInt_toInt64, Int32.toInt_toInt64, Int32.toInt_inj] at hentry
    obtain ⟨hpos, hlt⟩ := hsubscript.mp hposts.subscript
    have hinj := deviceIndexArray_inj (by omega) hmod hentry
    omega
  · intro hstep
    have hbounds := hsubscript.mpr (by omega)
    constructor
    · apply hbounds
    · rfl
    · rw [member_report, deviceIndexAt, if_pos hbounds, hstep]
      rfl

end Mgr

/-- After any actions of a process, the next report uses a subscript of the table and posts the
entry whose turn it is exactly when the counter is in step. -/
theorem posts_entry_iff
    (b : Build) (as : List Action) (m : Mgr) (e : Env) (n : Int32) (topic : List UInt8) :
  let s := as.foldl (act b) .init
  m.PostsEntry e n topic s (sends s) ↔ InStep (sends s)
  := by
  intro s
  apply Mgr.postsEntry_iff_of_counts (counts_run b as)

/-! ### The counter wraps -/

/-- Every `1` on the command line is reported. -/
theorem sends_keys (b : Build) (m : Mgr) (e : Env) (k : ℕ) :
  sends ((List.replicate k (.key m e)).foldl (act b) .init) = k
  := by
  induction k with
  | zero => rfl
  | succ k ih =>
    rw [List.replicate_succ', List.foldl_concat]
    apply ((counts_run b _).lightControl b m e 1).2.trans
    rw [ih]

/-- After `2 ^ 31` reports the subscript is negative. -/
theorem not_posts_entry :
  ∃ m : Mgr, m.BuiltFrom Mgr.lamp ∧
    let s := (List.replicate 2147483648 (.key m Mgr.epoch)).foldl
      (act ⟨.iotDeviceAsync, true⟩) .init
    sends s = 2147483648 ∧ s.deviceIndex % 7 = -2
      ∧ ¬ m.PostsEntry Mgr.epoch 1 m.strPostTopic s (sends s)
  := by
  obtain ⟨m, hm⟩ := Mgr.exists_builtFrom Mgr.lamp (by decide)
  use m, hm
  intro s
  have hcounts : Counts s := counts_run _ _
  have hsends : sends s = 2147483648 := sends_keys _ m Mgr.epoch _
  use hsends
  constructor
  · rw [hcounts, hsends]
    decide
  · rw [Mgr.postsEntry_iff_of_counts hcounts, hsends]
    decide

end IotDevice
