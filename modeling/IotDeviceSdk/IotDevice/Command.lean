import IotDeviceSdk.IotDevice.MessageArrived

/-!
# Commands

A command carries a light switch, and the device should do what it says: call `LightControl`
with it, set the pin to it, and report it.  `messageArrived` calls `LightControl` with `1`
whatever the command says, so a run of commands is obeyed exactly when all of them are to
switch the light on: `obeys_run_iff`.
-/

namespace IotDevice.Mgr

open CString

/-- The value is the number `n`. -/
def HoldsInt (value : Json.Value) (n : Int32) : Prop :=
  value = .int n.toInt64 ∨ ∃ u : UInt64, value = .uint u ∧ (u.toNat : ℤ) = n.toInt

/-- The value is a command with the light switch `v`. -/
structure IsCommand (root : Json.Value) (v : Int32) : Prop where
  object : ∃ members, root = .object members
  method : ∃ s, root.member (ascii "method") = .string s
  version : ∃ s, root.member (ascii "version") = .string s
  params : ∃ members, root.member (ascii "params") = .object members
  lightSwitch : HoldsInt ((root.member (ascii "params")).member (ascii "LightSwitch")) v

/-- A payload that arrives on the set topic, the light switch it carries, and what the device
finds around it. -/
structure Command where
  payload : List UInt8
  lightSwitch : Int32
  env : Env

/-- The payload of a command can be parsed to one. -/
def Command.Parses (c : Command) (parse : List UInt8 → Option Json.Value) : Prop :=
  ∃ root, parse c.payload = some root ∧ IsCommand root c.lightSwitch

/-- What `messageArrived` makes of a command. -/
def handle (b : Build) (m : Mgr) (parse : List UInt8 → Option Json.Value) (s : Process)
    (c : Command) : Except Json.Failure (Int32 × Process) :=
  m.messageArrived b parse c.env (.deliver m.strSetTopic c.payload) s

/-- The process after some commands; one that crashes it leaves it as it is. -/
def obey (b : Build) (m : Mgr) (parse : List UInt8 → Option Json.Value) (s : Process)
    (cs : List Command) : Process :=
  cs.foldl (fun s c => (m.handle b parse s c).toOption.elim s Prod.snd) s

/-- The device does what the command says: it calls `LightControl` once, with the light switch of
the command, the pin is high if and only if the light is to be on, and it reports once. -/
def Obeys (b : Build) (m : Mgr) (parse : List UInt8 → Option Json.Value) (s : Process)
    (c : Command) : Prop :=
  ∃ s' calls, m.handle b parse s c = .ok (1, s') ∧ s'.calls = s.calls ++ calls
    ∧ lightControls calls = [c.lightSwitch]
    ∧ (b.enableRaspberryFunc →
        pinLevel b.program.pin s'.calls = some (if c.lightSwitch ≠ 0 then .high else .low))
    ∧ ∃ msg, sentMessages calls = [msg] ∧ m.Reports c.env c.lightSwitch msg

/-! ### What the device does -/

theorem IsCommand.wellShaped {root : Json.Value} {v : Int32} (h : IsCommand root v) :
  WellShaped root
  := by
  obtain ⟨⟨members, rfl⟩, ⟨method, hmethod⟩, ⟨version, hversion⟩, ⟨params, hparams⟩, hswitch⟩ := h
  have hle := v.le_toInt
  have hlt := v.toInt_lt
  constructor
  · trivial
  · rw [hmethod]
    trivial
  · rw [hversion]
    trivial
  · rw [hparams]
    trivial
  · rcases hswitch with hint | ⟨u, huint, hu⟩
    · rw [hint]
      simp only [Json.Value.ConvertibleToInt, Int32.toInt_toInt64, Json.Value.minInt,
        Json.Value.maxInt]
      omega
    · rw [huint]
      simp only [Json.Value.ConvertibleToInt, Json.Value.maxInt]
      omega

/-- A command makes the light go on. -/
theorem handle_eq
    {c : Command} {parse : List UInt8 → Option Json.Value} (hc : c.Parses parse) (b : Build)
    (m : Mgr) (s : Process) :
  m.handle b parse s c = .ok (1, m.lightControl b c.env 1 s)
  := by
  obtain ⟨root, hparse, hroot⟩ := hc
  obtain ⟨r, hr⟩ := (readCommand_isOk_iff root).mpr hroot.wellShaped
  have htopic := strcasecmp_append_zero_self m.strSetTopic
  rw [handle, messageArrived_of_parse_some htopic hparse, hr]
  rfl

/-- A command is obeyed exactly when it is to switch the light on. -/
theorem obeys_iff
    {c : Command} {parse : List UInt8 → Option Json.Value} (hc : c.Parses parse) (b : Build)
    (m : Mgr) (s : Process) :
  Obeys b m parse s c ↔ c.lightSwitch = 1
  := by
  obtain ⟨msg, hmsg, hcalls⟩ := m.calls_lightControl b c.env 1 s
  obtain ⟨hcontrols, hsent, hpin⟩ := seen_of_calls b 1 msg s.calls
  constructor
  · rintro ⟨s', calls, hs', hcalls', hcontrols', -⟩
    obtain ⟨-, rfl⟩ := Prod.mk.inj (Except.ok.inj ((handle_eq hc b m s).symm.trans hs'))
    obtain rfl := List.append_cancel_left (hcalls.symm.trans hcalls')
    rw [hcontrols] at hcontrols'
    apply (List.head_eq_of_cons_eq hcontrols').symm
  · intro hv
    refine ⟨m.lightControl b c.env 1 s, _, handle_eq hc b m s, hcalls, ?_⟩
    rw [hv]
    use hcontrols
    constructor
    · rw [hcalls]
      apply hpin
    · exact ⟨msg, hsent, hmsg⟩

/-- In a run of commands, every command is obeyed exactly when all of them are to switch the
light on. -/
theorem obeys_run_iff
    (b : Build) (m : Mgr) (parse : List UInt8 → Option Json.Value) (s : Process)
    (cs : List Command) (hcs : ∀ c ∈ cs, c.Parses parse) :
  (∀ pre c post, cs = pre ++ c :: post → Obeys b m parse (m.obey b parse s pre) c)
    ↔ ∀ c ∈ cs, c.lightSwitch = 1
  := by
  constructor
  · intro h c hc
    obtain ⟨pre, post, rfl⟩ := List.append_of_mem hc
    apply (obeys_iff (hcs c hc) b m _).mp
    apply h pre c post rfl
  · rintro h pre c post rfl
    have hc : c ∈ pre ++ c :: post := List.mem_append_right _ List.mem_cons_self
    apply (obeys_iff (hcs c hc) b m _).mpr
    apply h c hc

/-! ### Two commands -/

/-- The command that switches a light to `v`, as it is read. -/
def switchRoot (v : Int32) : Json.Value :=
  .object [(ascii "method", .string (ascii "thing.service.property.set")),
    (ascii "params", .object [(ascii "LightSwitch", .int v.toInt64)]),
    (ascii "version", .string (ascii "1.0"))]

theorem isCommand_switchRoot (v : Int32) :
  IsCommand (switchRoot v) v
  where
  object := ⟨_, rfl⟩
  method := ⟨ascii "thing.service.property.set", rfl⟩
  version := ⟨ascii "1.0", rfl⟩
  params := ⟨_, rfl⟩
  lightSwitch := Or.inl rfl

/-- The text of the command that switches a light to `v`. -/
def switchText (v : Int32) : List UInt8 :=
  Json.FastWriter.write (fun _ => []) (switchRoot v)

/-- A reader of the commands that switch a light off and on. -/
def readSwitch (payload : List UInt8) : Option Json.Value :=
  if payload = switchText 0 then some (switchRoot 0)
  else if payload = switchText 1 then some (switchRoot 1)
  else none

/-- The hypothesis of `obeys_run_iff` is met by the commands to switch a light on and off. -/
theorem obeys_run_on_off_iff :
  let cs := [Command.mk (switchText 1) 1 epoch, Command.mk (switchText 0) 0 epoch]
  ∃ m : Mgr, m.BuiltFrom lamp
    ∧ ((∀ pre c post, cs = pre ++ c :: post →
          Obeys ⟨.iotDeviceAsync, true⟩ m readSwitch
            (m.obey ⟨.iotDeviceAsync, true⟩ readSwitch .init pre) c)
      ↔ ∀ c ∈ cs, c.lightSwitch = 1)
  := by
  intro cs
  obtain ⟨m, hm⟩ := exists_builtFrom lamp (by decide)
  use m, hm
  apply obeys_run_iff
  intro c hc
  obtain rfl | rfl : c = ⟨switchText 1, 1, epoch⟩ ∨ c = ⟨switchText 0, 0, epoch⟩ := by
    simpa [cs] using hc
  · use switchRoot 1
    constructor
    · apply (if_neg (by decide)).trans (if_pos rfl)
    · apply isCommand_switchRoot
  · use switchRoot 0
    constructor
    · apply if_pos rfl
    · apply isCommand_switchRoot

/-- The command to switch the light off switches it on. -/
theorem not_obeys_off :
  ∃ m : Mgr, m.BuiltFrom lamp
    ∧ Command.Parses ⟨switchText 0, 0, epoch⟩ readSwitch
    ∧ ¬ Obeys ⟨.iotDeviceAsync, true⟩ m readSwitch .init ⟨switchText 0, 0, epoch⟩
  := by
  obtain ⟨m, hm⟩ := exists_builtFrom lamp (by decide)
  have hc : Command.Parses ⟨switchText 0, 0, epoch⟩ readSwitch := by
    use switchRoot 0
    constructor
    · apply if_pos rfl
    · apply isCommand_switchRoot
  use m, hm, hc
  rw [obeys_iff hc]
  decide

end IotDevice.Mgr
