import IotDeviceSdk.IotDevice.Topics

/-!
# Messages that arrive

What `messageArrived` does with a message: it ignores messages whose topic is not its own,
up to letter case (`ignores_foreign_topics`), and those that cannot be parsed.  A command
makes the light go on when it has the shape that `readCommand` can read, and crashes the
device otherwise (`messageArrived_completes_iff`).
-/

namespace IotDevice

open CString

/-! ### The calls of `LightControl` -/

/-- The properties that a report of the manager `m` tells about. -/
def Mgr.properties (m : Mgr) (report : Json.Value) : Json.Value :=
  if m.bUsingProVersion then report.member (ascii "params") else report

/-- The message `msg` of the manager `m` reports the light switch `n` on its post topic. -/
structure Mgr.Reports (m : Mgr) (e : Env) (n : Int32) (msg : PubMsg) : Prop where
  topic : msg.topic = cstr m.strPostTopic
  payload : ∃ report, msg.payload = Json.FastWriter.write e.sprintf report
    ∧ (m.properties report).member (ascii "LightSwitch") = .int n.toInt64
    ∧ (m.properties report).member (ascii "deviceState") = .string (StringHelper.valueOfInt n)

/-- The arguments of the calls of `LightControl`. -/
def lightControls (calls : List Call) : List Int32 :=
  calls.filterMap fun
    | .lightControl n => some n
    | _ => none

/-- The messages handed to the messaging library. -/
def sentMessages (calls : List Call) : List PubMsg :=
  calls.filterMap fun
    | .sendMessage msg => some msg
    | _ => none

/-- The level of a pin, once it was written to. -/
def pinLevel (pin : Pin) (calls : List Call) : Option Level :=
  List.getLast? <| calls.filterMap fun
    | .gpioWrite p level => if p = pin then some level else none
    | _ => none

/-- The calls that `LightControl` makes to the pin. -/
def Build.pinCalls (b : Build) (nLightSwitch : Int32) : List Call :=
  if b.enableRaspberryFunc then
    [.gpioFselOutp b.program.pin,
      .gpioWrite b.program.pin (if nLightSwitch ≠ 0 then .high else .low)]
  else
    []

namespace Mgr

theorem member_params (m : Mgr) (e : Env) (n i : Int32) :
  (m.params e n i).member (ascii "LightSwitch") = .int n.toInt64
    ∧ (m.params e n i).member (ascii "deviceState") = .string (StringHelper.valueOfInt n)
  := by
  simp only [params, Json.Value.member, Json.Members.find_insert]
  constructor
  · rfl
  · rfl

theorem member_root_params (params : Json.Value) :
  (root params).member (ascii "params") = params
  := by
  simp only [root, Json.Value.member, Json.Members.find_insert]
  rfl

/-- A report is one call to the messaging library. -/
theorem calls_sendMqttMessage (m : Mgr) (e : Env) (n : Int32) (s : Process) :
  ∃ msg, m.Reports e n msg
    ∧ (m.sendMqttMessage e n m.strPostTopic s).calls = s.calls ++ [.sendMessage msg]
  := by
  have hparams := m.member_params e n (deviceIndexAt e (s.deviceIndex % 7))
  use {
    topic := cstr m.strPostTopic
    payload := Json.FastWriter.write e.sprintf
      (if m.bUsingProVersion then root (m.params e n (deviceIndexAt e (s.deviceIndex % 7)))
        else m.params e n (deviceIndexAt e (s.deviceIndex % 7)))
    qos := 1
    retained := 0 }
  constructor
  · constructor
    · rfl
    · refine ⟨_, rfl, ?_⟩
      rw [properties]
      split
      · rw [member_root_params]
        apply hparams
      · apply hparams
  · rfl

theorem calls_writePin (b : Build) (n : Int32) (s : Process) :
  (writePin b n s).calls = s.calls ++ b.pinCalls n
  := by
  rw [writePin, Build.pinCalls]
  split
  · split
    · simp [Process.call]
    · simp [Process.call]
  · simp

/-- `LightControl` records itself, sets the pin and reports. -/
theorem calls_lightControl (b : Build) (m : Mgr) (e : Env) (n : Int32) (s : Process) :
  ∃ msg, m.Reports e n msg
    ∧ (m.lightControl b e n s).calls
      = s.calls ++ (.lightControl n :: b.pinCalls n ++ [.sendMessage msg])
  := by
  obtain ⟨msg, hmsg, hcalls⟩ :=
    m.calls_sendMqttMessage e n (writePin b n (s.call (.lightControl n)))
  use msg, hmsg
  apply hcalls.trans
  rw [calls_writePin]
  simp [Process.call]

/-- What is seen of the calls of `LightControl`. -/
theorem seen_of_calls (b : Build) (n : Int32) (msg : PubMsg) (before : List Call) :
  lightControls (.lightControl n :: b.pinCalls n ++ [.sendMessage msg]) = [n]
    ∧ sentMessages (.lightControl n :: b.pinCalls n ++ [.sendMessage msg]) = [msg]
    ∧ (b.enableRaspberryFunc →
        pinLevel b.program.pin
            (before ++ (.lightControl n :: b.pinCalls n ++ [.sendMessage msg]))
          = some (if n ≠ 0 then .high else .low))
  := by
  obtain ⟨program, enabled⟩ := b
  cases enabled with
  | false => simp [lightControls, sentMessages, Build.pinCalls]
  | true => simp [lightControls, sentMessages, pinLevel, Build.pinCalls]

/-! ### Commands -/

/-- The values that `readCommand` can read. -/
structure WellShaped (root : Json.Value) : Prop where
  hasMembers : root.HasMembers
  method : (root.member (ascii "method")).ConvertibleToString
  version : (root.member (ascii "version")).ConvertibleToString
  params : (root.member (ascii "params")).HasMembers
  lightSwitch : ((root.member (ascii "params")).member (ascii "LightSwitch")).ConvertibleToInt

theorem bind_eq_ok_iff {ε α β : Type} {x : Except ε α} {f : α → Except ε β} {r : β} :
  (x >>= f) = .ok r ↔ ∃ a, x = .ok a ∧ f a = .ok r
  := by
  cases x with
  | error _ => simp [bind, Except.bind]
  | ok a => simp [bind, Except.bind]

/-- On a value with members, `readCommand` reads these. -/
theorem readCommand_of_hasMembers {root : Json.Value} (h : root.HasMembers) :
  readCommand root = do
    let strMethod ← (root.member (ascii "method")).asString
    let strVersion ← (root.member (ascii "version")).asString
    let (switch, _) ← (root.member (ascii "params")).resolveReference (ascii "LightSwitch")
    let lightSwitch ← switch.asInt
    return (strMethod, strVersion, lightSwitch)
  := by
  obtain ⟨root₁, hmethod, h₁, hmember₁⟩ :=
    Json.Value.resolveReference_of_hasMembers h (ascii "method")
  obtain ⟨root₂, hversion, h₂, hmember₂⟩ :=
    Json.Value.resolveReference_of_hasMembers h₁ (ascii "version")
  obtain ⟨root₃, hparams, -⟩ := Json.Value.resolveReference_of_hasMembers h₂ (ascii "params")
  rw [hmember₁] at hversion
  rw [hmember₂, hmember₁] at hparams
  rw [readCommand]
  simp only [hmethod, hversion, hparams, bind, Except.bind]

theorem readCommand_isOk_iff (root : Json.Value) :
  (∃ r, readCommand root = .ok r) ↔ WellShaped root
  := by
  by_cases h : root.HasMembers
  · rw [readCommand_of_hasMembers h]
    simp only [bind_eq_ok_iff]
    constructor
    · rintro ⟨r, strMethod, hmethod, strVersion, hversion, ⟨switch, params⟩, hswitch, n, hn, -⟩
      have hparams : (root.member (ascii "params")).HasMembers := by
        by_contra hno
        rw [Json.Value.resolveReference_of_not_hasMembers hno] at hswitch
        contradiction
      obtain ⟨params', hswitch', -⟩ :=
        Json.Value.resolveReference_of_hasMembers hparams (ascii "LightSwitch")
      obtain ⟨rfl, -⟩ := Prod.mk.inj (Except.ok.inj (hswitch'.symm.trans hswitch))
      constructor
      · apply h
      · apply (Json.Value.asString_isOk_iff _).mp ⟨strMethod, hmethod⟩
      · apply (Json.Value.asString_isOk_iff _).mp ⟨strVersion, hversion⟩
      · apply hparams
      · apply (Json.Value.asInt_isOk_iff _).mp ⟨n, hn⟩
    · intro hshape
      obtain ⟨strMethod, hmethod⟩ := (Json.Value.asString_isOk_iff _).mpr hshape.method
      obtain ⟨strVersion, hversion⟩ := (Json.Value.asString_isOk_iff _).mpr hshape.version
      obtain ⟨params, hswitch, -⟩ :=
        Json.Value.resolveReference_of_hasMembers hshape.params (ascii "LightSwitch")
      obtain ⟨n, hn⟩ := (Json.Value.asInt_isOk_iff _).mpr hshape.lightSwitch
      exact ⟨_, strMethod, hmethod, strVersion, hversion, _, hswitch, n, hn, rfl⟩
  · have hfail : readCommand root = .error .assertionFailed := by
      rw [readCommand]
      rw [Json.Value.resolveReference_of_not_hasMembers h]
      rfl
    rw [hfail]
    constructor
    · rintro ⟨r, hr⟩
      contradiction
    · intro hshape
      apply absurd hshape.hasMembers h

/-! ### The three outcomes of a message -/

section

variable {b : Build} {m : Mgr} {parse : List UInt8 → Option Json.Value} {e : Env}
  {message : Message} {s : Process}

/-- A message on another topic is ignored. -/
theorem messageArrived_of_ne (h : strcasecmp message.topicName m.strSetTopic ≠ 0) :
  m.messageArrived b parse e message s = .ok (1, s)
  := by
  rw [messageArrived, if_neg h]
  rfl

/-- A message that cannot be parsed is ignored. -/
theorem messageArrived_of_parse_none (h : parse message.payload = none) :
  m.messageArrived b parse e message s = .ok (1, s)
  := by
  rw [messageArrived]
  rw [h]
  split
  · rfl
  · rfl

/-- A command on the own topic makes the light go on, if it can be read. -/
theorem messageArrived_of_parse_some
    (h : strcasecmp message.topicName m.strSetTopic = 0) {root : Json.Value}
    (hparse : parse message.payload = some root) :
  m.messageArrived b parse e message s
    = (readCommand root).bind fun _ => .ok (1, m.lightControl b e 1 s)
  := by
  rw [messageArrived, if_pos h, hparse]
  rfl

/-- A handler that runs to its end either leaves the process alone, or the topic passes for the
set topic and the handler has called `LightControl`. -/
theorem messageArrived_cases
    {s' : Process} {r : Int32} (h : m.messageArrived b parse e message s = .ok (r, s')) :
  s' = s ∨ (strcasecmp message.topicName m.strSetTopic = 0 ∧ s' = m.lightControl b e 1 s)
  := by
  by_cases htopic : strcasecmp message.topicName m.strSetTopic = 0
  · cases hparse : parse message.payload with
    | none =>
      rw [messageArrived_of_parse_none hparse] at h
      left
      apply (Prod.mk.inj (Except.ok.inj h)).2.symm
    | some root =>
      rw [messageArrived_of_parse_some htopic hparse] at h
      obtain ⟨-, -, h⟩ := bind_eq_ok_iff.mp h
      right
      use htopic
      apply (Prod.mk.inj (Except.ok.inj h)).2.symm
  · rw [messageArrived_of_ne htopic] at h
    left
    apply (Prod.mk.inj (Except.ok.inj h)).2.symm

end

/-- The handler ran to its end and returned `1`. -/
def Completes (result : Except Json.Failure (Int32 × Process)) : Prop :=
  ∃ s, result = .ok (1, s)

/-- A message is handled to the end exactly when it is on another topic, or cannot be
parsed, or has the shape of a command. -/
theorem messageArrived_completes_iff
    (b : Build) (m : Mgr) (parse : List UInt8 → Option Json.Value) (e : Env) (message : Message)
    (s : Process) :
  Completes (m.messageArrived b parse e message s)
    ↔ strcasecmp message.topicName m.strSetTopic ≠ 0 ∨ parse message.payload = none
      ∨ ∃ root, parse message.payload = some root ∧ WellShaped root
  := by
  rw [Completes]
  by_cases htopic : strcasecmp message.topicName m.strSetTopic = 0
  · cases hparse : parse message.payload with
    | none => simp [messageArrived_of_parse_none hparse]
    | some root =>
      rw [messageArrived_of_parse_some htopic hparse]
      have hread := readCommand_isOk_iff root
      constructor
      · rintro ⟨s', h⟩
        obtain ⟨r, hr, -⟩ := bind_eq_ok_iff.mp h
        exact Or.inr (Or.inr ⟨root, rfl, hread.mp ⟨r, hr⟩⟩)
      · intro h
        rcases h with h | h | ⟨_, hroot, hshape⟩
        · contradiction
        · contradiction
        · obtain rfl := Option.some.inj hroot
          obtain ⟨r, hr⟩ := hread.mpr hshape
          exact ⟨_, bind_eq_ok_iff.mpr ⟨r, hr, rfl⟩⟩
  · simp [messageArrived_of_ne htopic, htopic]

/-! ### Examples of messages -/

/-- A lamp. -/
def lamp : IotDeviceIdentity where
  productKey := ascii "a1onpCjBsoK"
  deviceName := ascii "lamp"
  deviceSecret := ascii "secret"
  isProVersion := true

/-- A call on a device at the start of the epoch. -/
def epoch : Env where
  tm := ⟨70, 0, 1, 0, 0, 0⟩
  outside _ := 0
  sprintf _ := []

/-- A reader of the texts `[]` and `{}`. -/
def readEmpty (payload : List UInt8) : Option Json.Value :=
  if payload = ascii "[]" then some (.array [])
  else if payload = ascii "\x7b\x7d" then some (.object [])
  else none

/-- An empty array on its set topic crashes a lamp. -/
theorem not_completes_empty_array :
  ∃ m : Mgr, m.BuiltFrom lamp
    ∧ ¬ Completes (m.messageArrived ⟨.iotDeviceAsync, true⟩ readEmpty epoch
        (.deliver m.strSetTopic (ascii "[]")) .init)
  := by
  obtain ⟨m, hm⟩ := exists_builtFrom lamp (by decide)
  use m, hm
  have htopic := strcasecmp_append_zero_self m.strSetTopic
  have hparse : readEmpty (ascii "[]") = some (.array []) := if_pos rfl
  rintro ⟨s, hs⟩
  rw [messageArrived_of_parse_some htopic hparse] at hs
  contradiction

/-! ### Topics of other devices -/

theorem topic_of_topicLen_eq_zero {message : Message} (h : message.topicLen = 0) :
  message.topic = cstr message.topicName
  := by
  rw [Message.topic, h]
  rfl

/-- The topics that pass for the set topic of a device. -/
theorem strcasecmp_strSetTopic_eq_zero_iff
    {m : Mgr} {i : IotDeviceIdentity} (hm : m.BuiltFrom i) (hi : i.NulFree) (s : List UInt8) :
  strcasecmp s m.strSetTopic = 0 ↔ fold (cstr s) = fold m.strSetTopic
  := by
  have hset := strSetTopic_of_builtFrom hm
  have hnul := (zero_notMem_topics hi).1
  rw [← hset] at hnul
  rw [strcasecmp_eq_zero_iff, cstr_eq_self hnul]

/-- A device ignores messages whose topic is not its set topic up to letter case, so no
device acts on a message to another whose set topic differs in more than letter case. -/
theorem ignores_foreign_topics
    (b : Build) (m : Mgr) (i : IotDeviceIdentity) (parse : List UInt8 → Option Json.Value)
    (e : Env) (message : Message) (s : Process) (hm : m.BuiltFrom i) (hi : i.NulFree)
    (hlen : message.topicLen = 0) :
  (fold message.topic ≠ fold m.strSetTopic → m.messageArrived b parse e message s = .ok (1, s))
    ∧ ∀ (m' : Mgr) (i' : IotDeviceIdentity), m'.BuiltFrom i' → i'.NulFree →
        fold m'.strSetTopic ≠ fold m.strSetTopic → message.topic = m'.strSetTopic →
        m.messageArrived b parse e message s = .ok (1, s)
  := by
  have hforeign : fold message.topic ≠ fold m.strSetTopic →
      m.messageArrived b parse e message s = .ok (1, s) := by
    intro h
    apply messageArrived_of_ne
    rw [ne_eq, strcasecmp_strSetTopic_eq_zero_iff hm hi, ← topic_of_topicLen_eq_zero hlen]
    apply h
  constructor
  · apply hforeign
  · intro m' i' _ _ hne htopic
    apply hforeign
    rw [htopic]
    apply hne

/-- The hypotheses of `ignores_foreign_topics` are met by a lamp and a message on the topic
`x`. -/
theorem lamp_ignores_foreign_topics :
  ∃ m : Mgr, m.BuiltFrom lamp
    ∧ (fold (Message.deliver (ascii "x") []).topic ≠ fold m.strSetTopic →
        m.messageArrived ⟨.iotDeviceAsync, true⟩ readEmpty epoch (.deliver (ascii "x") []) .init
          = .ok (1, .init))
    ∧ ∀ (m' : Mgr) (i' : IotDeviceIdentity), m'.BuiltFrom i' → i'.NulFree →
        fold m'.strSetTopic ≠ fold m.strSetTopic →
        (Message.deliver (ascii "x") []).topic = m'.strSetTopic →
        m.messageArrived ⟨.iotDeviceAsync, true⟩ readEmpty epoch (.deliver (ascii "x") []) .init
          = .ok (1, .init)
  := by
  obtain ⟨m, hm⟩ := exists_builtFrom lamp (by decide)
  use m, hm
  apply ignores_foreign_topics _ m lamp _ _ _ _ hm
  · decide
  · decide

/-- A lamp whose name is written with a capital letter. -/
def capitalLamp : IotDeviceIdentity :=
  { lamp with deviceName := ascii "Lamp" }

/-- A lamp acts on the messages to another lamp whose name differs in letter case only. -/
theorem lamp_obeys_capitalLamp :
  ∃ m m' : Mgr, m.BuiltFrom lamp ∧ m'.BuiltFrom capitalLamp
    ∧ (Message.deliver m'.strSetTopic (ascii "\x7b\x7d")).topic ≠ m.strSetTopic
    ∧ m.messageArrived ⟨.iotDeviceAsync, true⟩ readEmpty epoch
        (.deliver m'.strSetTopic (ascii "\x7b\x7d")) .init
      = .ok (1, m.lightControl ⟨.iotDeviceAsync, true⟩ epoch 1 .init)
  := by
  obtain ⟨m, hm⟩ := exists_builtFrom lamp (by decide)
  obtain ⟨m', hm'⟩ := exists_builtFrom capitalLamp (by decide)
  use m, m', hm, hm'
  have hset := strSetTopic_of_builtFrom hm
  have hset' := strSetTopic_of_builtFrom hm'
  have htopic : strcasecmp (m'.strSetTopic ++ [0]) m.strSetTopic = 0 := by
    rw [hset, hset']
    decide
  have hparse : readEmpty (ascii "\x7b\x7d") = some (.object []) := by rfl
  constructor
  · rw [hset, hset']
    decide
  · rw [messageArrived_of_parse_some htopic hparse]
    rfl

end Mgr

end IotDevice
