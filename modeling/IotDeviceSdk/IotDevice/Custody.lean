import IotDeviceSdk.IotDevice.Network

/-!
# Messages in custody

A handler that returns a value other than `0` takes over the memory of the message and of its
topic, and has to release both with the functions of the messaging library.  `messageArrived`
returns `1` and releases nothing, so whatever has been delivered stays in its custody:
`released_run_iff`.
-/

namespace IotDevice

open CString

/-- The call releases memory of the messaging library. -/
def Call.isRelease : Call → Bool
  | .freeMessage _ => true
  | .free _ => true
  | _ => false

/-- The calls that release a message and its topic. -/
def Mgr.Message.releases (message : Mgr.Message) : List Call :=
  [.freeMessage message.payload, .free message.topicName]

/-- A message that is delivered, and what the handler finds around it. -/
structure Delivery where
  message : Mgr.Message
  env : Env

/-- A process and its ledger, the calls that it owes to the messaging library. -/
structure Custody where
  process : Process
  owed : List Call

namespace Mgr

/-- The releases that a process has made since the state `s`. -/
def releasesSince (s s' : Process) : List Call :=
  (Network.newCalls s s').filter Call.isRelease

/-- A delivery; one that crashes the process leaves it as it is. -/
def deliver (b : Build) (m : Mgr) (parse : List UInt8 → Option Json.Value) (v : Custody)
    (d : Delivery) : Custody :=
  match m.messageArrived b parse d.env d.message v.process with
  | .error _ => v
  | .ok (r, s) =>
    let handedOver := if r = 0 then [] else d.message.releases
    ⟨s, (v.owed ++ handedOver).diff (releasesSince v.process s)⟩

/-- The handler leaves the message to the library, or has released it and its topic once. -/
def Settles (b : Build) (m : Mgr) (parse : List UInt8 → Option Json.Value) (v : Custody)
    (d : Delivery) : Prop :=
  ∃ r s, m.messageArrived b parse d.env d.message v.process = .ok (r, s)
    ∧ (r = 0 ∨ (releasesSince v.process s).Perm d.message.releases)

/-- The handler returns: the message is on another topic, or cannot be parsed, or has the shape
of a command. -/
def Returns (m : Mgr) (parse : List UInt8 → Option Json.Value) (message : Message) : Prop :=
  strcasecmp message.topicName m.strSetTopic = 0 →
    ∀ root, parse message.payload = some root → WellShaped root

/-! ### What a delivery does -/

/-- `LightControl` releases nothing. -/
theorem releasesSince_lightControl (b : Build) (m : Mgr) (e : Env) (n : Int32) (s : Process) :
  releasesSince s (m.lightControl b e n s) = []
  := by
  obtain ⟨msg, -, hcalls⟩ := m.calls_lightControl b e n s
  rw [releasesSince, Network.newCalls, hcalls, List.drop_left, Build.pinCalls]
  split
  · rfl
  · rfl

/-- A handler that returns has accepted the message and released nothing. -/
theorem messageArrived_of_returns
    {m : Mgr} {parse : List UInt8 → Option Json.Value} {message : Message}
    (h : m.Returns parse message) (b : Build) (e : Env) (s : Process) :
  ∃ s', m.messageArrived b parse e message s = .ok (1, s') ∧ releasesSince s s' = []
  := by
  have hself : releasesSince s s = [] := by
    rw [releasesSince, Network.newCalls_self]
    rfl
  by_cases htopic : strcasecmp message.topicName m.strSetTopic = 0
  · cases hparse : parse message.payload with
    | none => exact ⟨s, messageArrived_of_parse_none hparse, hself⟩
    | some root =>
      obtain ⟨r, hr⟩ := (readCommand_isOk_iff root).mpr (h htopic root hparse)
      use m.lightControl b e 1 s
      constructor
      · rw [messageArrived_of_parse_some htopic hparse, hr]
        rfl
      · apply releasesSince_lightControl
  · exact ⟨s, messageArrived_of_ne htopic, hself⟩

/-- Whatever is delivered goes to the ledger. -/
theorem owed_deliver
    {m : Mgr} {parse : List UInt8 → Option Json.Value} {d : Delivery}
    (h : m.Returns parse d.message) (b : Build) (v : Custody) :
  (m.deliver b parse v d).owed = v.owed ++ d.message.releases
  := by
  obtain ⟨s, hs, hnone⟩ := messageArrived_of_returns h b d.env v.process
  rw [deliver, hs]
  dsimp only
  rw [hnone, List.diff_nil, if_neg (by decide)]

theorem not_settles
    {m : Mgr} {parse : List UInt8 → Option Json.Value} {d : Delivery}
    (h : m.Returns parse d.message) (b : Build) (v : Custody) :
  ¬ Settles b m parse v d
  := by
  obtain ⟨s, hs, hnone⟩ := messageArrived_of_returns h b d.env v.process
  rintro ⟨r, s', hs', hsettled⟩
  obtain ⟨rfl, rfl⟩ := Prod.mk.inj (Except.ok.inj (hs.symm.trans hs'))
  rw [hnone] at hsettled
  rcases hsettled with hzero | hperm
  · contradiction
  · apply List.cons_ne_nil _ _ hperm.nil_eq.symm

/-- The ledger of a run is all that has been delivered. -/
theorem owed_run
    {m : Mgr} {parse : List UInt8 → Option Json.Value} {ds : List Delivery}
    (h : ∀ d ∈ ds, m.Returns parse d.message) (b : Build) (v : Custody) :
  (ds.foldl (m.deliver b parse) v).owed = v.owed ++ ds.flatMap fun d => d.message.releases
  := by
  induction ds generalizing v with
  | nil => simp
  | cons d ds ih =>
    rw [List.forall_mem_cons] at h
    rw [List.foldl_cons, ih h.2, owed_deliver h.1, List.flatMap_cons, List.append_assoc]

/-- Of the messages for which the handler returns, none is ever released: after any deliveries,
the ledger is all that has been delivered, so every delivery is settled and leaves an empty
ledger only if there is none. -/
theorem released_run_iff
    (b : Build) (m : Mgr) (parse : List UInt8 → Option Json.Value) (s : Process)
    (ds : List Delivery) (hds : ∀ d ∈ ds, m.Returns parse d.message) :
  (ds.foldl (m.deliver b parse) ⟨s, []⟩).owed = ds.flatMap (fun d => d.message.releases)
    ∧ ((∀ pre d post, ds = pre ++ d :: post →
        Settles b m parse (pre.foldl (m.deliver b parse) ⟨s, []⟩) d
          ∧ ((pre ++ [d]).foldl (m.deliver b parse) ⟨s, []⟩).owed = [])
      ↔ ds = [])
  := by
  constructor
  · rw [owed_run hds, List.nil_append]
  · constructor
    · intro h
      cases ds with
      | nil => rfl
      | cons d ds =>
        have hfirst := (h [] d ds rfl).1
        apply absurd hfirst
        apply not_settles (hds d List.mem_cons_self)
    · rintro rfl pre d post hsplit
      simp at hsplit

/-- A message without payload on the topic `x`. -/
def foreignDelivery : Delivery :=
  ⟨.deliver (ascii "x") [], epoch⟩

theorem returns_foreignDelivery (m : Mgr) :
  m.Returns readEmpty foreignDelivery.message
  := by
  intro _ root hroot
  have hnone : readEmpty foreignDelivery.message.payload = none := rfl
  rw [hnone] at hroot
  contradiction

/-- The hypothesis of `released_run_iff` is met by a lamp and two messages on the topic `x`. -/
theorem lamp_released_run_iff :
  ∃ m : Mgr, m.BuiltFrom lamp
    ∧ ([foreignDelivery, foreignDelivery].foldl (m.deliver ⟨.iotDeviceAsync, true⟩ readEmpty)
          ⟨.init, []⟩).owed
        = [foreignDelivery, foreignDelivery].flatMap (fun d => d.message.releases)
    ∧ ((∀ pre d post, [foreignDelivery, foreignDelivery] = pre ++ d :: post →
        Settles ⟨.iotDeviceAsync, true⟩ m readEmpty
            (pre.foldl (m.deliver ⟨.iotDeviceAsync, true⟩ readEmpty) ⟨.init, []⟩) d
          ∧ ((pre ++ [d]).foldl (m.deliver ⟨.iotDeviceAsync, true⟩ readEmpty)
              ⟨.init, []⟩).owed = [])
      ↔ [foreignDelivery, foreignDelivery] = [])
  := by
  obtain ⟨m, hm⟩ := exists_builtFrom lamp (by decide)
  use m, hm
  apply released_run_iff
  intro d hd
  have hforeign : d = foreignDelivery := by
    simpa using hd
  rw [hforeign]
  apply returns_foreignDelivery

/-- A lamp accepts a message on the topic `x` and keeps its memory. -/
theorem lamp_keeps_foreignDelivery :
  ∃ m : Mgr, m.BuiltFrom lamp
    ∧ m.messageArrived ⟨.iotDeviceAsync, true⟩ readEmpty epoch foreignDelivery.message .init
        = .ok (1, .init)
    ∧ ¬ Settles ⟨.iotDeviceAsync, true⟩ m readEmpty ⟨.init, []⟩ foreignDelivery
    ∧ (m.deliver ⟨.iotDeviceAsync, true⟩ readEmpty ⟨.init, []⟩ foreignDelivery).owed
        = [.freeMessage [], .free [120, 0]]
  := by
  obtain ⟨m, hm⟩ := exists_builtFrom lamp (by decide)
  have hreturns := m.returns_foreignDelivery
  use m, hm
  constructor
  · apply messageArrived_of_parse_none
    rfl
  · constructor
    · apply not_settles hreturns
    · rw [owed_deliver hreturns]
      rfl

end Mgr

end IotDevice
