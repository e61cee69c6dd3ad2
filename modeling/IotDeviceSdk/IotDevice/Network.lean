import IotDeviceSdk.IotDevice.MessageArrived
import Mathlib.Logic.Function.Basic

/-!
# A population of devices

Devices publish their reports, others publish what they like, and anything published may be
delivered to any device, in any order and any number of times.  A report never makes a
device switch its light, so it causes no further report: `no_feedback`.
-/

namespace IotDevice

open CString

/-- A device of a population: a manager with the identity it was constructed from. -/
structure Device where
  identity : IotDeviceIdentity
  build : Build
  mgr : Mgr
  builtFrom : mgr.BuiltFrom identity
  nulFree : identity.NulFree

namespace Network

variable {ι : Type*}

/-- Who published a message. -/
inductive Source (ι : Type*) where
  | device (i : ι)
  | outside

/-- A message that was published. -/
structure Packet (ι : Type*) where
  source : Source ι
  topic : List UInt8
  payload : List UInt8

/-- The state of a population: the processes of the devices, what has been published, and
the packets that made a handler call `LightControl`, with the device. -/
structure State (ι : Type*) where
  process : ι → Process
  packets : List (Packet ι)
  caused : List (ι × Packet ι)

/-- The population before any call. -/
def init : State ι where
  process _ := .init
  packets := []
  caused := []

/-- The calls by which the process `s'` is ahead of `s`. -/
def newCalls (s s' : Process) : List Call :=
  s'.calls.drop s.calls.length

/-- What the device `i` publishes by some calls. -/
def published (i : ι) (calls : List Call) : List (Packet ι) :=
  (sentMessages calls).map fun msg => ⟨.device i, msg.topic, msg.payload⟩

variable [DecidableEq ι]

/-- The population after the process of the device `i` went on to be `s`. -/
def State.advance (net : State ι) (i : ι) (s : Process) : State ι :=
  { net with
    process := Function.update net.process i s
    packets := net.packets ++ published i (newCalls (net.process i) s) }

/-- The steps of a population.  A handler that fails takes no step: it has called nothing. -/
inductive Step (parse : List UInt8 → Option Json.Value) (devices : ι → Device) :
    State ι → State ι → Prop where
  /-- somebody else publishes a message -/
  | publish (net : State ι) (topic payload : List UInt8) :
    Step parse devices net { net with packets := net.packets ++ [⟨.outside, topic, payload⟩] }
  /-- a device calls `LightControl` when it starts, or by its own command line -/
  | control (net : State ι) (i : ι) (e : Env) (n : Int32) :
    Step parse devices net
      (net.advance i ((devices i).mgr.lightControl (devices i).build e n (net.process i)))
  /-- a message is delivered to a device, which handles it -/
  | deliver (net : State ι) (i : ι) (e : Env) (packet : Packet ι) (hp : packet ∈ net.packets)
      (r : Int32) (s : Process)
      (hs : (devices i).mgr.messageArrived (devices i).build parse e
          (.deliver packet.topic packet.payload) (net.process i) = .ok (r, s)) :
    Step parse devices net
      { net.advance i s with
        caused := net.caused
          ++ (lightControls (newCalls (net.process i) s)).map fun _ => (i, packet) }

/-- The states that a population can get to. -/
inductive Reachable (parse : List UInt8 → Option Json.Value) (devices : ι → Device) :
    State ι → Prop where
  | init : Reachable parse devices init
  | step {net net' : State ι} :
    Reachable parse devices net → Step parse devices net net' → Reachable parse devices net'

/-- What the devices published is on their post topics, and only others have caused calls of
`LightControl`. -/
structure Invariant (devices : ι → Device) (net : State ι) : Prop where
  topic : ∀ p ∈ net.packets, ∀ i, p.source = .device i → p.topic = (devices i).mgr.strPostTopic
  source : ∀ c ∈ net.caused, c.2.source = .outside

end Network

/-! ### Topics -/

/-- The post topic of a device does not pass for the set topic of any. -/
theorem Device.strcasecmp_ne_zero (d d' : Device) :
  strcasecmp d.mgr.strPostTopic d'.mgr.strSetTopic ≠ 0
  := by
  rw [ne_eq, strcasecmp_eq_zero_iff, Mgr.strPostTopic_of_builtFrom d.builtFrom,
    Mgr.strSetTopic_of_builtFrom d'.builtFrom,
    cstr_eq_self (Mgr.zero_notMem_topics d.nulFree).2,
    cstr_eq_self (Mgr.zero_notMem_topics d'.nulFree).1]
  apply Mgr.fold_postTopic_ne_fold_setTopic

/-- What a device publishes is on its post topic. -/
theorem Device.cstr_strPostTopic (d : Device) :
  cstr d.mgr.strPostTopic = d.mgr.strPostTopic
  := by
  rw [Mgr.strPostTopic_of_builtFrom d.builtFrom]
  apply cstr_eq_self (Mgr.zero_notMem_topics d.nulFree).2

namespace Network

variable {ι : Type*}

/-! ### What a step publishes -/

theorem newCalls_self (s : Process) :
  newCalls s s = []
  := List.drop_length

/-- What `LightControl` publishes is on the post topic of the device. -/
theorem topic_of_mem_published
    (d : Device) (i : ι) (e : Env) (n : Int32) (s : Process) {p : Packet ι}
    (hp : p ∈ published i (newCalls s (d.mgr.lightControl d.build e n s))) :
  p.source = .device i ∧ p.topic = d.mgr.strPostTopic
  := by
  obtain ⟨msg, hmsg, hcalls⟩ := d.mgr.calls_lightControl d.build e n s
  obtain ⟨-, hsent, -⟩ := Mgr.seen_of_calls d.build n msg s.calls
  rw [published, newCalls, hcalls, List.drop_left, hsent, List.map_singleton,
    List.mem_singleton] at hp
  rw [hp]
  constructor
  · rfl
  · rw [hmsg.topic]
    apply d.cstr_strPostTopic

variable {parse : List UInt8 → Option Json.Value} {devices : ι → Device}

/-- A packet whose topic passes for the set topic of a device is from outside. -/
theorem Invariant.source_of_strcasecmp
    {net : State ι} (h : Invariant devices net) {p : Packet ι} (hp : p ∈ net.packets) {i : ι}
    (htopic : strcasecmp p.topic (devices i).mgr.strSetTopic = 0) :
  p.source = .outside
  := by
  cases hsource : p.source with
  | outside => rfl
  | device j =>
    rw [h.topic p hp j hsource] at htopic
    apply absurd htopic
    apply Device.strcasecmp_ne_zero

variable [DecidableEq ι]

/-- A call of `LightControl` by the device `i` keeps its packets on its post topic. -/
theorem Invariant.topic_advance
    {net : State ι} (h : Invariant devices net) (i : ι) (e : Env) (n : Int32) :
  ∀ p ∈ (net.advance i
      ((devices i).mgr.lightControl (devices i).build e n (net.process i))).packets,
    ∀ j, p.source = .device j → p.topic = (devices j).mgr.strPostTopic
  := by
  intro p hp j hj
  rcases List.mem_append.mp hp with hp | hp
  · apply h.topic p hp j hj
  · obtain ⟨hsource, htopic⟩ := topic_of_mem_published (devices i) i e n (net.process i) hp
    obtain rfl : i = j := Source.device.inj (hsource.symm.trans hj)
    apply htopic

/-- A step keeps the invariant. -/
theorem Invariant.step
    {net net' : State ι} (h : Invariant devices net) (hstep : Step parse devices net net') :
  Invariant devices net'
  := by
  cases hstep with
  | publish topic payload =>
    constructor
    · intro p hp i hi
      rcases List.mem_append.mp hp with hp | hp
      · apply h.topic p hp i hi
      · rw [List.mem_singleton.mp hp] at hi
        contradiction
    · apply h.source
  | control i e n =>
    constructor
    · apply h.topic_advance
    · apply h.source
  | deliver i e packet hp r s hs =>
    rcases Mgr.messageArrived_cases hs with rfl | ⟨htopic, rfl⟩
    · constructor
      · intro p hp j hj
        rcases List.mem_append.mp hp with hp | hp
        · apply h.topic p hp j hj
        · rw [newCalls_self] at hp
          contradiction
      · rw [newCalls_self]
        intro c hc
        apply h.source c
        apply (List.mem_append.mp hc).resolve_right
        apply List.not_mem_nil
    · constructor
      · apply h.topic_advance
      · intro c hc
        rcases List.mem_append.mp hc with hc | hc
        · apply h.source c hc
        · obtain ⟨-, -, rfl⟩ := List.mem_map.mp hc
          apply h.source_of_strcasecmp hp
          apply (strcasecmp_append_zero_eq_zero_iff _ _).mp htopic

/-- The invariant holds in every state of every run. -/
theorem Reachable.invariant {net : State ι} (h : Reachable parse devices net) :
  Invariant devices net
  := by
  induction h with
  | init =>
    constructor
    · nofun
    · nofun
  | step _ hstep ih => apply ih.step hstep

/-- No post topic of a device of a population passes for a set topic, and in every run a
handler calls `LightControl` only because of messages that no device published. -/
theorem no_feedback (parse : List UInt8 → Option Json.Value) (devices : ι → Device) :
  (∀ i j, strcasecmp (devices i).mgr.strPostTopic (devices j).mgr.strSetTopic ≠ 0)
    ∧ ∀ net, Reachable parse devices net → ∀ c ∈ net.caused, c.2.source = .outside
  := by
  constructor
  · intro i j
    apply Device.strcasecmp_ne_zero
  · intro net hnet
    apply hnet.invariant.source

/-- Two lamps, one for each layout of the topics, are a population. -/
theorem lamps_no_feedback :
  ∃ devices : Bool → Device,
    (∀ isProVersion,
        (devices isProVersion).identity = { Mgr.lamp with isProVersion := isProVersion })
      ∧ (∀ i j, strcasecmp (devices i).mgr.strPostTopic (devices j).mgr.strSetTopic ≠ 0)
      ∧ ∀ net, Reachable Mgr.readEmpty devices net → ∀ c ∈ net.caused, c.2.source = .outside
  := by
  have hlamp (isProVersion : Bool) :
      ∃ d : Device, d.identity = { Mgr.lamp with isProVersion := isProVersion } := by
    have hsecret : Mgr.lamp.deviceSecret.length < 2147483648 := by decide
    have hnul : Mgr.lamp.NulFree := by decide
    obtain ⟨m, hm⟩ := Mgr.exists_builtFrom { Mgr.lamp with isProVersion := isProVersion } hsecret
    exact ⟨⟨_, ⟨.iotDeviceAsync, true⟩, m, hm, hnul⟩, rfl⟩
  choose devices hdevices using hlamp
  use devices, hdevices
  apply no_feedback Mgr.readEmpty devices

end Network

end IotDevice
