import IotDeviceSdk.IotDevice.Command
import IotDeviceSdk.IotDevice.DeviceIndex
import IotDeviceSdk.Json.RoundTrip

/-!
# Reports that are read

The reports of a device under the JSON reader: in every run of a process, the reader finds in the
reports what the calls of `LightControl` have put there, one after another (`reports_read`), and a
report that comes in on the set topic of a device is a command like any other
(`messageArrived_report`).
-/

namespace Json.Value

open CString

/-- The members of a value after it is written and read. -/
theorem member_reread (double : Double → Double) (v : Value) (key : List UInt8) :
  (v.reread double).member key = (v.member key).reread double
  := by
  cases v with
  | int n =>
    rw [reread]
    split
    · rfl
    · rfl
  | uint n =>
    rw [reread]
    split
    · rfl
    · rfl
  | object members =>
    rw [reread, member, member]
    induction members with
    | nil => rfl
    | cons m members ih =>
      obtain ⟨k, v⟩ := m
      rw [rereadMembers, Members.find, Members.find]
      split
      · rfl
      · apply ih
  | null | real | string | bool | array => rfl

theorem reread_int {n : Int64} (h : n.toInt ≤ 2147483647) (double : Double → Double) :
  (Value.int n).reread double = .int n
  := by
  rw [reread, if_pos h]

theorem reread_int32 (n : Int32) (double : Double → Double) :
  (Value.int n.toInt64).reread double = .int n.toInt64
  := by
  apply reread_int
  rw [Int32.toInt_toInt64]
  have hlt := n.toInt_lt
  omega

end Json.Value

namespace IotDevice.Mgr

open CString Json

/-- What is reported: the light switch, the device index, the name of the device and the time. -/
structure Tells (m : Mgr) (e : Env) (n i : Int32) (properties : Value) : Prop where
  lightSwitch : properties.member (ascii "LightSwitch") = .int n.toInt64
  deviceState : properties.member (ascii "deviceState") = .string (StringHelper.valueOfInt n)
  deviceIndex : properties.member (ascii "deviceIndex") = .int i.toInt64
  deviceName : properties.member (ascii "deviceName") = .string (cstr m.strDeviceName)
  gmtCreate : properties.member (ascii "gmtCreate") = .string (cstr (StringHelper.timeString e.tm))

theorem wellFormed_params (m : Mgr) (e : Env) (n i : Int32) :
  (m.params e n i).WellFormed
  := by
  have hnil : (Value.object []).WellFormed := .object ⟨by simp, .nil⟩ (by simp)
  rw [params]
  apply Members.wellFormed_insert (by decide) (.string _)
  apply Members.wellFormed_insert (by decide) (.string _)
  apply Members.wellFormed_insert (by decide) (.int _)
  apply Members.wellFormed_insert (by decide) (.string _)
  apply Members.wellFormed_insert (by decide) (.int _) hnil

theorem wellFormed_root {params : Value} (h : params.WellFormed) :
  (root params).WellFormed
  := by
  have hnil : (Value.object []).WellFormed := .object ⟨by simp, .nil⟩ (by simp)
  rw [root]
  apply Members.wellFormed_insert (by decide) h
  apply Members.wellFormed_insert (by decide) (.string _)
  apply Members.wellFormed_insert (by decide) (.string _)
  apply Members.wellFormed_insert (by decide) (.int _) hnil

/-- What `SendMqttMessage` writes. -/
def written (m : Mgr) (e : Env) (n i : Int32) : Value :=
  if m.bUsingProVersion then root (m.params e n i) else m.params e n i

/-- What is read of a report. -/
def readReport (m : Mgr) (e : Env) (n i : Int32) : Value :=
  (m.written e n i).reread id

theorem parse_written (m : Mgr) (e : Env) (n i : Int32) (setup : Reader.Setup) :
  Reader.parse setup (FastWriter.write e.sprintf (m.written e n i))
    = (some (m.readReport e n i), [])
  := by
  have hv : (m.written e n i).WellFormed := by
    rw [written]
    split
    · apply wellFormed_root (m.wellFormed_params e n i)
    · apply m.wellFormed_params e n i
  have hreals : (m.written e n i).reals = [] := by
    rw [written]
    split
    · rfl
    · rfl
  apply parse_write hv
  intro r hr
  rw [hreals] at hr
  contradiction

theorem tells_readReport (m : Mgr) (e : Env) (n i : Int32) :
  m.Tells e n i (m.properties (m.readReport e n i))
  := by
  have hproperties : m.properties (m.readReport e n i) = (m.params e n i).reread id := by
    rw [properties, readReport, written]
    split
    · rw [Value.member_reread]
      rfl
    · rfl
  rw [hproperties]
  constructor
  · rw [Value.member_reread]
    apply Value.reread_int32
  · rw [Value.member_reread, (m.member_params e n i).2, Value.reread, StringHelper.valueOfInt,
      StringHelper.valueOf, cstr_eq_self (Decimal.zero_notMem_text _)]
  · rw [Value.member_reread]
    apply Value.reread_int32
  · rw [Value.member_reread]
    rfl
  · rw [Value.member_reread]
    rfl

/-- The message that a call of `LightControl` sends. -/
def posted (m : Mgr) (e : Env) (n i : Int32) : PubMsg :=
  ⟨cstr m.strPostTopic, FastWriter.write e.sprintf (m.written e n i), 1, 0⟩

/-- The calls of `LightControl`, with the message that is sent. -/
theorem calls_lightControl_posted (b : Build) (m : Mgr) (e : Env) (n : Int32) (s : Process) :
  (m.lightControl b e n s).calls
    = s.calls ++ (.lightControl n :: b.pinCalls n
      ++ [.sendMessage (m.posted e n (deviceIndexAt e (s.deviceIndex % 7)))])
  := by
  have hindex : (writePin b n (s.call (.lightControl n))).deviceIndex = s.deviceIndex := by
    rw [writePin]
    split
    · split
      · rfl
      · rfl
    · rfl
  have hcalls : (m.lightControl b e n s).calls
      = (writePin b n (s.call (.lightControl n))).calls ++ [.sendMessage ⟨cstr m.strPostTopic,
        FastWriter.write e.sprintf (m.written e n (deviceIndexAt e
          ((writePin b n (s.call (.lightControl n))).deviceIndex % 7))), 1, 0⟩] := rfl
  rw [hcalls, hindex, calls_writePin]
  simp [Process.call, posted]

theorem wellShaped_readReport (m : Mgr) (e : Env) (n i : Int32) :
  WellShaped (m.readReport e n i)
  := by
  obtain ⟨hswitch, -, -, -, -⟩ := m.tells_readReport e n i
  have hlow := n.le_toInt
  have hhigh := n.toInt_lt
  by_cases hpro : m.bUsingProVersion
  · have hreport : m.readReport e n i = (root (m.params e n i)).reread id := by
      rw [readReport, written, if_pos hpro]
    rw [properties, if_pos hpro] at hswitch
    constructor
    · rw [hreport]
      trivial
    · rw [hreport, Value.member_reread]
      trivial
    · rw [hreport, Value.member_reread]
      trivial
    · rw [hreport, Value.member_reread]
      trivial
    · rw [hswitch]
      simp only [Value.ConvertibleToInt, Int32.toInt_toInt64, Value.minInt, Value.maxInt]
      omega
  · have hreport : m.readReport e n i = (m.params e n i).reread id := by
      rw [readReport, written, if_neg hpro]
    constructor
    · rw [hreport]
      trivial
    · rw [hreport, Value.member_reread]
      trivial
    · rw [hreport, Value.member_reread]
      trivial
    · rw [hreport, Value.member_reread]
      trivial
    · rw [hreport, Value.member_reread]
      trivial

/-- A report that comes in on the set topic of a device is a command to it: the device switches the
light on, whatever the light switch that was reported. -/
theorem messageArrived_report
    (b b' : Build) (m m' : Mgr) (e e' : Env) (n : Int32) (s s' : Process)
    (setup : Reader.Setup) :
  ∃ payload, sentMessages (m.lightControl b e n s).calls
      = sentMessages s.calls ++ [⟨cstr m.strPostTopic, payload, 1, 0⟩]
    ∧ m'.messageArrived b' (fun payload => (Reader.parse setup payload).1) e'
        (.deliver m'.strSetTopic payload) s'
      = .ok (1, m'.lightControl b' e' 1 s')
  := by
  let i := deviceIndexAt e (s.deviceIndex % 7)
  refine ⟨FastWriter.write e.sprintf (m.written e n i), ?_, ?_⟩
  · rw [calls_lightControl_posted, sentMessages, List.filterMap_append]
    obtain ⟨-, hsent, -⟩ := seen_of_calls b n (m.posted e n i) s.calls
    apply congrArg (List.filterMap _ s.calls ++ ·) hsent
  · have hparse : (Reader.parse setup (FastWriter.write e.sprintf (m.written e n i))).1
        = some (m.readReport e n i) := by
      rw [parse_written]
    have htopic := strcasecmp_append_zero_self m'.strSetTopic
    obtain ⟨r, hr⟩ := (readCommand_isOk_iff _).mpr (m.wellShaped_readReport e n i)
    rw [messageArrived_of_parse_some htopic hparse, hr]
    rfl

/-! ### Commands that are read -/

/-- However the text of a command is written (the white space, the escapes, the order of the
members, members besides those of a command), the device reads it, and switches the light on. -/
theorem handle_documentText
    (b : Build) (m : Mgr) (s : Process) {setup : Reader.Setup} {c : Command} {root : Value}
    (htext : Text.DocumentText setup.sscanf c.payload root) (hroot : IsCommand root c.lightSwitch) :
  m.handle b (fun payload => (Reader.parse setup payload).1) s c
    = .ok (1, m.lightControl b c.env 1 s)
  := by
  apply handle_eq
  use root
  constructor
  · apply congrArg Prod.fst (Reader.parse_of_documentText htext)
  · apply hroot

/-- The text of the command to switch a light off, as it is written. -/
theorem handle_documentText_off
  : ∃ m : Mgr, m.BuiltFrom lamp
    ∧ m.handle ⟨.iotDeviceAsync, true⟩ (fun payload => (Reader.parse ⟨fun _ => none, 0⟩ payload).1)
        .init ⟨switchText 0, 0, epoch⟩
      = .ok (1, m.lightControl ⟨.iotDeviceAsync, true⟩ epoch 1 .init)
  := by
  obtain ⟨m, hm⟩ := exists_builtFrom lamp (by decide)
  use m, hm
  have hsorted : Members.Sorted [(ascii "LightSwitch", Value.int 0)] := ⟨by decide, by decide⟩
  have hroot : (switchRoot 0).WellFormed := by
    apply Value.WellFormed.object ⟨by decide, by decide⟩
    simp [Value.WellFormed.string, Value.WellFormed.object hsorted, Value.WellFormed.int]
  have htext : Text.DocumentText (fun _ => none) (switchText 0) ((switchRoot 0).reread id) :=
    documentText_write hroot (fun r hr => absurd hr (List.not_mem_nil))
  apply handle_documentText _ m .init (c := ⟨switchText 0, 0, epoch⟩) htext
  apply isCommand_switchRoot

end IotDevice.Mgr

namespace IotDevice

open CString Json

/-! ### The reports of a run -/

/-- The manager that an action is about. -/
def Action.mgr : Action → Mgr
  | .start m _ | .connected m _ | .arrive m _ _ _ | .key m _ | .send m _ _ _ => m

/-- What the action finds around it. -/
def Action.env : Action → Env
  | .start _ e | .connected _ e | .arrive _ _ e _ | .key _ e | .send _ e _ _ => e

/-- A call of `LightControl`: the manager, what it finds around it, and the light switch. -/
structure Control where
  mgr : Mgr
  env : Env
  lightSwitch : Int32

/-- The calls of `LightControl` that an action makes. -/
def Action.controls (b : Build) (s : Process) (a : Action) : List Control :=
  (lightControls ((act b s a).calls.drop s.calls.length)).map fun n => ⟨a.mgr, a.env, n⟩

/-- The calls of `LightControl` that actions make, one after another. -/
def controls (b : Build) : Process → List Action → List Control
  | _, [] => []
  | s, a :: as => a.controls b s ++ controls b (act b s a) as

/-- The calls of `LightControl` and the messages that are sent go together: the `k`-th message is
on the post topic of the manager of the `k`-th call, and the reader finds in it the light switch of
the call, the entry of `deviceIndexArray` that `k` leads to, and the name of the device and the
time. -/
structure Reported (setup : Reader.Setup) (cs : List Control) (calls : List Call) : Prop where
  switches : lightControls calls = cs.map Control.lightSwitch
  count : (sentMessages calls).length = cs.length
  message : ∀ (k : ℕ) c, cs[k]? = some c →
    ∃ msg report, (sentMessages calls)[k]? = some msg
      ∧ msg.topic = cstr c.mgr.strPostTopic
      ∧ Reader.parse setup msg.payload = (some report, [])
      ∧ c.mgr.Tells c.env c.lightSwitch (Mgr.deviceIndexAt c.env (Int32.ofNat k % 7))
        (c.mgr.properties report)

/-- The action is not a call of `SendMqttMessage`, which only `LightControl` makes. -/
def Action.IsIndirect : Action → Prop
  | .send _ _ _ _ => False
  | _ => True

theorem lightControls_append (u v : List Call) :
  lightControls (u ++ v) = lightControls u ++ lightControls v
  := List.filterMap_append

theorem sentMessages_append (u v : List Call) :
  sentMessages (u ++ v) = sentMessages u ++ sentMessages v
  := List.filterMap_append

/-- The calls neither switch the light nor report. -/
structure Silent (calls : List Call) : Prop where
  controls : lightControls calls = []
  messages : sentMessages calls = []

theorem Silent.append {u v : List Call} (hu : Silent u) (hv : Silent v) :
  Silent (u ++ v)
  where
  controls := by rw [lightControls_append, hu.controls, hv.controls, List.append_nil]
  messages := by rw [sentMessages_append, hu.messages, hv.messages, List.append_nil]

/-- What an action adds to the calls: at most one call of `LightControl` with its report, and other
calls before and after it. -/
def Adds (b : Build) (s : Process) (m : Mgr) (e : Env) (calls : List Call) : Prop :=
  ∃ u, Silent u ∧ (calls = s.calls ++ u ∨ ∃ n v, Silent v ∧
    calls = s.calls ++ (u ++ (.lightControl n :: b.pinCalls n
      ++ [.sendMessage (m.posted e n (Mgr.deviceIndexAt e (s.deviceIndex % 7)))]) ++ v))

theorem adds_self (b : Build) (s : Process) (m : Mgr) (e : Env) :
  Adds b s m e s.calls
  := by
  refine ⟨[], ⟨rfl, rfl⟩, ?_⟩
  left
  rw [List.append_nil]

/-- A call of `LightControl` adds itself and its report. -/
theorem adds_lightControl (b : Build) (s : Process) (m : Mgr) (e : Env) (n : Int32) :
  Adds b s m e (m.lightControl b e n s).calls
  := by
  refine ⟨[], ⟨rfl, rfl⟩, ?_⟩
  right
  refine ⟨n, [], ⟨rfl, rfl⟩, ?_⟩
  rw [m.calls_lightControl_posted b e n s, List.append_nil, List.nil_append]

/-- A login is silent. -/
theorem calls_connect (m : Mgr) (s : Process) :
  ∃ u, Silent u ∧ (m.connect (m.buildMqttClient s)).calls = s.calls ++ u
  := ⟨[.create _ _, .connect _ _], ⟨rfl, rfl⟩, List.append_assoc _ _ _⟩

/-- What the actions add that are not calls of `SendMqttMessage`. -/
theorem adds_act (b : Build) (s : Process) {a : Action} (ha : a.IsIndirect) :
  Adds b s a.mgr a.env (act b s a).calls
  := by
  obtain ⟨program, enabled⟩ := b
  cases a with
  | start m e =>
    obtain ⟨u, hu, hconnect⟩ := calls_connect m s
    cases program with
    | iotDeviceAsync => exact ⟨u, hu, Or.inl hconnect⟩
    | iotDeviceSync =>
      have hcalls := m.calls_lightControl_posted ⟨.iotDeviceSync, enabled⟩ e 1
        (m.subscribe (m.connect (m.buildMqttClient s)))
      have hsubscribe : (m.subscribe (m.connect (m.buildMqttClient s))).calls
          = s.calls ++ (u ++ [.subscribe (cstr m.strSetTopic) 1]) := by
        rw [← List.append_assoc, ← hconnect]
        rfl
      rw [hsubscribe, List.append_assoc] at hcalls
      refine ⟨u ++ [.subscribe (cstr m.strSetTopic) 1], hu.append ⟨rfl, rfl⟩, ?_⟩
      right
      refine ⟨1, [], ⟨rfl, rfl⟩, ?_⟩
      rw [List.append_nil]
      apply hcalls
  | connected m e =>
    cases program with
    | iotDeviceAsync =>
      refine ⟨[], ⟨rfl, rfl⟩, Or.inr ⟨1, [.subscribe (cstr m.strSetTopic) 1], ⟨rfl, rfl⟩, ?_⟩⟩
      have hcalls := m.calls_lightControl_posted ⟨.iotDeviceAsync, enabled⟩ e 1 s
      rw [List.nil_append, ← List.append_assoc]
      apply congrArg (· ++ _) hcalls
    | iotDeviceSync => apply adds_self
  | arrive m parse e message =>
    rw [IotDevice.act]
    cases hresult : m.messageArrived ⟨program, enabled⟩ parse e message s with
    | error failure => apply adds_self
    | ok r =>
      rcases Mgr.messageArrived_cases hresult with hr | ⟨-, hr⟩
      · rw [Except.toOption, Option.elim, hr]
        apply adds_self
      · rw [Except.toOption, Option.elim, hr]
        apply adds_lightControl
  | key m e => apply adds_lightControl
  | send => contradiction

variable {setup : Reader.Setup}

/-- Silent calls do not matter. -/
theorem Reported.silent
    {cs : List Control} {calls u : List Call} (h : Reported setup cs calls) (hu : Silent u) :
  Reported setup cs (calls ++ u)
  := by
  have hcontrols : lightControls (calls ++ u) = lightControls calls := by
    rw [lightControls_append, hu.controls, List.append_nil]
  have hmessages : sentMessages (calls ++ u) = sentMessages calls := by
    rw [sentMessages_append, hu.messages, List.append_nil]
  constructor
  · rw [hcontrols, h.switches]
  · rw [hmessages, h.count]
  · rw [hmessages]
    apply h.message

/-- A call of `LightControl` with its report is reported. -/
theorem Reported.concat
    {cs : List Control} {calls : List Call} (h : Reported setup cs calls) (b : Build)
    (c : Control) {i : Int32} (hi : i = Int32.ofNat (sentMessages calls).length % 7) :
  Reported setup (cs ++ [c]) (calls ++ (.lightControl c.lightSwitch :: b.pinCalls c.lightSwitch
    ++ [.sendMessage (c.mgr.posted c.env c.lightSwitch (Mgr.deviceIndexAt c.env i))]))
  := by
  obtain ⟨hcontrols, hsent, -⟩ := Mgr.seen_of_calls b c.lightSwitch
    (c.mgr.posted c.env c.lightSwitch (Mgr.deviceIndexAt c.env i)) calls
  constructor
  · rw [lightControls_append, hcontrols, h.switches, List.map_append, List.map_singleton]
  · rw [sentMessages_append, hsent, List.length_append, List.length_append, h.count]
    rfl
  · intro k c' hk
    rw [sentMessages_append, hsent]
    by_cases hlt : k < cs.length
    · rw [List.getElem?_append_left hlt] at hk
      rw [List.getElem?_append_left (h.count ▸ hlt)]
      apply h.message k c' hk
    · obtain rfl : k = cs.length := by
        have hbound := (List.getElem?_eq_some_iff.mp hk).1
        rw [List.length_append, List.length_singleton] at hbound
        omega
      rw [List.getElem?_concat_length] at hk
      obtain rfl := Option.some.inj hk
      refine ⟨c.mgr.posted c.env c.lightSwitch (Mgr.deviceIndexAt c.env i),
        c.mgr.readReport c.env c.lightSwitch (Mgr.deviceIndexAt c.env i), ?_, rfl, ?_, ?_⟩
      · rw [← h.count, List.getElem?_concat_length]
      · apply c.mgr.parse_written
      · rw [hi, h.count]
        apply c.mgr.tells_readReport

/-- What an action reports. -/
theorem Reported.act
    {cs : List Control} {s : Process} (h : Reported setup cs s.calls) (hs : Counts s) (b : Build)
    {a : Action} (ha : a.IsIndirect) :
  Reported setup (cs ++ a.controls b s) (act b s a).calls
  := by
  obtain ⟨u, hu, hcalls | ⟨n, v, hv, hcalls⟩⟩ := adds_act b s ha
  · rw [Action.controls, hcalls, List.drop_left, hu.controls, List.map_nil, List.append_nil]
    apply h.silent hu
  · have hindex : s.deviceIndex % 7 = Int32.ofNat (sentMessages (s.calls ++ u)).length % 7 := by
      rw [hs, sends, sentMessages_append, hu.messages, List.append_nil]
    have hnew : a.controls b s = [⟨a.mgr, a.env, n⟩] := by
      obtain ⟨hcontrols, -, -⟩ := Mgr.seen_of_calls b n
        (a.mgr.posted a.env n (Mgr.deviceIndexAt a.env (s.deviceIndex % 7))) s.calls
      rw [Action.controls, hcalls, List.drop_left, lightControls_append, lightControls_append,
        hu.controls, hv.controls, hcontrols]
      rfl
    have hreported := ((h.silent hu).concat b ⟨a.mgr, a.env, n⟩ hindex).silent hv
    rw [hnew, hcalls, ← List.append_assoc, ← List.append_assoc]
    apply hreported

theorem controls_concat (b : Build) (s : Process) (as : List Action) (a : Action) :
  controls b s (as ++ [a]) = controls b s as ++ a.controls b (as.foldl (act b) s)
  := by
  induction as generalizing s with
  | nil => apply List.append_nil
  | cons a' as ih =>
    rw [List.cons_append, controls, ih, ← List.append_assoc, controls, List.foldl_cons]

end IotDevice
