import IotDeviceSdk.Baselib.CryptoUtil
import IotDeviceSdk.Baselib.StringHelper
import IotDeviceSdk.Json.FastWriter

/-!
# The device managers

`IotDeviceAsyncMgr` and `IotDeviceSyncMgr` log a device in to the service, obey the
messages that arrive on its set topic, and report on its post topic.  They differ in the
library that carries the messages and in the pin of the light, so their functions are those
of one structure `Mgr` for the two programs in `Program`.

What the managers do is recorded in `Process.calls`.  The HMAC of the crypto library, the
JSON reader and what else a call finds around it are parameters.
-/

namespace IotDevice

open CString

/-- The two programs. -/
inductive Program where
  | iotDeviceAsync
  | iotDeviceSync
  deriving DecidableEq

/-- The pins of the light. -/
inductive Pin where
  | RPI_V2_GPIO_P1_08
  | RPI_V2_GPIO_P1_11
  deriving DecidableEq

/-- The pin that `LightControl` writes to. -/
def Program.pin : Program → Pin
  | .iotDeviceAsync => .RPI_V2_GPIO_P1_08
  | .iotDeviceSync => .RPI_V2_GPIO_P1_11

/-- How a program was built. -/
structure Build where
  program : Program
  /-- whether `ENABLE_RASPBERRY_FUNC` is defined -/
  enableRaspberryFunc : Bool

/-- The level of a pin. -/
inductive Level where
  | low
  | high
  deriving DecidableEq

/-- A message handed to the messaging library. -/
structure PubMsg where
  topic : List UInt8
  payload : List UInt8
  qos : Int32
  retained : Int32
  deriving DecidableEq

/-- The calls of interest: those of the messaging library and of the pins, and those of
`LightControl`. -/
inductive Call where
  | create (serverUri clientId : List UInt8)
  | connect (username password : List UInt8)
  | subscribe (topic : List UInt8) (qos : Int32)
  | sendMessage (message : PubMsg)
  | freeMessage (payload : List UInt8)
  | free (topicName : List UInt8)
  | gpioFselOutp (pin : Pin)
  | gpioWrite (pin : Pin) (level : Level)
  | lightControl (nLightSwitch : Int32)
  deriving DecidableEq

/-- The state of a process: the static variable of `SendMqttMessage`, and the calls made. -/
structure Process where
  deviceIndex : Int32
  calls : List Call

/-- A process that has made no calls. -/
def Process.init : Process where
  deviceIndex := 0
  calls := []

/-- Record a call. -/
def Process.call (s : Process) (c : Call) : Process :=
  { s with calls := s.calls ++ [c] }

/-- What `SendMqttMessage` finds around it. -/
structure Env where
  /-- the local time -/
  tm : StringHelper.Tm
  /-- the `int` at an index outside of `deviceIndexArray` -/
  outside : Int32 → Int32
  /-- the text of a `double` under the format `%#.16g` -/
  sprintf : Json.Double → List UInt8

/-- The client id, user name and password of a login. -/
structure MqttInfo where
  strClientId : List UInt8
  strUsername : List UInt8
  strPassword : List UInt8

/-- The fields of a device manager. -/
structure Mgr extends MqttInfo where
  bUseTls : Bool
  strHost : List UInt8
  strDeviceName : List UInt8
  bUsingProVersion : Bool
  strSetTopic : List UInt8
  strPostTopic : List UInt8

namespace Mgr

/-! ### The constructor -/

/-- The content that `initMqttInfo` signs. -/
def strContent (strProductKey strDeviceName strTimeStamp : List UInt8) : List UInt8 :=
  ascii "clientId" ++ (strProductKey ++ ascii "." ++ strDeviceName)
    ++ ascii "deviceName" ++ strDeviceName
    ++ ascii "productKey" ++ strProductKey ++ ascii "timestamp" ++ strTimeStamp

/-- `initMqttInfo`, at the given time; strings are passed to `HmacEncode` with the NUL byte
that ends them.  There is no result when `HmacEncode` has none. -/
def initMqttInfo (hmac : CryptoUtil.EvpMd → List UInt8 → List UInt8 → List UInt8) (time : Int64)
    (strProductKey strDeviceName strDeviceSecret : List UInt8) : Option MqttInfo := do
  let strTimeStamp := StringHelper.valueOfLong time
  let strClientId := strProductKey ++ ascii "." ++ strDeviceName
  let strContent := strContent strProductKey strDeviceName strTimeStamp
  let sha1 ← CryptoUtil.hmacEncode hmac (ascii "sha1")
    (strDeviceSecret ++ [0]) (UInt32.ofNat strDeviceSecret.length)
    (strContent ++ [0]) (UInt32.ofNat strContent.length) none 0
  some {
    strClientId := strClientId ++ ascii "|securemode=3,signmethod=hmacsha1,timestamp="
      ++ strTimeStamp ++ ascii "|"
    strUsername := strDeviceName ++ ascii "&" ++ strProductKey
    strPassword := StringHelper.toHexString sha1.output sha1.outputLength }

/-- `IOT_MQTT_HOST_URL`. -/
def iotMqttHostUrl : List UInt8 :=
  ascii "iot-as-mqtt.cn-shanghai.aliyuncs.com"

/-- The set topic and the post topic of a device. -/
def topics (strProductKey strDeviceName : List UInt8) (isProVersion : Bool) :
    List UInt8 × List UInt8 :=
  if isProVersion then
    let strTopicHeader := ascii "/sys/" ++ strProductKey ++ ascii "/" ++ strDeviceName
    (strTopicHeader ++ ascii "/thing/service/property/set",
      strTopicHeader ++ ascii "/thing/event/property/post")
  else
    let strTopicHeader := ascii "/" ++ strProductKey ++ ascii "/" ++ strDeviceName
    (strTopicHeader ++ ascii "/get", strTopicHeader ++ ascii "/update")

/-- The constructor, at the given time. -/
def construct (hmac : CryptoUtil.EvpMd → List UInt8 → List UInt8 → List UInt8) (time : Int64)
    (strProductKey strDeviceName strDeviceSecret : List UInt8) (isProVersion : Bool) :
    Option Mgr := do
  let info ← initMqttInfo hmac time strProductKey strDeviceName strDeviceSecret
  let topics := topics strProductKey strDeviceName isProVersion
  some {
    info with
    bUseTls := false
    strHost := strProductKey ++ ascii "." ++ iotMqttHostUrl
    strDeviceName := strDeviceName
    bUsingProVersion := isProVersion
    strSetTopic := topics.1
    strPostTopic := topics.2 }

/-! ### Reports -/

/-- `deviceIndexArray`. -/
def deviceIndexArray : List Int32 :=
  [1, 2, 3, 4, 5, 6, -5]

/-- `deviceIndexArray[i]`. -/
def deviceIndexAt (e : Env) (i : Int32) : Int32 :=
  if 0 ≤ i ∧ i < 7 then deviceIndexArray.getD i.toInt.toNat 0 else e.outside i

/-- The object `params` that is reported. -/
def params (m : Mgr) (e : Env) (nLightSwitch deviceIndex : Int32) : Json.Value :=
  .object <|
    Json.Members.insert (ascii "gmtCreate") (.string (StringHelper.timeString e.tm)) <|
    Json.Members.insert (ascii "deviceState") (.string (StringHelper.valueOfInt nLightSwitch)) <|
    Json.Members.insert (ascii "deviceIndex") (.int deviceIndex.toInt64) <|
    Json.Members.insert (ascii "deviceName") (.string m.strDeviceName) <|
    Json.Members.insert (ascii "LightSwitch") (.int nLightSwitch.toInt64) []

/-- The object `root` that is reported. -/
def root (params : Json.Value) : Json.Value :=
  .object <|
    Json.Members.insert (ascii "params") params <|
    Json.Members.insert (ascii "method") (.string (ascii "thing.event.property.post")) <|
    Json.Members.insert (ascii "version") (.string (ascii "1.0")) <|
    Json.Members.insert (ascii "id") (.int 1) []

/-- `SendMqttMessage`. -/
def sendMqttMessage (m : Mgr) (e : Env) (nLightSwitch : Int32) (testTopic : List UInt8)
    (s : Process) : Process :=
  let params := m.params e nLightSwitch (deviceIndexAt e (s.deviceIndex % 7))
  let strResult := Json.FastWriter.write e.sprintf
    (if m.bUsingProVersion then root params else params)
  let s := { s with deviceIndex := s.deviceIndex + 1 }
  s.call (.sendMessage ⟨cstr testTopic, strResult, 1, 0⟩)

/-- The part of `LightControl` that is there when `ENABLE_RASPBERRY_FUNC` is defined: set the
pin of the light. -/
def writePin (b : Build) (nLightSwitch : Int32) (s : Process) : Process :=
  if b.enableRaspberryFunc then
    let pin := b.program.pin
    let s := s.call (.gpioFselOutp pin)
    if nLightSwitch ≠ 0 then
      s.call (.gpioWrite pin .high)
    else
      s.call (.gpioWrite pin .low)
  else
    s

/-- `LightControl`. -/
def lightControl (b : Build) (m : Mgr) (e : Env) (nLightSwitch : Int32) (s : Process) :
    Process :=
  let s := s.call (.lightControl nLightSwitch)
  let s := writePin b nLightSwitch s
  m.sendMqttMessage e nLightSwitch m.strPostTopic s

/-! ### Messages that arrive -/

/-- A message as the messaging library delivers it: the memory of the topic, the length of
the topic if it has NUL bytes in it and `0` otherwise, and the payload. -/
structure Message where
  topicName : List UInt8
  topicLen : Int32
  payload : List UInt8

/-- The topic of a message. -/
def Message.topic (message : Message) : List UInt8 :=
  if 0 < message.topicLen then message.topicName.take message.topicLen.toInt.toNat
  else cstr message.topicName

/-- The message that the library delivers for a payload on a topic. -/
def Message.deliver (topic payload : List UInt8) : Message where
  topicName := topic ++ [0]
  topicLen := if 0 ∈ topic then Int32.ofNat topic.length else 0
  payload := payload

/-- What `MQTTClient_messageArrived` reads of a command: the fields that it logs, and the
light switch. -/
def readCommand (root : Json.Value) :
    Except Json.Failure (List UInt8 × List UInt8 × Int32) := do
  let (method, root) ← root.resolveReference (ascii "method")
  let strMethod ← method.asString
  let (version, root) ← root.resolveReference (ascii "version")
  let strVersion ← version.asString
  let (params, _) ← root.resolveReference (ascii "params")
  let (switch, _) ← params.resolveReference (ascii "LightSwitch")
  let lightSwitch ← switch.asInt
  return (strMethod, strVersion, lightSwitch)

/-- `MQTTClient_messageArrived`, where `parse` is the JSON reader. -/
def messageArrived (b : Build) (m : Mgr) (parse : List UInt8 → Option Json.Value) (e : Env)
    (message : Message) (s : Process) : Except Json.Failure (Int32 × Process) :=
  if strcasecmp message.topicName m.strSetTopic = 0 then
    match parse message.payload with
    | some root => do
      let _ ← readCommand root
      return (1, m.lightControl b e 1 s)
    | none => return (1, s)
  else
    return (1, s)

/-! ### Starting -/

/-- `BuildMqttClient`. -/
def buildMqttClient (m : Mgr) (s : Process) : Process :=
  let strHostUrl :=
    if m.bUseTls then
      ascii "ssl://" ++ m.strHost ++ ascii ":1883"
    else
      ascii "tcp://" ++ m.strHost ++ ascii ":1883"
  s.call (.create (cstr strHostUrl) (cstr m.strClientId))

/-- The connection that `connect2Service` asks for. -/
def connect (m : Mgr) (s : Process) : Process :=
  s.call (.connect (cstr m.strUsername) (cstr m.strPassword))

/-- The subscription to the set topic. -/
def subscribe (m : Mgr) (s : Process) : Process :=
  s.call (.subscribe (cstr m.strSetTopic) 1)

end Mgr

end IotDevice

/-! ### The two managers -/

namespace IotDeviceAsyncMgr

open IotDevice

/-- `IotDeviceAsyncMgr::LightControl`. -/
def lightControl (enableRaspberryFunc : Bool) : Mgr → Env → Int32 → Process → Process :=
  Mgr.lightControl ⟨.iotDeviceAsync, enableRaspberryFunc⟩

/-- `IotDeviceAsyncMgr::MQTTClient_messageArrived`. -/
def messageArrived (enableRaspberryFunc : Bool) :
    Mgr → (List UInt8 → Option Json.Value) → Env → Mgr.Message → Process →
      Except Json.Failure (Int32 × Process) :=
  Mgr.messageArrived ⟨.iotDeviceAsync, enableRaspberryFunc⟩

/-- `IotDeviceAsyncMgr::MQTTClient_onConnected`. -/
def onConnected (enableRaspberryFunc : Bool) (m : Mgr) (e : Env) (s : Process) : Process :=
  m.subscribe (lightControl enableRaspberryFunc m e 1 s)

/-- `IotDeviceAsyncMgr::StartMessager`; the connection is reported to `onConnected`. -/
def startMessager (m : Mgr) (s : Process) : Process :=
  m.connect (m.buildMqttClient s)

end IotDeviceAsyncMgr

namespace IotDeviceSyncMgr

open IotDevice

/-- `IotDeviceSyncMgr::LightControl`. -/
def lightControl (enableRaspberryFunc : Bool) : Mgr → Env → Int32 → Process → Process :=
  Mgr.lightControl ⟨.iotDeviceSync, enableRaspberryFunc⟩

/-- `IotDeviceSyncMgr::MQTTClient_messageArrived`. -/
def messageArrived (enableRaspberryFunc : Bool) :
    Mgr → (List UInt8 → Option Json.Value) → Env → Mgr.Message → Process →
      Except Json.Failure (Int32 × Process) :=
  Mgr.messageArrived ⟨.iotDeviceSync, enableRaspberryFunc⟩

/-- `IotDeviceSyncMgr::StartMessager`. -/
def startMessager (enableRaspberryFunc : Bool) (m : Mgr) (e : Env) (s : Process) : Process :=
  lightControl enableRaspberryFunc m e 1 (m.subscribe (m.connect (m.buildMqttClient s)))

end IotDeviceSyncMgr
