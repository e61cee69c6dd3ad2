import IotDeviceSdk.Foundation.CString
import IotDeviceSdk.Foundation.Varint

/-!
# Packets

The packets of the MQTT client library: the header byte, what the `MQTTPacket_send` functions
hand to the socket, a list of buffers, and what the functions of the table `new_packets` make of
the bytes of a packet that has been read.

These functions are given the memory of the packet from its first byte on, which may go on after
the packet, and the length of the packet.
-/

namespace Mqtt

open CString

/-! ### Header bytes -/

/-- The types of packets. -/
inductive MsgType where
  | connect
  | connack
  | publish
  | puback
  | pubrec
  | pubrel
  | pubcomp
  | subscribe
  | suback
  | unsubscribe
  | unsuback
  | pingreq
  | pingresp
  | disconnect
  deriving DecidableEq

/-- The number of a type. -/
def MsgType.toFin : MsgType → Fin 16
  | connect => 1
  | connack => 2
  | publish => 3
  | puback => 4
  | pubrec => 5
  | pubrel => 6
  | pubcomp => 7
  | subscribe => 8
  | suback => 9
  | unsubscribe => 10
  | unsuback => 11
  | pingreq => 12
  | pingresp => 13
  | disconnect => 14

instance neZero_four : NeZero 4 :=
  ⟨by decide⟩

/-- The bits of a header byte. -/
structure Header where
  type : Fin 16
  dup : Bool
  qos : Fin 4
  retain : Bool
  deriving DecidableEq

/-- The byte with these bits. -/
def Header.byte (header : Header) : UInt8 :=
  UInt8.ofNat (header.type * 16 + header.dup.toNat * 8 + header.qos * 2 + header.retain.toNat)

/-- The bits of a byte. -/
def Header.ofByte (byte : UInt8) : Header where
  type := Fin.ofNat 16 (byte.toNat / 16)
  dup := byte.toNat / 8 % 2 = 1
  qos := Fin.ofNat 4 (byte.toNat / 2)
  retain := byte.toNat % 2 = 1

/-! ### Writing -/

/-- The remaining length of a packet. -/
def encode (length : ℕ) : List UInt8 :=
  let d := (length % 128).toUInt8
  if 0 < length / 128 then (d ||| 0x80) :: encode (length / 128) else [d]

def writeInt (anInt : ℕ) : List UInt8 :=
  [(anInt / 256).toUInt8, (anInt % 256).toUInt8]

/-- `MQTTPacket_send`: what goes to the socket for the header and a buffer. -/
def send (header : Header) (buffer : List UInt8) : List (List UInt8) :=
  [header.byte :: encode buffer.length, buffer]

/-- `MQTTPacket_sends`: what goes to the socket for the header and some buffers. -/
def sends (header : Header) (buffers : List (List UInt8)) : List (List UInt8) :=
  (header.byte :: encode (buffers.map List.length).sum) :: buffers

def sendAck (type : MsgType) (msgid : ℕ) (dup : Bool) : List (List UInt8) :=
  send ⟨type.toFin, dup, if type = .pubrel then 1 else 0, false⟩ (writeInt msgid)

/-- What `MQTTPacket_send_publish` reads of a `Publish`. -/
structure Publication where
  topic : List UInt8
  payload : List UInt8
  deriving DecidableEq

def sendPublish (pack : Publication) (msgId : ℕ) (dup : Bool) (qos : Fin 4) (retained : Bool) :
    List (List UInt8) :=
  let header : Header := ⟨MsgType.publish.toFin, dup, qos, retained⟩
  let topic := cstr pack.topic
  if 0 < qos then
    sends header [writeInt topic.length, topic, writeInt msgId, pack.payload]
  else
    sends header [writeInt topic.length, topic, pack.payload]

/-! ### Reading -/

/-- The byte at a place of the memory. -/
def readChar (memory : List UInt8) (ptr : ℕ) : UInt8 :=
  memory.getD ptr 0

def readInt (memory : List UInt8) (ptr : ℕ) : ℕ :=
  256 * (readChar memory ptr).toNat + (readChar memory (ptr + 1)).toNat

/-- A string with its length before it: the string, its length, and the place after it; `none`
if it goes on after `enddata`. -/
def readUTFlen (memory : List UInt8) (ptr enddata : ℕ) : Option (List UInt8 × ℕ × ℕ) :=
  if ptr + 1 < enddata then
    let len := readInt memory ptr
    if ptr + 2 + len ≤ enddata then
      some ((memory.drop (ptr + 2)).take len, len, ptr + 2 + len)
    else
      none
  else
    none

/-- A publish packet; `payload` is the memory from the payload on. -/
structure Publish where
  header : Header
  topic : List UInt8
  topiclen : ℕ
  msgId : ℕ
  payload : List UInt8
  payloadlen : ℤ
  deriving DecidableEq

/-- The packets that can be read. -/
inductive Pack where
  | connack (header : Header) (flags rc : UInt8)
  | publish (pack : Publish)
  | ack (header : Header) (msgId : ℕ)
  | suback (header : Header) (msgId : ℕ) (qoss : List UInt8)
  | headerOnly (header : Header)
  deriving DecidableEq

def headerOnly (aHeader : UInt8) : Pack :=
  .headerOnly (.ofByte aHeader)

def publish (aHeader : UInt8) (data : List UInt8) (datalen : ℕ) : Option Publish :=
  let header := Header.ofByte aHeader
  match readUTFlen data 0 datalen with
  | none => none
  | some (topic, topiclen, curdata) =>
    let msgId := if 0 < header.qos then readInt data curdata else 0
    let curdata := if 0 < header.qos then curdata + 2 else curdata
    some ⟨header, topic, topiclen, msgId, data.drop curdata, datalen - curdata⟩

def ack (aHeader : UInt8) (data : List UInt8) : Pack :=
  .ack (.ofByte aHeader) (readInt data 0)

def connack (aHeader : UInt8) (data : List UInt8) : Pack :=
  .connack (.ofByte aHeader) (readChar data 0) (readChar data 1)

def suback (aHeader : UInt8) (data : List UInt8) (datalen : ℕ) : Pack :=
  .suback (.ofByte aHeader) (readInt data 0) ((data.take datalen).drop 2)

/-- The table `new_packets`: the outer `none` is for the types that are not in it. -/
def newPackets (aHeader : UInt8) (data : List UInt8) (datalen : ℕ) : Option (Option Pack) :=
  let type := (Header.ofByte aHeader).type
  if type = MsgType.connack.toFin then
    some (some (connack aHeader data))
  else if type = MsgType.publish.toFin then
    some ((publish aHeader data datalen).map .publish)
  else if type = MsgType.puback.toFin ∨ type = MsgType.pubrec.toFin ∨
      type = MsgType.pubrel.toFin ∨ type = MsgType.pubcomp.toFin ∨
      type = MsgType.unsuback.toFin then
    some (some (ack aHeader data))
  else if type = MsgType.suback.toFin then
    some (some (suback aHeader data datalen))
  else if type = MsgType.pingreq.toFin ∨ type = MsgType.pingresp.toFin ∨
      type = MsgType.disconnect.toFin then
    some (some (headerOnly aHeader))
  else
    none

end Mqtt
