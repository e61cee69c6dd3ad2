import IotDeviceSdk.Foundation.Keyed
import IotDeviceSdk.Mqtt.Link

/-!
# Publications of a client

What the client library does with the publications that are sent and received: the messages that
are kept until the exchange of packets about them is over, and the messages that wait for the
application.  A client writes its packets to a `Net`; in the library that is a socket.  Closing
the connection is a step of its own.
-/

namespace Mqtt

open Keyed

/-- What a client uses of a connection: whether a write is pending, and sending a packet. -/
structure Net (σ : Type*) where
  noPendingWrites : σ → Bool
  send : σ → Packet → SocketBuffer.Completion × σ

/-- A message that is kept, and the packet that is waited for if its quality of service is 2. -/
structure Messages where
  qos : Fin 4
  retain : Bool
  msgid : ℕ
  publish : Publication
  lastTouch : ℤ
  nextMessageType : Option MsgType
  deriving DecidableEq

/-- A message for the application. -/
structure Message where
  topic : List UInt8
  payload : List UInt8
  qos : Fin 4
  retained : Bool
  dup : Bool
  msgid : ℕ
  deriving DecidableEq

/-! ### The application -/

/-- The messages that wait for the application, those that it has taken, and what its callback
`messageArrived` is going to return. -/
structure Inbox where
  messageQueue : List Message
  taken : List Message
  answers : List Bool

namespace Inbox

/-- The application is called with a message. -/
def messageArrived (i : Inbox) (mm : Message) : Bool × Inbox :=
  match i.answers with
  | [] => (false, i)
  | rc :: answers =>
    (rc, { i with answers, taken := if rc then i.taken ++ [mm] else i.taken })

/-- What the thread that receives does with the queue. -/
def deliver (i : Inbox) : Inbox :=
  match i.messageQueue with
  | [] => i
  | mm :: messageQueue =>
    match i.messageArrived mm with
    | (true, i) => { i with messageQueue }
    | (false, i) => i

/-- All messages that have been received. -/
def received (i : Inbox) : List Message :=
  i.taken ++ i.messageQueue

theorem messageArrived_true {i i' : Inbox} {mm : Message} (h : i.messageArrived mm = (true, i')) :
  i'.taken = i.taken ++ [mm] ∧ i'.messageQueue = i.messageQueue
  := by
  rw [messageArrived] at h
  split at h
  · exact absurd (congrArg Prod.fst h) Bool.false_ne_true
  · obtain ⟨rfl, rfl⟩ := Prod.mk.inj h
    exact ⟨rfl, rfl⟩

theorem messageArrived_false {i i' : Inbox} {mm : Message}
    (h : i.messageArrived mm = (false, i')) :
  i'.taken = i.taken ∧ i'.messageQueue = i.messageQueue
  := by
  rw [messageArrived] at h
  split at h
  · obtain rfl := (Prod.mk.inj h).2
    exact ⟨rfl, rfl⟩
  · obtain ⟨rfl, rfl⟩ := Prod.mk.inj h
    exact ⟨rfl, rfl⟩

theorem received_deliver (i : Inbox) :
  i.deliver.received = i.received
  := by
  rw [deliver]
  split
  · rfl
  · rename_i mm queue hqueue
    split
    · rename_i i' harrived
      obtain ⟨htaken, -⟩ := messageArrived_true harrived
      rw [received, received, htaken, hqueue]
      apply List.append_assoc
    · rename_i i' harrived
      obtain ⟨htaken, hsame⟩ := messageArrived_false harrived
      rw [received, received, htaken, hsame]

/-- The application takes all messages that wait if it accepts each of them. -/
theorem taken_deliver {i : Inbox} {answers : List Bool}
    (h : i.answers = List.replicate i.messageQueue.length true ++ answers) :
  (deliver^[i.messageQueue.length] i).taken = i.received
  := by
  induction hn : i.messageQueue.length generalizing i with
  | zero =>
    rw [received, List.length_eq_zero_iff.mp hn, List.append_nil]
    rfl
  | succ n ih =>
    obtain ⟨mm, queue, hqueue⟩ := List.exists_cons_of_length_eq_add_one hn
    have hdeliver : i.deliver = ⟨queue, i.taken ++ [mm], List.replicate n true ++ answers⟩ := by
      rw [hn, List.replicate_succ, List.cons_append] at h
      simp only [deliver, hqueue, messageArrived, h, if_true]
    have hlength : queue.length = n := by
      rw [hqueue, List.length_cons] at hn
      omega
    rw [Function.iterate_succ_apply, ← received_deliver, hdeliver]
    apply ih
    · rw [hlength]
    · exact hlength

end Inbox

/-- The synchronous and the asynchronous library. -/
inductive Library where
  | mqttClient
  | mqttAsync
  deriving DecidableEq

namespace Library

/-- `Protocol_processPublication`, of which each library has its own: a message is received.  In the
synchronous library it is queued, and in the asynchronous one the application is called if no
other message waits. -/
def processPublication : Library → Bool → Inbox → Message → Inbox
  | mqttClient, _, i, mm => { i with messageQueue := i.messageQueue ++ [mm] }
  | mqttAsync, connected, i, mm =>
    if i.messageQueue = [] ∧ connected then
      match i.messageArrived mm with
      | (true, i) => i
      | (false, i) => { i with messageQueue := i.messageQueue ++ [mm] }
    else
      { i with messageQueue := i.messageQueue ++ [mm] }

/-- Whatever the library does with a message, it is the last one that was received. -/
theorem received_processPublication (L : Library) (connected : Bool) (i : Inbox) (mm : Message) :
  (L.processPublication connected i mm).received = i.received ++ [mm]
  := by
  cases L with
  | mqttClient => exact (List.append_assoc _ _ _).symm
  | mqttAsync =>
    rw [processPublication]
    split
    · rename_i h
      split
      · rename_i i' harrived
        obtain ⟨htaken, hqueue⟩ := Inbox.messageArrived_true harrived
        rw [Inbox.received, Inbox.received, htaken, hqueue, h.1, List.append_nil, List.append_nil]
      · rename_i i' harrived
        obtain ⟨htaken, hqueue⟩ := Inbox.messageArrived_false harrived
        rw [Inbox.received, Inbox.received, htaken, hqueue, List.append_assoc]
    · rw [Inbox.received, Inbox.received, List.append_assoc]

end Library

/-! ### Clients -/

/-- A client, and the packets that have been accepted on its connection. -/
structure Client (σ : Type*) where
  connected : Bool
  good : Bool
  cleansession : Bool
  msgID : ℕ
  maxInflightMessages : ℕ
  retryInterval : ℤ
  inboundMsgs : List Messages
  outboundMsgs : List Messages
  inbox : Inbox
  net : σ
  sent : List Packet

def MAX_MSG_ID : ℕ := 65535

/-- The message id after this one. -/
def nextMsgId (msgid : ℕ) : ℕ :=
  if msgid = MAX_MSG_ID then 1 else msgid + 1

variable {σ : Type*} (N : Net σ) (L : Library)

namespace Client

/-- A packet is written, unless there is an error. -/
def send (c : Client σ) (p : Packet) : SocketBuffer.Completion × Client σ :=
  let (rc, net) := N.send c.net p
  (rc, { c with net, sent := if rc = .error then c.sent else c.sent ++ [p] })

def processPublication (c : Client σ) (mm : Message) : Client σ :=
  { c with inbox := L.processPublication c.connected c.inbox mm }

/-! ### Sending publications -/

/-- The loop of `MQTTProtocol_assignMsgId`, which goes around at most `k` more times; `none` if
this is not enough. -/
def tryMsgIds (c : Client σ) : ℕ → ℕ → Option ℕ
  | 0, _ => none
  | k + 1, msgid =>
    if (find Messages.msgid msgid c.outboundMsgs).isSome then
      if nextMsgId msgid = c.msgID then some 0 else tryMsgIds c k (nextMsgId msgid)
    else
      some msgid

/-- `MQTTProtocol_assignMsgId`. -/
def assignMsgId (c : Client σ) : Option (ℕ × Client σ) :=
  (c.tryMsgIds (MAX_MSG_ID + 1) (nextMsgId c.msgID)).map fun msgid =>
    (msgid, if msgid ≠ 0 then { c with msgID := msgid } else c)

def createMessage (publish : Publication) (msgId : ℕ) (qos : Fin 4) (retained : Bool) (time : ℤ) :
    Messages where
  qos := qos
  retain := retained
  msgid := msgId
  publish := publish
  lastTouch := time
  nextMessageType := if qos = 2 then some .pubrec else none

def startPublish (c : Client σ) (publish : Publication) (msgId : ℕ) (qos : Fin 4)
    (retained : Bool) (time : ℤ) : SocketBuffer.Completion × Client σ :=
  let c :=
    if 0 < qos then
      { c with
        outboundMsgs := c.outboundMsgs ++ [createMessage publish msgId qos retained time] }
    else
      c
  c.send N (.publish publish msgId false qos retained)

/-- The part of `MQTTClient_publish` after the topic has been checked.  It waits while too many
messages are kept or a write is pending. -/
def publish (c : Client σ) (pack : Publication) (qos : Fin 4) (retained : Bool) (time : ℤ) :
    Client σ :=
  if ¬ c.connected ∨ c.maxInflightMessages ≤ c.outboundMsgs.length
      ∨ ¬ N.noPendingWrites c.net then
    c
  else if 0 < qos then
    match c.assignMsgId with
    | none => c
    | some (0, c) => c
    | some (msgid, c) => (c.startPublish N pack msgid qos retained time).2
  else
    (c.startPublish N pack 0 qos retained time).2

/-! ### Receiving publications -/

/-- The message of a publish packet. -/
def incoming (publish : Publish) : Message where
  topic := publish.topic
  payload := publish.payload.take publish.payloadlen.toNat
  qos := publish.header.qos
  retained := publish.header.retain
  dup := if publish.header.qos = 2 then false else publish.header.dup
  msgid := publish.msgId

/-- A message that waits to be released. -/
def storePublication (publish : Publish) : Messages where
  qos := publish.header.qos
  retain := publish.header.retain
  msgid := publish.msgId
  publish := ⟨publish.topic, publish.payload.take publish.payloadlen.toNat⟩
  lastTouch := 0
  nextMessageType := some .pubrel

/-- What is done with a publication.  One of quality of service 2 takes the place of a message that
is stored with its id. -/
def handlePublishes (c : Client σ) (publish : Publish) : SocketBuffer.Completion × Client σ :=
  if publish.header.qos = 0 then
    (.complete, c.processPublication L (incoming publish))
  else if ¬ N.noPendingWrites c.net then
    (.error, c)
  else if publish.header.qos = 1 then
    let (rc, c) := c.send N (.ack .puback publish.msgId false)
    (rc, c.processPublication L (incoming publish))
  else if publish.header.qos = 2 then
    let inboundMsgs := put Messages.msgid (storePublication publish) c.inboundMsgs
    { c with inboundMsgs }.send N (.ack .pubrec publish.msgId false)
  else
    (.complete, c)

def handlePubrels (c : Client σ) (header : Header) (msgId : ℕ) :
    SocketBuffer.Completion × Client σ :=
  match find Messages.msgid msgId c.inboundMsgs with
  | none =>
    if ¬ header.dup then
      (.complete, c)
    else if ¬ N.noPendingWrites c.net then
      (.error, c)
    else
      c.send N (.ack .pubcomp msgId false)
  | some m =>
    if m.qos ≠ 2 then
      (.complete, c)
    else if m.nextMessageType ≠ some .pubrel then
      (.complete, c)
    else if ¬ N.noPendingWrites c.net then
      (.error, c)
    else
      let (rc, c) := c.send N (.ack .pubcomp msgId false)
      let c := c.processPublication L
        ⟨m.publish.topic, m.publish.payload, m.qos, m.retain, false, m.msgid⟩
      (rc, { c with inboundMsgs := remove Messages.msgid msgId c.inboundMsgs })

/-! ### Receiving answers -/

def handlePubacks (c : Client σ) (msgId : ℕ) : SocketBuffer.Completion × Client σ :=
  match find Messages.msgid msgId c.outboundMsgs with
  | none => (.complete, c)
  | some m =>
    if m.qos ≠ 1 then
      (.complete, c)
    else
      (.complete, { c with outboundMsgs := remove Messages.msgid msgId c.outboundMsgs })

def handlePubrecs (c : Client σ) (msgId : ℕ) (time : ℤ) : SocketBuffer.Completion × Client σ :=
  match find Messages.msgid msgId c.outboundMsgs with
  | none => (.complete, c)
  | some m =>
    if m.qos ≠ 2 then
      (.complete, c)
    else if m.nextMessageType ≠ some .pubrec then
      (.complete, c)
    else
      let (rc, c) := c.send N (.ack .pubrel msgId false)
      let outboundMsgs := modify Messages.msgid msgId
        (fun m => { m with nextMessageType := some .pubcomp, lastTouch := time }) c.outboundMsgs
      (rc, { c with outboundMsgs })

def handlePubcomps (c : Client σ) (msgId : ℕ) : SocketBuffer.Completion × Client σ :=
  match find Messages.msgid msgId c.outboundMsgs with
  | none => (.complete, c)
  | some m =>
    if m.qos ≠ 2 then
      (.complete, c)
    else if m.nextMessageType ≠ some .pubcomp then
      (.complete, c)
    else
      (.complete, { c with outboundMsgs := remove Messages.msgid msgId c.outboundMsgs })

/-- What the functions `MQTTClient_cycle` and `MQTTAsync_cycle` do with a packet of an exchange. -/
def cycle (c : Client σ) (time : ℤ) : Pack → SocketBuffer.Completion × Client σ
  | .publish publish => c.handlePublishes N L publish
  | .ack header msgId =>
    if header.type = MsgType.puback.toFin then
      c.handlePubacks msgId
    else if header.type = MsgType.pubcomp.toFin then
      c.handlePubcomps msgId
    else if header.type = MsgType.pubrec.toFin then
      c.handlePubrecs N msgId time
    else if header.type = MsgType.pubrel.toFin then
      c.handlePubrels N L header msgId
    else
      (.complete, c)
  | _ => (.complete, c)

/-! ### Retrying -/

/-- The packet that is sent again for a message, if any. -/
def retryPacket (m : Messages) : Option Packet :=
  if m.qos = 1 ∨ m.qos = 2 ∧ m.nextMessageType = some .pubrec then
    some (.publish m.publish m.msgid true m.qos m.retain)
  else if 0 < m.qos ∧ m.nextMessageType = some .pubcomp then
    some (.ack .pubrel m.msgid false)
  else
    none

/-- What comes of sending it is taken for an error. -/
def retryFailed (p : Packet) (rc : SocketBuffer.Completion) : Bool :=
  match p with
  | .publish .. => rc = .error
  | .ack .. => rc ≠ .complete

/-- The loop of `MQTTProtocol_retries` over the messages that are left. -/
def retries (now time : ℤ) (regardless : Bool) :
    List Messages → Client σ → List Messages × Client σ
  | [], c => ([], c)
  | m :: ms, c =>
    if ¬ (c.connected ∧ c.good ∧ N.noPendingWrites c.net) then
      (m :: ms, c)
    else if ¬ (regardless ∨ max c.retryInterval 10 < now - m.lastTouch) then
      let (ms, c) := retries now time regardless ms c
      (m :: ms, c)
    else
      match retryPacket m with
      | none =>
        let (ms, c) := retries now time regardless ms c
        (m :: ms, c)
      | some p =>
        let (rc, c) := c.send N p
        if retryFailed p rc then
          (m :: ms, { c with good := false })
        else
          let (ms, c) := retries now time regardless ms c
          ({ m with lastTouch := time } :: ms, c)

/-- `MQTTProtocol_retry` for one client, at the time `time`. -/
def retry (c : Client σ) (now time : ℤ) (doRetry regardless : Bool) : Client σ :=
  if ¬ (c.connected ∧ c.good ∧ N.noPendingWrites c.net ∧ doRetry) then
    c
  else if ¬ regardless ∧ c.retryInterval ≤ 0 then
    c
  else
    let (outboundMsgs, c) := retries N now time regardless c.outboundMsgs c
    { c with outboundMsgs }

/-! ### Sessions -/

def cleanSession (c : Client σ) : Client σ :=
  { c with
    inboundMsgs := [], outboundMsgs := [], msgID := 0,
    inbox := { c.inbox with messageQueue := [] } }

def closeSession (c : Client σ) : Client σ :=
  let c := { c with good := false, connected := false }
  if c.cleansession then c.cleanSession else c

/-- What is done when a new connection has been made and accepted. -/
def completeConnection (c : Client σ) (net : σ) (time : ℤ) : Client σ :=
  let c := { c with connected := true, good := true, net, sent := [] }
  let c := if c.cleansession then c.cleanSession else c
  let c := { c with outboundMsgs := c.outboundMsgs.map fun m => { m with lastTouch := 0 } }
  if c.outboundMsgs.isEmpty then c else c.retry N 0 time true true

end Client

end Mqtt
