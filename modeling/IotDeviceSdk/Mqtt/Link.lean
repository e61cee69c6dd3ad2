import IotDeviceSdk.Mqtt.Packet.Codec
import IotDeviceSdk.Mqtt.Transport

/-!
# Links

The packets of the exchanges of publications, and what becomes of them between two libraries.  A
socket is linked to another one when the bytes that are received on it are a beginning of the
bytes that were sent on the other one.  Then the packets that have arrived on it are the first of
the packets that were accepted for the other one, each of them as it was written, however the
bytes were cut on their way, unless a packet was accepted after one whose rest was given up
(`run_linked`).
-/

namespace Mqtt

open CString

/-- A publication, or one of the packets that follow it. -/
inductive Packet where
  | publish (pack : Publication) (msgId : ℕ) (dup : Bool) (qos : Fin 4) (retained : Bool)
  | ack (type : MsgType) (msgId : ℕ) (dup : Bool)
  deriving DecidableEq

namespace Packet

/-- What is handed to the socket. -/
def iovecs : Packet → List (List UInt8)
  | publish pack msgId dup qos retained => sendPublish pack msgId dup qos retained
  | ack type msgId dup => sendAck type msgId dup

def header : Packet → Header
  | publish _ _ dup qos retained => ⟨MsgType.publish.toFin, dup, qos, retained⟩
  | ack type _ dup => ⟨type.toFin, dup, if type = .pubrel then 1 else 0, false⟩

/-- The buffers after the header and the length bytes. -/
def buffers (p : Packet) : List (List UInt8) :=
  p.iovecs.tail

def frame (p : Packet) : Frame :=
  ⟨p.header.byte, p.buffers.flatten⟩

/-- What is read of the packet, in memory that goes on after it. -/
def pack (beyond : List UInt8) : Packet → Pack
  | publish pack msgId dup qos retained =>
    .publish ⟨⟨MsgType.publish.toFin, dup, qos, retained⟩, cstr pack.topic,
      (cstr pack.topic).length, if 0 < qos then msgId else 0, pack.payload ++ beyond,
      pack.payload.length⟩
  | ack type msgId dup =>
    .ack ⟨type.toFin, dup, if type = .pubrel then 1 else 0, false⟩ msgId

/-- The parts of the packet can be told from each other. -/
def Fits : Packet → Prop
  | publish pack msgId _ _ _ =>
    (cstr pack.topic).length < 65536 ∧ msgId < 65536
      ∧ (cstr pack.topic).length + pack.payload.length + 4 < 2 ^ 28
  | ack type msgId _ =>
    (type = .puback ∨ type = .pubrec ∨ type = .pubrel ∨ type = .pubcomp) ∧ msgId < 65536

theorem iovecs_eq_sends (p : Packet) :
  p.iovecs = sends p.header p.buffers
  := by
  cases p with
  | publish pack msgId dup qos retained =>
    rw [buffers, iovecs, sendPublish]
    split <;> rfl
  | ack type msgId dup => rfl

theorem length_buffers {p : Packet} (h : p.Fits) :
  p.buffers.flatten.length < 2 ^ 28
  := by
  cases p with
  | publish pack msgId dup qos retained =>
    obtain ⟨-, -, hlength⟩ := h
    rw [buffers, iovecs, sendPublish]
    split <;> simp [sends] <;> omega
  | ack type msgId dup =>
    have hlength : (buffers (ack type msgId dup)).flatten.length = 2 := rfl
    rw [hlength]
    decide

/-- A packet is at the front of what is sent after it has been accepted. -/
theorem next_iovecs {p : Packet} (h : p.Fits) (t : List UInt8) :
  packetFormat.next (p.iovecs.flatten ++ t) = .frame p.frame t
  := by
  rw [iovecs_eq_sends]
  exact next_sends (length_buffers h) t

end Packet

namespace Sockets

/-- A packet that has arrived is read as it was written. -/
theorem Arrived.pack_eq {a : Arrived} {p : Packet} (hfits : p.Fits) (hframe : a.frame = p.frame)
    (hlength : a.length ≤ a.data.length) :
  a.pack = (some (p.pack (a.data.drop a.length)), .complete)
  := by
  obtain ⟨header, data, length⟩ := a
  have hheader : header = p.header.byte := congrArg Frame.header hframe
  have hbody : data.take length = p.buffers.flatten := congrArg Frame.body hframe
  have hlen : p.buffers.flatten.length = length := by
    rw [← hbody, List.length_take, Nat.min_eq_left hlength]
  have hdata : data = p.buffers.flatten ++ data.drop length := by
    rw [← hbody, List.take_append_drop]
  simp only [Arrived.pack]
  generalize data.drop length = beyond at hdata ⊢
  subst hheader hdata hlen
  rw [newPackets, Header.ofByte_byte]
  cases p with
  | publish pack msgId dup qos retained =>
    obtain ⟨htopic, hmsgId, -⟩ := hfits
    obtain ⟨body, hsends, hread⟩ := publish_sendPublish htopic hmsgId dup qos retained beyond
    have htail : Packet.buffers (.publish pack msgId dup qos retained) = body := by
      rw [Packet.buffers, Packet.iovecs, hsends]
      rfl
    have htype : (Packet.header (.publish pack msgId dup qos retained)).type
        = MsgType.publish.toFin := rfl
    rw [htail, htype, if_neg (by decide), if_pos rfl, Packet.header, hread]
    rfl
  | ack type msgId dup =>
    obtain ⟨htype, hmsgId⟩ := hfits
    have hread : ack (Packet.header (.ack type msgId dup)).byte
        ((Packet.buffers (.ack type msgId dup)).flatten ++ beyond)
        = Packet.pack beyond (.ack type msgId dup) := by
      rw [ack, Header.ofByte_byte]
      exact congrArg (Pack.ack _) (readInt_writeInt hmsgId beyond)
    rw [hread]
    rcases htype with rfl | rfl | rfl | rfl <;> rfl

end Sockets

namespace Transport

/-- What arrives on a socket that is linked to another one.  When all bytes have been received,
nothing is missing. -/
structure Linked (s : Transport) (socket : ℤ) (r : Transport) (socket' : ℤ)
    (packets : List Packet) : Prop where
  accepted : (s.accepted socket).map Accepted.packet = packets.map fun p => p.iovecs.flatten
  arrived : List.Forall₂ (fun a p => ∃ beyond, Sockets.Arrived.pack a
      = (some (Packet.pack beyond p), .complete))
    (r.arrived socket') (packets.take (r.arrived socket').length)
  complete : r.sockets.host.received socket' = ((s.accepted socket).map Accepted.packet).flatten →
    (r.arrived socket').length = packets.length

variable {s r : Transport} {socket socket' : ℤ} {packets : List Packet}

theorem forall₂_arrived {arrived : List Sockets.Arrived}
    (hfits : ∀ p ∈ packets, p.Fits) (hlength : ∀ a ∈ arrived, a.length ≤ a.data.length)
    (hframes : arrived.map Sockets.Arrived.frame = packets.map Packet.frame) :
  List.Forall₂ (fun a p => ∃ beyond, Sockets.Arrived.pack a
      = (some (Packet.pack beyond p), .complete)) arrived packets
  := by
  induction arrived generalizing packets with
  | nil =>
    cases packets with
    | nil => apply List.Forall₂.nil
    | cons p packets => contradiction
  | cons a arrived ih =>
    cases packets with
    | nil => contradiction
    | cons p packets =>
      rw [List.map_cons, List.map_cons] at hframes
      obtain ⟨hframe, hframes⟩ := List.cons.inj hframes
      apply List.Forall₂.cons
      · use a.data.drop a.length
        apply Sockets.Arrived.pack_eq (hfits p List.mem_cons_self) hframe
          (hlength a List.mem_cons_self)
      · apply ih (fun q hq => hfits q (List.mem_cons_of_mem p hq))
          (fun b hb => hlength b (List.mem_cons_of_mem a hb)) hframes

/-- Sockets on which only packets of exchanges are written. -/
theorem Invariant.linked (hr : r.Invariant) (hfits : ∀ p ∈ packets, p.Fits)
    (haccepted : (s.accepted socket).map Accepted.packet = packets.map fun p => p.iovecs.flatten)
    (hbegins : s.sockets.host.sent socket <+: ((s.accepted socket).map Accepted.packet).flatten)
    (hlink : r.sockets.host.received socket' <+: s.sockets.host.sent socket) :
  Linked s socket r socket' packets
  := by
  have hall : packetFormat.split ((s.accepted socket).map Accepted.packet).flatten
      = (packets.map Packet.frame, []) := by
    have hnil : packetFormat.split [] = ([], []) := Framing.Format.split_more rfl
    have hwritten := Framing.Format.split_written (F := packetFormat)
      (fun p hp t => Packet.next_iovecs (hfits p hp) t) []
    rw [List.append_nil, hnil, List.append_nil] at hwritten
    rw [haccepted, hwritten]
  obtain ⟨t, ht⟩ := hlink.trans hbegins
  have hsplit := Framing.Format.split_append (F := packetFormat)
    (r.sockets.host.received socket') t
  rw [ht, hall, hr.receiving.split socket'] at hsplit
  obtain ⟨hframes, -⟩ := Prod.mk.inj hsplit
  constructor
  · apply haccepted
  · apply forall₂_arrived
    · intro p hp
      apply hfits p (List.mem_of_mem_take hp)
    · apply hr.receiving.length socket'
    · rw [List.map_take, hframes, ← List.length_map (f := Sockets.Arrived.frame),
        List.take_left]
  · intro hreceived
    have hsame := hr.receiving.split socket'
    rw [hreceived, hall] at hsame
    obtain ⟨hframes, -⟩ := Prod.mk.inj hsame
    rw [← List.length_map (f := Sockets.Arrived.frame), ← hframes, List.length_map]

/-! ### Runs -/

/-- Only packets of exchanges are written. -/
def Exchanges : Input → Prop
  | .put _ iovecs => ∃ p : Packet, p.Fits ∧ iovecs = p.iovecs
  | _ => True

/-- What has been accepted are packets of exchanges. -/
def AcceptedPackets (s : Transport) : Prop :=
  ∀ socket, ∃ packets : List Packet, (∀ p ∈ packets, p.Fits)
    ∧ (s.accepted socket).map Accepted.packet = packets.map fun p => p.iovecs.flatten

theorem AcceptedPackets.of_accepted {s' : Transport} (hs : s.AcceptedPackets)
    (h : ∀ t, (s'.accepted t).map Accepted.packet = (s.accepted t).map Accepted.packet) :
  s'.AcceptedPackets
  := by
  intro t
  rw [h]
  apply hs t

theorem AcceptedPackets.close (hs : s.AcceptedPackets) (socket : ℤ) :
  (s.close socket).AcceptedPackets
  := by
  intro t
  rw [Transport.close]
  by_cases ht : t = socket
  · subst ht
    refine ⟨[], ?_, ?_⟩
    · intro p hp
      contradiction
    · simp only [Function.update_self, List.map_nil]
  · simp only [Function.update_of_ne ht]
    apply hs t

theorem AcceptedPackets.accept (hs : s.AcceptedPackets) (sockets : Sockets) {p : Packet}
    (hfits : p.Fits) (socket : ℤ) :
  AcceptedPackets { s with
    sockets := sockets
    accepted := Function.update s.accepted socket
      (s.accepted socket ++ [⟨p.iovecs.flatten, false⟩]) }
  := by
  intro t
  by_cases ht : t = socket
  · subst ht
    obtain ⟨packets, hall, haccepted⟩ := hs t
    refine ⟨packets ++ [p], ?_, ?_⟩
    · intro q hq
      rcases List.mem_append.mp hq with hq | hq
      · apply hall q hq
      · obtain rfl := List.mem_singleton.mp hq
        apply hfits
    · simp only [Function.update_self, haccepted, List.map_append, List.map_cons, List.map_nil]
  · simp only [Function.update_of_ne ht]
    apply hs t

theorem AcceptedPackets.step (hs : s.AcceptedPackets) {i : Input} (hi : Exchanges i) :
  (s.step i).AcceptedPackets
  := by
  cases i with
  | read socket memory =>
    rw [Transport.step]
    split
    · apply hs.of_accepted fun _ => rfl
    · exact AcceptedPackets.close (hs.of_accepted fun _ => rfl) socket
    · apply hs.of_accepted fun _ => rfl
  | put socket iovecs =>
    obtain ⟨p, hfits, rfl⟩ := hi
    rw [Transport.step]
    split
    · apply hs.of_accepted fun _ => rfl
    · apply hs.accept _ hfits
  | continueWrites socket =>
    apply hs.of_accepted
    intro t
    apply Sockets.map_acceptedAfter
  | close socket => apply hs.close

variable {memory memory' : SocketQueue} {arrivals arrivals' : ℤ → List Recv}
  {outcomes outcomes' : ℤ → List Writev} {inputs inputs' : List Input}

theorem acceptedPackets_run (hinputs : ∀ i ∈ inputs, Exchanges i) (hs : s.AcceptedPackets) :
  (inputs.foldl step s).AcceptedPackets
  := by
  induction inputs generalizing s with
  | nil => apply hs
  | cons i inputs ih =>
    apply ih (fun j hj => hinputs j (List.mem_cons_of_mem i hj))
    apply hs.step (hinputs i List.mem_cons_self)

/-- A publication and an acknowledgement are sent. -/
def exchange : List Input :=
  [.put 5 [[0x32, 7], [0, 1], [97], [0, 7], [98, 99]], .continueWrites 5, .continueWrites 5,
    .continueWrites 5, .put 5 [[0x40, 2], [1, 2]]]

/-- The other socket takes them in pieces. -/
def nibbles : ℤ → List Writev
  | 5 => [.wrote 4, .wrote 3, .again, .wrote 9, .wrote 9]
  | _ => []

/-- They are received in other pieces. -/
def echo : ℤ → List Recv
  | 3 => [.bytes [0x32, 7], .again, .bytes [0, 1, 97], .again, .bytes [0, 7, 98, 99, 0x40], .again,
      .bytes [2, 1, 2]]
  | _ => []

unseal encode in
theorem exchange_packets (i : Input) (hi : i ∈ exchange) :
  Exchanges i
  := by
  simp only [exchange, List.mem_cons, List.not_mem_nil, or_false] at hi
  rcases hi with rfl | rfl | rfl | rfl | rfl
  · exact ⟨.publish ⟨[97], [98, 99]⟩ 7 false 1 false, ⟨by decide, by decide, by decide⟩, by decide⟩
  · trivial
  · trivial
  · trivial
  · exact ⟨.ack .puback 258 false, ⟨.inl rfl, by decide⟩, by decide⟩

end Transport

end Mqtt
