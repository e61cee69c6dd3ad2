import IotDeviceSdk.Mqtt.Exchange
import IotDeviceSdk.Mqtt.ProtocolClient.Fitting

/-!
# Sessions over sockets

The exchanges of two clients whose connections are sockets: the bytes that a socket receives are a
beginning of those that were sent on the other one, in whatever pieces.  What the clients do then
is what they do when they handle the packets of each other one by one (`Session.step_inputs`), so
what is known of exchanges holds here (`Session.run_received`).

The publications are short enough for their packets, and the write errors of a connection last, as
the socket of a connection that is broken goes on failing.
-/

namespace Mqtt

open CString Keyed

namespace Transport

/-- What comes of reading. -/
theorem read_spec (r : Transport) (socket : ℤ) (memory : SocketQueue)
    (herror : (r.sockets.readPacket memory socket).1 ≠ .error .error) :
  (r.step (.read socket memory)).accepted = r.accepted
    ∧ (r.step (.read socket memory)).sockets = (r.sockets.readPacket memory socket).2
    ∧ (r.step (.read socket memory)).arrived socket = r.arrived socket
      ++ match (r.sockets.readPacket memory socket).1 with
        | .ok a => [a]
        | .error _ => []
  := by
  rw [step]
  generalize r.sockets.readPacket memory socket = result at herror
  obtain ⟨result, s⟩ := result
  cases result with
  | ok a => exact ⟨rfl, rfl, Function.update_self _ _ _⟩
  | error rc =>
    cases rc with
    | error => contradiction
    | complete => exact ⟨rfl, rfl, (List.append_nil _).symm⟩
    | interrupted => exact ⟨rfl, rfl, (List.append_nil _).symm⟩
    | badPacket => exact ⟨rfl, rfl, (List.append_nil _).symm⟩

/-- What is sent on a socket whose errors last when it is read. -/
theorem lasting_read {r : Transport} (hr : r.Invariant) {socket : ℤ} (memory : SocketQueue)
    (hl : r.sockets.Lasting socket (r.accepted socket)) (hsocket : socket ≠ 0)
    (hreadable : r.sockets.Readable socket) :
  (r.sockets.readPacket memory socket).2.Lasting socket (r.accepted socket)
  := by
  have helse := (hr.receiving.resting.readPacket memory hsocket hreadable).elsewhere
  apply hl.congr
  · rw [helse.outcomes]
  · rw [helse.sent]

end Transport

/-- A connection: one of the sockets of a client's transport. -/
structure Connection where
  socket : ℤ
  transport : Transport

namespace Connection

def read (c : Connection) (memory : SocketQueue) : Connection :=
  { c with transport := c.transport.step (.read c.socket memory) }

def continueWrites (c : Connection) : Connection :=
  { c with transport := c.transport.step (.continueWrites c.socket) }

/-- What a client uses of a connection. -/
def net : Net Connection where
  noPendingWrites c := c.transport.sockets.noPendingWrites c.socket
  send c p := ((c.transport.sockets.putdatas c.socket p.iovecs).1,
    { c with transport := c.transport.step (.put c.socket p.iovecs) })

def arrived (c : Connection) : List Sockets.Arrived :=
  c.transport.arrived c.socket

def received (c : Connection) : List UInt8 :=
  c.transport.sockets.host.received c.socket

def sent (c : Connection) : List UInt8 :=
  c.transport.sockets.host.sent c.socket

/-- The packets that were accepted, and how many have arrived. -/
structure Carries (n : ℕ) (c : Connection) (packets : List Packet) : Prop where
  invariant : c.transport.Invariant
  accepted : (c.transport.accepted c.socket).map Accepted.packet
    = packets.map fun p => p.iovecs.flatten
  lasting : c.transport.sockets.Lasting c.socket (c.transport.accepted c.socket)
  fits : ∀ p ∈ packets, p.Fits
  arrived : c.arrived.length = n

/-- A new connection, whose write errors last. -/
structure New (c : Connection) : Prop where
  invariant : c.transport.Invariant
  accepted : c.transport.accepted c.socket = []
  arrived : c.arrived = []
  lasting : Writev.Lasting (c.transport.sockets.host.outcomes c.socket)

/-- It carries nothing yet. -/
theorem New.carries {c : Connection} (h : c.New) :
  c.Carries 0 []
  := by
  have hsent := h.invariant.writing.sent c.socket
  rw [h.accepted] at hsent
  constructor
  · apply h.invariant
  · rw [h.accepted]
    rfl
  · rw [h.accepted]
    refine ⟨h.lasting, hsent.begins fun a ha => absurd ha List.not_mem_nil, ?_⟩
    rintro ⟨a, ha, -⟩
    exact absurd ha List.not_mem_nil
  · intro p hp
    exact absurd hp List.not_mem_nil
  · rw [h.arrived]
    rfl

/-- A packet that fits is sent. -/
theorem stable (n : ℕ) :
  Client.Stable net (Carries n)
  := by
  intro c p hp hc
  have hinvariant := hc.invariant.step (.put c.net.socket p.iovecs) trivial
  have hlasting := hc.lasting.putdatas hc.invariant.writing p.iovecs
  rw [Transport.step_put] at hinvariant
  rw [Client.send, net]
  simp only [Transport.step_put]
  constructor
  · exact hinvariant
  · simp only [Function.update_self]
    rw [List.map_append, hc.accepted, Sockets.acceptedOf]
    split
    · rw [List.map_nil, List.append_nil]
    · rw [List.map_append]
      rfl
  · simp only [Function.update_self]
    exact hlasting
  · intro q hq
    split at hq
    · apply hc.fits q hq
    · rcases List.mem_append.mp hq with hq | hq
      · apply hc.fits q hq
      · obtain rfl := List.mem_singleton.mp hq
        exact hp
  · apply hc.arrived

theorem Carries.continueWrites {n : ℕ} {c : Connection} {packets : List Packet}
    (h : c.Carries n packets) :
  c.continueWrites.Carries n packets
  := by
  constructor
  · exact h.invariant.step (.continueWrites c.socket) trivial
  · exact (Sockets.map_acceptedAfter _ _ _ _).trans h.accepted
  · exact h.lasting.continueWrites h.invariant.writing
  · apply h.fits
  · apply h.arrived

/-- The socket can be read, and what has been received then is a beginning of what was sent on the
other socket. -/
structure Linked (c : Connection) (memory : SocketQueue) (peer : Connection) : Prop where
  socket : c.socket ≠ 0
  readable : c.transport.sockets.Readable c.socket
  received : (c.read memory).received <+: peer.sent

variable {n m : ℕ} {c peer : Connection} {memory : SocketQueue} {packets packets' : List Packet}

theorem Carries.read (h : c.Carries n packets) (hlinked : c.Linked memory peer)
    (herror : (c.transport.sockets.readPacket memory c.socket).1 ≠ .error .error) :
  (c.read memory).Carries (c.read memory).arrived.length packets
  := by
  obtain ⟨haccepted, hsockets, -⟩ := Transport.read_spec c.transport c.socket memory herror
  constructor
  · exact h.invariant.step (.read c.socket memory) ⟨hlinked.socket, hlinked.readable⟩
  · change ((c.transport.step (.read c.socket memory)).accepted c.socket).map _ = _
    rw [haccepted, h.accepted]
  · change (c.transport.step (.read c.socket memory)).sockets.Lasting c.socket
      ((c.transport.step (.read c.socket memory)).accepted c.socket)
    rw [haccepted, hsockets]
    exact Transport.lasting_read h.invariant memory h.lasting hlinked.socket hlinked.readable
  · apply h.fits
  · rfl

/-- No packet has arrived yet. -/
theorem Carries.interrupted (h : c.Carries n packets) (hlinked : c.Linked memory peer)
    {rc : SocketBuffer.Completion} (hrc : rc ≠ .error)
    (hread : (c.transport.sockets.readPacket memory c.socket).1 = .error rc) :
  (c.read memory).Carries n packets
  := by
  have herror : (c.transport.sockets.readPacket memory c.socket).1 ≠ .error .error := by
    rw [hread]
    exact fun heq => hrc (Except.error.inj heq)
  obtain ⟨-, -, harrived⟩ := Transport.read_spec c.transport c.socket memory herror
  rw [hread, List.append_nil] at harrived
  have hlength : (c.read memory).arrived.length = n := by
    rw [← h.arrived]
    exact congrArg List.length harrived
  rw [← hlength]
  apply h.read hlinked herror

/-- A packet that has arrived is the next one that was accepted for the other socket. -/
theorem Carries.next (h : c.Carries n packets) (hpeer : peer.Carries m packets')
    (hlinked : c.Linked memory peer) {a : Sockets.Arrived}
    (ha : (c.transport.sockets.readPacket memory c.socket).1 = .ok a) :
  (c.read memory).arrived.length = n + 1
    ∧ ∃ p beyond, packets'[n]? = some p ∧ a.pack = (some (p.pack beyond), .complete)
  := by
  have herror : (c.transport.sockets.readPacket memory c.socket).1 ≠ .error .error := by
    rw [ha]
    simp
  obtain ⟨-, -, harrived⟩ := Transport.read_spec c.transport c.socket memory herror
  rw [ha] at harrived
  have hread := h.read hlinked herror
  have hlength : (c.read memory).arrived.length = n + 1 := by
    change ((c.transport.step (.read c.socket memory)).arrived c.socket).length = n + 1
    rw [harrived, List.length_append, ← h.arrived]
    rfl
  refine ⟨hlength, ?_⟩
  have hpackets := (hread.invariant.linked hpeer.fits hpeer.accepted hpeer.lasting.begins
    hlinked.received).arrived
  change List.Forall₂ _ ((c.transport.step (.read c.socket memory)).arrived c.socket) _ at hpackets
  rw [harrived] at hpackets
  have hold : (c.transport.arrived c.socket).length = n := h.arrived
  have hlast := hpackets.get (i := n) (by rw [List.length_append, hold]; exact Nat.lt_succ_self n)
    (by rw [← hpackets.length_eq, List.length_append, hold]; exact Nat.lt_succ_self n)
  subst hold
  simp only [List.get_eq_getElem, List.getElem_concat_length, List.getElem_take] at hlast
  obtain ⟨beyond, hbeyond⟩ := hlast
  exact ⟨_, beyond, List.getElem?_eq_getElem _, hbeyond⟩

end Connection

/-- A publication whose parts fit a packet. -/
def Publication.Short (pack : Publication) : Prop :=
  (cstr pack.topic).length < 65536 ∧ (cstr pack.topic).length + pack.payload.length + 4 < 2 ^ 28

namespace Session

/-- What happens: a client does something by itself, its socket is read, or a pending write goes
on. -/
inductive Input where
  | own (i : System.Input Connection)
  | read (b : Bool) (memory : SocketQueue) (time : ℤ)
  | continueWrites (b : Bool)

variable (L : Bool → Library)

/-- A packet that has been read is handled; when reading fails, the session is closed. -/
def step (s : System Connection) : Input → System Connection
  | .own i => s.step Connection.net L i
  | .read b memory time =>
    let c := s.client b
    if ¬ c.connected then
      s
    else
      match (c.net.transport.sockets.readPacket memory c.net.socket).1 with
      | .error .error => s.set b c.closeSession
      | .error _ => s.set b { c with net := c.net.read memory }
      | .ok a =>
        let c := { c with net := c.net.read memory }
        match a.pack.1 with
        | none => s.set b c
        | some pack =>
          { s.set b (c.cycle Connection.net (L b) time pack).2 with
            read := Function.update s.read b (s.read b + 1) }
  | .continueWrites b =>
    s.set b { s.client b with net := (s.client b).net.continueWrites }

/-- What is published fits its packet, the write errors of a new connection last, and sockets are
read when they can be. -/
def Ready (s : System Connection) : Input → Prop
  | .own (.publish _ pack _ _ _) => pack.Short
  | .own (.connect connection _) => ∀ b, (connection b).New
  | .own (.receive ..) | .own (.network ..) => False
  | .read b memory _ =>
    (s.client b).connected → (s.client b).net.Linked memory (s.client !b).net
  | _ => True

/-- The connections carry what has been sent on them. -/
def Wired (s : System Connection) : Prop :=
  ∀ b, (s.client b).Holds (Connection.Carries (s.read b))

variable {L} {s : System Connection} {b : Bool} {c : Client Connection}

theorem Wired.set (hs : Wired s) (hc : c.Holds (Connection.Carries (s.read b))) :
  Wired (s.set b c)
  := by
  intro b'
  by_cases hb : b' = b
  · subst hb
    rw [System.set]
    simp only [Function.update_self]
    exact hc
  · rw [System.set]
    simp only [Function.update_of_ne hb]
    apply hs b'

theorem Wired.read (hs : Wired s) {n : ℕ} (hc : c.Holds (Connection.Carries n)) :
  Wired { s.set b c with read := Function.update s.read b n }
  := by
  intro b'
  by_cases hb : b' = b
  · subst hb
    rw [System.set]
    simp only [Function.update_self]
    exact hc
  · rw [System.set]
    simp only [Function.update_of_ne hb]
    apply hs b'

theorem Wired.act (hs : Wired s) (hc : c.Holds (Connection.Carries (s.read b))) :
  Wired (s.act b c)
  :=
  hs.set hc

/-- What a client does by itself. -/
theorem Wired.own (hs : Wired s) {i : System.Input Connection} (hi : Ready s (.own i)) :
  Wired (s.step Connection.net L i)
  := by
  have hstable := Connection.stable
  cases i with
  | publish b pack qos retained time =>
    rw [System.step]
    split
    · refine hs.act ((hs b).publish (hstable _) ?_ qos retained time)
      intro msgId hid qos retained
      exact ⟨hi.1, hid, hi.2⟩
    · exact hs
  | receive b beyond time => exact hi.elim
  | network b net => exact hi.elim
  | retry b now time doRetry => exact hs.set ((hs b).retry (hstable _) now time doRetry false)
  | deliver b => exact hs.set ⟨(hs b).net, (hs b).msgID, (hs b).fits⟩
  | close b => exact hs.set (hs b).closeSession
  | connect connection time =>
    rw [System.step]
    split
    · intro b
      exact (hs b).completeConnection (hstable _) (hi b).carries time
    · exact hs

/-- Whatever happens is what happens when the clients handle the packets of each other one by
one. -/
theorem Wired.step (hs : Wired s) {i : Input} (hi : Ready s i) :
  Wired (step L s i)
    ∧ ∃ inputs : List (System.Input Connection),
      Session.step L s i = inputs.foldl (System.step Connection.net L) s
  := by
  cases i with
  | own i =>
    exact ⟨hs.own hi, [i], rfl⟩
  | continueWrites b =>
    refine ⟨hs.set ⟨(hs b).net.continueWrites, (hs b).msgID, (hs b).fits⟩,
      [.network b (s.client b).net.continueWrites], rfl⟩
  | read b memory time =>
    rw [Session.step]
    simp only
    split
    · exact ⟨hs, [], rfl⟩
    · rename_i hconnected
      have hlinked := hi (not_not.mp hconnected)
      split
      · exact ⟨hs.set (hs b).closeSession, [.close b], rfl⟩
      · rename_i rc hrc hread
        have hcarries := (hs b).net.interrupted hlinked hrc hread
        exact ⟨hs.set ⟨hcarries, (hs b).msgID, (hs b).fits⟩,
          [.network b ((s.client b).net.read memory)], rfl⟩
      · rename_i a hread
        obtain ⟨hlength, p, beyond, hp, hpack⟩ := (hs b).net.next (hs !b).net hlinked hread
        have hfits : p.Fits := (hs !b).net.fits p (List.mem_of_getElem? hp)
        have hcarries := (hs b).net.read hlinked (by rw [hread]; simp)
        rw [hlength] at hcarries
        have hclient : Client.Holds (Connection.Carries (s.read b + 1))
            { s.client b with net := (s.client b).net.read memory } :=
          ⟨hcarries, (hs b).msgID, (hs b).fits⟩
        have hcycle := hclient.cycle (Connection.stable _) (L := L b) hfits time beyond
        rw [hpack]
        refine ⟨hs.read hcycle, [.network b ((s.client b).net.read memory),
          .receive b beyond time], ?_⟩
        have hne : (!b) ≠ b := Bool.not_ne_self b
        rw [List.foldl_cons, List.foldl_cons, List.foldl_nil, System.step, System.step, System.set]
        simp only [Function.update_self, Function.update_of_ne hne, hp]
        rw [if_pos (not_not.mp hconnected), System.set, System.set]
        simp only [Function.update_idem]

variable {maxInflightMessages : Bool → ℕ} {retryInterval : Bool → ℤ} {answers : Bool → List Bool}
  {connection : Bool → Connection} {inputs : List Input}

/-- Every run is a run of exchanges. -/
theorem step_inputs (hready : Run.Guarded (step L) Ready s inputs) (hs : Wired s) :
  ∃ inputs' : List (System.Input Connection),
    inputs.foldl (step L) s = inputs'.foldl (System.step Connection.net L) s
  := by
  induction inputs generalizing s with
  | nil => exact ⟨[], rfl⟩
  | cons i inputs ih =>
    obtain ⟨hwired, is, heq⟩ := hs.step (L := L) hready.1
    obtain ⟨is', heq'⟩ := ih hready.2 hwired
    refine ⟨is ++ is', ?_⟩
    rw [List.foldl_cons, heq', List.foldl_append, heq]

theorem wired_init (hnew : ∀ b, (connection b).New) :
  Wired (System.init maxInflightMessages retryInterval answers connection)
  :=
  fun b => ⟨(hnew b).carries, Nat.zero_le _, fun _ hm => absurd hm List.not_mem_nil⟩

/-- What the sockets of two clients receive and take, in pieces. -/
def wire (b : Bool) : Connection where
  socket := 3
  transport := Transport.init Transport.used
    (fun _ =>
      if b then [.bytes [0x34, 6, 0], .bytes [1, 97, 0, 1, 98], .bytes [0x62, 2, 0, 1]]
      else [.bytes [0x50, 2], .again, .bytes [0, 1, 0x70, 2, 0, 1]])
    (fun _ => if b then [.wrote 4, .wrote 4] else [.wrote 3, .wrote 9, .wrote 9, .wrote 4])

/-- Two clients on them, one of each library. -/
def wired : System Connection :=
  System.init (fun _ => 10) (fun _ => 0) (fun _ => [true]) wire

/-- A message is published, and its exchange goes on to the end. -/
def published : List Input :=
  [.own (.connect wire 0), .own (.publish false ⟨[97], [98]⟩ 2 false 1),
    .read true Transport.used 2, .continueWrites false, .continueWrites false,
    .read true Transport.used 3, .read false Transport.used 4, .read false Transport.used 5,
    .read true Transport.used 6, .read false Transport.used 7]

theorem new_wire (b : Bool) :
  (wire b).New
  := by
  refine ⟨Transport.invariant_init _ _ _, rfl, rfl, ?_⟩
  cases b with
  | false => exact (by decide : Writev.Lasting [.wrote 3, .wrote 9, .wrote 9, .wrote 4])
  | true => exact (by decide : Writev.Lasting [.wrote 4, .wrote 4])

unseal encode in
theorem published_ready :
  Run.Guarded (step System.libraries) Ready wired published
  := by
  refine ⟨new_wire, ⟨by decide, by decide⟩, ?_, trivial, trivial, ?_, ?_, ?_, ?_, ?_, trivial⟩
  all_goals
    intro _
    refine ⟨by decide, fun hfind => ?_, by decide +kernel⟩
    revert hfind
    decide +kernel

end Session

end Mqtt
