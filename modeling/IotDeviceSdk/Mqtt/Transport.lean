import IotDeviceSdk.Foundation.Run
import IotDeviceSdk.Mqtt.Socket.Inbound
import IotDeviceSdk.Mqtt.Socket.Outbound

/-!
# Transport

The client library reads packets from its sockets and writes packets to them, in any order, goes
on with the writes that are pending, and closes a socket when a read has failed or at any other
time.  In every run the packets that have arrived on a socket are the frames of the bytes that
were received on it, and the rest of these bytes is kept (`Transport.run_split`); and the bytes
that were sent on a socket are the packets that were accepted for it, up to the rest of the last
one and up to what was given up when going on with a write failed (`Transport.run_sent`).
-/

namespace Mqtt

open Keyed

/-- Sockets, the packets that have arrived on each of them since it was opened, and those that
have been accepted for it. -/
structure Transport where
  sockets : Sockets
  arrived : ℤ → List Sockets.Arrived
  accepted : ℤ → List Accepted

namespace Transport

/-- What happens on the sockets.  A new default queue is made in memory that holds `memory`. -/
inductive Input where
  | read (socket : ℤ) (memory : SocketQueue)
  | put (socket : ℤ) (iovecs : List (List UInt8))
  | continueWrites (socket : ℤ)
  | close (socket : ℤ)

def close (r : Transport) (socket : ℤ) : Transport where
  sockets := r.sockets.close socket
  arrived := Function.update r.arrived socket []
  accepted := Function.update r.accepted socket []

def step (r : Transport) : Input → Transport
  | .read socket memory =>
    match r.sockets.readPacket memory socket with
    | (.ok a, s) =>
      { r with
        sockets := s, arrived := Function.update r.arrived socket (r.arrived socket ++ [a]) }
    | (.error .error, s) => close { r with sockets := s } socket
    | (.error _, s) => { r with sockets := s }
  | .put socket iovecs =>
    match r.sockets.putdatas socket iovecs with
    | (.error, s) => { r with sockets := s }
    | (_, s) =>
      { r with
        sockets := s
        accepted := Function.update r.accepted socket
          (r.accepted socket ++ [⟨iovecs.flatten, false⟩]) }
  | .continueWrites socket =>
    { r with
      sockets := r.sockets.continueWrites socket
      accepted := r.sockets.acceptedAfter r.accepted socket }
  | .close socket => r.close socket

/-- What is accepted of a packet that is written. -/
theorem step_put (r : Transport) (socket : ℤ) (iovecs : List (List UInt8)) :
  r.step (.put socket iovecs)
    = { r with
        sockets := (r.sockets.putdatas socket iovecs).2
        accepted := Function.update r.accepted socket
          (r.accepted socket ++ r.sockets.acceptedOf socket iovecs) }
  := by
  rw [step, Sockets.acceptedOf]
  generalize r.sockets.putdatas socket iovecs = result
  obtain ⟨rc, s⟩ := result
  cases rc with
  | error => rw [if_pos rfl, List.append_nil, Function.update_eq_self]
  | complete => rfl
  | interrupted => rfl
  | badPacket => rfl

/-- The sockets when the library has been started. -/
def init (memory : SocketQueue) (arrivals : ℤ → List Recv) (outcomes : ℤ → List Writev) :
    Transport where
  sockets :=
    { buffer := SocketBuffer.init memory
      writePending := []
      host := ⟨arrivals, fun _ => [], outcomes, fun _ => []⟩ }
  arrived := fun _ => []
  accepted := fun _ => []

/-- Only sockets that are ready are read.  The number `0` stands for no socket. -/
def Ready (r : Transport) : Input → Prop
  | .read socket _ => socket ≠ 0 ∧ r.sockets.Readable socket
  | _ => True

/-- The packets that have arrived are the frames of the bytes received, and what is kept is the
rest. -/
structure Receiving (r : Transport) : Prop where
  resting : r.sockets.Resting
  split : ∀ t, packetFormat.split (r.sockets.host.received t)
    = ((r.arrived t).map Sockets.Arrived.frame, r.sockets.pending t)
  length : ∀ t, ∀ a ∈ r.arrived t, a.length ≤ a.data.length

/-! ### Receiving -/

/-- A closed socket leaves nothing behind, whatever has become of its last packet. -/
theorem resting_close {s : Sockets} {socket : ℤ} (hfailed : s.Failed socket)
    (hqueue : ∀ t q, t ≠ socket → find SocketQueue.socket t s.buffer.queues = some q →
      q.index = 0 ∧ Sockets.Begun q.header q.data ∧ q.Fits) :
  (s.close socket).Resting ∧ find SocketQueue.socket socket (s.close socket).buffer.queues = none
    ∧ ∀ t, t ≠ socket → find SocketQueue.socket t (s.close socket).buffer.queues
      = find SocketQueue.socket t s.buffer.queues
  := by
  have hqueues : (s.close socket).buffer.queues
      = remove SocketQueue.socket socket s.buffer.queues := by
    rw [Sockets.close, SocketBuffer.cleanup]
    simp only
    split <;> rfl
  have hnone : find SocketQueue.socket socket (s.close socket).buffer.queues = none := by
    rw [hqueues]
    apply find_remove_self hfailed.distinct
  have helse : ∀ t, t ≠ socket → find SocketQueue.socket t (s.close socket).buffer.queues
      = find SocketQueue.socket t s.buffer.queues := by
    intro t ht
    rw [hqueues]
    apply find_remove_of_ne ht
  refine ⟨⟨?_, ?_, ?_, ?_⟩, hnone, helse⟩
  · rw [hqueues]
    apply hfailed.distinct.remove
  · rw [Sockets.close, SocketBuffer.cleanup]
    simp only
    split
    · apply hfailed.room
    · apply hfailed.room
  · rw [Sockets.close, SocketBuffer.cleanup]
    simp only
    split
    · exact ⟨rfl, rfl⟩
    · rename_i hne
      rcases hfailed.free with hfree | hsocket
      · apply hfree
      · exact absurd hsocket hne
  · intro t q hfind
    by_cases ht : t = socket
    · subst ht
      rw [hnone] at hfind
      contradiction
    · rw [helse t ht] at hfind
      apply hqueue t q ht hfind

/-- A socket is closed in a state that differs only there. -/
theorem Receiving.close {r : Transport} (hr : r.Receiving) {socket : ℤ} {s : Sockets}
    (hfailed : s.Failed socket) (helse : Sockets.Elsewhere socket r.sockets s) :
  (Transport.close { r with sockets := s } socket).Receiving
  := by
  obtain ⟨hresting, hnone, hqueue⟩ := resting_close hfailed (fun t q ht hfind => by
    rw [helse.queue t ht] at hfind
    apply hr.resting.queue t q hfind)
  refine ⟨hresting, ?_, ?_⟩
  · intro t
    by_cases ht : t = socket
    · subst ht
      have hpending : (s.close t).pending t = [] := by
        rw [Sockets.pending, hnone]
      rw [Transport.close]
      simp only [Function.update_self, hpending]
      rw [Sockets.close, Host.close]
      simp only [Function.update_self]
      apply Framing.Format.split_more
      rfl
    · have hpending : (s.close socket).pending t = r.sockets.pending t := by
        rw [Sockets.pending, Sockets.pending, hqueue t ht, helse.queue t ht]
      rw [Transport.close]
      simp only [Function.update_of_ne ht, hpending]
      rw [Sockets.close, Host.close]
      simp only [Function.update_of_ne ht]
      rw [helse.received t ht]
      apply hr.split t
  · intro t a ha
    by_cases ht : t = socket
    · subst ht
      rw [Transport.close] at ha
      simp only [Function.update_self] at ha
      contradiction
    · rw [Transport.close] at ha
      simp only [Function.update_of_ne ht] at ha
      apply hr.length t a ha

/-- Writing does not matter to what is read. -/
theorem Receiving.of_unread {r r' : Transport} (hr : r.Receiving)
    (hunread : Sockets.Unread r.sockets r'.sockets) (harrived : r'.arrived = r.arrived) :
  r'.Receiving
  := by
  constructor
  · constructor
    · rw [hunread.queues]
      apply hr.resting.distinct
    · rw [hunread.defQueue]
      apply hr.resting.room
    · rw [hunread.defQueue]
      apply hr.resting.free
    · rw [hunread.queues]
      apply hr.resting.queue
  · intro t
    rw [hunread.received, harrived, Sockets.pending, hunread.queues]
    apply hr.split t
  · rw [harrived]
    apply hr.length

theorem Receiving.read {r : Transport} (hr : r.Receiving) {socket : ℤ} (memory : SocketQueue)
    (hsocket : socket ≠ 0) (hreadable : r.sockets.Readable socket) :
  (r.step (.read socket memory)).Receiving
  := by
  have hcalled := hr.resting.readPacket memory hsocket hreadable
  rw [Transport.step]
  generalize r.sockets.readPacket memory socket = result at hcalled
  obtain ⟨result, s⟩ := result
  cases result with
  | ok a =>
    obtain ⟨t, hle, hnext, hpending, hresting, hreceived⟩ := hcalled
    refine ⟨hresting, ?_, ?_⟩
    · intro u
      by_cases hu : u = socket
      · subst hu
        simp only [Function.update_self]
        rw [hreceived.received, Framing.Format.split_append, hr.split u,
          Framing.Format.split_single hnext rfl, hpending, List.map_append]
        rfl
      · simp only [Function.update_of_ne hu]
        rw [hreceived.elsewhere.received u hu, hreceived.elsewhere.pending hu]
        apply hr.split u
    · intro u a' ha'
      by_cases hu : u = socket
      · subst hu
        simp only [Function.update_self] at ha'
        rcases List.mem_append.mp ha' with ha' | ha'
        · apply hr.length u a' ha'
        · obtain rfl := List.mem_singleton.mp ha'
          apply hle
      · simp only [Function.update_of_ne hu] at ha'
        apply hr.length u a' ha'
  | error rc =>
    cases rc with
    | interrupted =>
      obtain ⟨t, hpending, hresting, hreceived⟩ := hcalled
      refine ⟨hresting, ?_, hr.length⟩
      intro u
      by_cases hu : u = socket
      · subst hu
        have hmore := hresting.next_pending u
        simp only
        rw [hreceived.received, Framing.Format.split_append, hr.split u, ← hpending,
          Framing.Format.split_more hmore, List.append_nil]
      · simp only
        rw [hreceived.elsewhere.received u hu, hreceived.elsewhere.pending hu]
        apply hr.split u
    | error =>
      obtain ⟨hfailed, t, hreceived⟩ := hcalled
      exact hr.close hfailed hreceived.elsewhere
    | complete => exact hcalled.elim
    | badPacket => exact hcalled.elim

/-! ### Runs -/

/-- What is known of the sockets at any time. -/
structure Invariant (r : Transport) : Prop where
  receiving : r.Receiving
  writing : r.sockets.Writing r.accepted

theorem Invariant.step {r : Transport} (hr : r.Invariant) (i : Input) (hi : r.Ready i) :
  (r.step i).Invariant
  := by
  cases i with
  | read socket memory =>
    refine ⟨hr.receiving.read memory hi.1 hi.2, ?_⟩
    have helse := (hr.receiving.resting.readPacket memory hi.1 hi.2).elsewhere
    have hwriting := hr.writing.of_elsewhere helse
    rw [Transport.step]
    generalize r.sockets.readPacket memory socket = result at hwriting
    obtain ⟨result, s⟩ := result
    cases result with
    | ok a => exact hwriting
    | error rc =>
      cases rc with
      | error => exact hwriting.close socket
      | interrupted => exact hwriting
      | complete => exact hwriting
      | badPacket => exact hwriting
  | put socket iovecs =>
    obtain ⟨hunread, hwriting⟩ := hr.writing.putdatas socket iovecs
    rw [step_put]
    exact ⟨hr.receiving.of_unread hunread rfl, hwriting⟩
  | continueWrites socket =>
    obtain ⟨hunread, hwriting⟩ := hr.writing.continueWrites socket
    refine ⟨hr.receiving.of_unread hunread rfl, hwriting⟩
  | close socket =>
    have hfailed : r.sockets.Failed socket :=
      ⟨hr.receiving.resting.distinct, hr.receiving.resting.room, .inl hr.receiving.resting.free⟩
    refine ⟨?_, hr.writing.close socket⟩
    exact hr.receiving.close hfailed (Sockets.Elsewhere.of_buffer (fun t ht => rfl) rfl)

theorem invariant_init (memory : SocketQueue) (arrivals : ℤ → List Recv)
    (outcomes : ℤ → List Writev) :
  (init memory arrivals outcomes).Invariant
  := by
  refine ⟨⟨⟨List.nodup_nil, Nat.zero_le _, ⟨rfl, rfl⟩, ?_⟩, ?_, ?_⟩,
    ⟨List.nodup_nil, List.nodup_nil, ?_, ?_⟩⟩
  · intro t q hfind
    contradiction
  · intro t
    apply Framing.Format.split_more
    rfl
  · intro t a ha
    contradiction
  · intro t
    exact iff_of_false List.not_mem_nil Bool.false_ne_true
  · intro t
    exact Sockets.Sent.all rfl [] .nil rfl

variable {memory : SocketQueue} {arrivals : ℤ → List Recv} {outcomes : ℤ → List Writev}
  {inputs : List Input}

theorem invariant_run (hready : Run.Guarded step Ready (init memory arrivals outcomes) inputs) :
  (inputs.foldl step (init memory arrivals outcomes)).Invariant
  :=
  hready.invariant (fun _ i hr hi => hr.step i hi) (invariant_init memory arrivals outcomes)

/-- What two sockets receive: on one of them a publication in two pieces, with a pause between
them, and on the other one a packet in one piece. -/
def pieces : ℤ → List Recv
  | 5 => [.bytes [0x30, 5, 0], .again, .bytes [1, 97, 98, 99, 0xd0]]
  | 7 => [.bytes [0xd0, 0]]
  | _ => []

/-- A socket takes one byte, then none, and then as much as it is offered. -/
def takes : ℤ → List Writev
  | 5 => [.wrote 1, .again, .wrote 2, .wrote 9]
  | _ => []

/-- Memory that holds two bytes. -/
def used : SocketQueue :=
  ⟨9, 0, 2, ⟨#[0xd0, 0, 0, 0, 0], rfl⟩, 9, 9, [9]⟩

/-- The other packet is read in between, and an acknowledgement is written. -/
def reads : List Input :=
  [.read 5 used, .put 5 [[0x40, 2], [0], [7]], .read 7 used, .read 5 used, .continueWrites 5,
    .continueWrites 5, .read 5 used]

theorem reads_ready :
  Run.Guarded step Ready (init used pieces takes) reads
  := by
  refine ⟨⟨by decide, ?_⟩, trivial, ⟨by decide, ?_⟩, ⟨by decide, ?_⟩, trivial, trivial,
    ⟨by decide, ?_⟩, trivial⟩
  · intro hfind
    decide
  · intro hfind
    decide
  · intro hfind
    revert hfind
    decide
  · intro hfind
    decide

/-- A socket that is not ready gets a packet that nobody has sent: the new default queue takes the
length of its header from the memory. -/
example :
    let r := [Input.read 5 used, .read 5 used].foldl step (init used (fun _ => []) takes)
    (r.arrived 5).map Sockets.Arrived.frame = [⟨0xd0, []⟩]
      ∧ r.sockets.host.received 5 = [] := by
  decide

/-- The bytes that were sent on a socket are the packets that were accepted for it, one after
another: all of each packet, but a beginning of the last one if it is pending, and of each one whose
rest was given up. -/
theorem run_sent (hready : Run.Guarded step Ready (init memory arrivals outcomes) inputs)
    (socket : ℤ) :
  let r := inputs.foldl step (init memory arrivals outcomes)
  r.sockets.Sent socket (r.accepted socket)
  :=
  (invariant_run hready).writing.sent socket

theorem run_sent_pieces :
  let r := reads.foldl step (init used pieces takes)
  r.sockets.Sent 5 (r.accepted 5) ∧ r.sockets.host.sent 5 = [0x40, 2]
    ∧ r.accepted 5 = [⟨[0x40, 2, 0, 7], false⟩]
  :=
  ⟨run_sent reads_ready 5, by decide, by decide⟩

/-- After a passing error, the next packet stands in the place of the rest of the one before. -/
example :
    let r := [Input.put 5 [[0x40, 2], [0], [7]], .continueWrites 5, .put 5 [[0xe0, 0]]].foldl step
      (init used pieces fun _ => [.wrote 3, .failed, .wrote 2])
    r.accepted 5 = [⟨[0x40, 2, 0, 7], true⟩, ⟨[0xe0, 0], false⟩]
      ∧ r.sockets.host.sent 5 = [0x40, 2, 0, 0xe0, 0] := by
  decide

end Transport

end Mqtt
