import IotDeviceSdk.Mqtt.Packet
import IotDeviceSdk.Mqtt.SocketBuffer

/-!
# Sockets

Reading from the sockets and writing to them without blocking, and reading packets, which is the
first part of `MQTTPacket_Factory`.  A call of `recv` or `writev` takes its outcome from a list
that is kept for the socket, and leaves a trace: the bytes that have been received and the bytes
that have been sent.
-/

namespace Mqtt

/-- The outcomes of `recv`; no bytes mean that the peer has shut down. -/
inductive Recv where
  | bytes (data : List UInt8)
  | again
  | failed
  deriving DecidableEq

/-- The outcomes of `writev`. -/
inductive Writev where
  | wrote (bytes : ℕ)
  | again
  | failed
  deriving DecidableEq

/-- How much has been written. -/
def Writev.bytes : Writev → ℕ
  | wrote n => n
  | _ => 0

/-- The other side of the sockets: what the next calls come to, and the bytes that have been
received and sent since a socket was opened. -/
structure Host where
  arrivals : ℤ → List Recv
  received : ℤ → List UInt8
  outcomes : ℤ → List Writev
  sent : ℤ → List UInt8

structure Sockets where
  buffer : SocketBuffer
  writePending : List ℤ
  host : Host

namespace Host

/-- `recv` for at most `n` bytes.  Bytes that are not asked for stay for the next call, and when
nothing has arrived the call would block. -/
def recv (h : Host) (socket : ℤ) (n : ℕ) : Recv × Host :=
  match h.arrivals socket with
  | [] => (.again, h)
  | .bytes chunk :: arrivals =>
    let rest := if chunk.length ≤ n then arrivals else .bytes (chunk.drop n) :: arrivals
    (.bytes (chunk.take n),
      { h with
        arrivals := Function.update h.arrivals socket rest
        received := Function.update h.received socket (h.received socket ++ chunk.take n) })
  | outcome :: arrivals =>
    (outcome, { h with arrivals := Function.update h.arrivals socket arrivals })

/-- `writev`.  After an error the next call may succeed again, and when nothing more is known of the
socket the call would block. -/
def writev (h : Host) (socket : ℤ) (iovecs : List (List UInt8)) : Writev × Host :=
  match h.outcomes socket with
  | [] => (.again, h)
  | .wrote n :: outcomes =>
    let bytes := iovecs.flatten.take n
    (.wrote bytes.length,
      { h with
        outcomes := Function.update h.outcomes socket outcomes
        sent := Function.update h.sent socket (h.sent socket ++ bytes) })
  | .again :: outcomes =>
    (.again, { h with outcomes := Function.update h.outcomes socket outcomes })
  | .failed :: outcomes =>
    (.failed, { h with outcomes := Function.update h.outcomes socket outcomes })

/-- A socket is closed, and the traces of the next connection with its number begin. -/
def close (h : Host) (socket : ℤ) : Host :=
  { h with
    received := Function.update h.received socket []
    sent := Function.update h.sent socket [] }

end Host

namespace Sockets

open Keyed SocketBuffer

def noPendingWrites (s : Sockets) (socket : ℤ) : Bool :=
  socket ∉ s.writePending

/-- What `Socket_close` leaves of a socket. -/
def close (s : Sockets) (socket : ℤ) : Sockets where
  buffer := s.buffer.cleanup socket
  writePending := s.writePending.erase socket
  host := s.host.close socket

/-! ### Reading -/

def getch (s : Sockets) (memory : SocketQueue) (socket : ℤ) :
    Except Completion UInt8 × Sockets :=
  match s.buffer.getQueuedChar socket with
  | (.error .interrupted, buffer) =>
    match s.host.recv socket 1 with
    | (.again, host) =>
      (.error .interrupted, { s with buffer := buffer.interrupted memory socket 0, host })
    | (.bytes (c :: _), host) => (.ok c, { s with buffer := buffer.queueChar socket c, host })
    | (_, host) => (.error .error, { s with buffer, host })
  | (rc, buffer) => (rc, { s with buffer })

/-- The queue whose buffer a socket reads into. -/
def inputQueue (b : SocketBuffer) (socket : ℤ) : SocketQueue :=
  (find SocketQueue.socket socket b.queues).getD b.defQueue

/-- Change that queue. -/
def modifyInput (b : SocketBuffer) (socket : ℤ) (f : SocketQueue → SocketQueue) : SocketBuffer :=
  match find SocketQueue.socket socket b.queues with
  | some _ => b.modifyQueue socket f
  | none => { b with defQueue := f b.defQueue }

/-- `Socket_getdata`: the buffer, unless there is an error, and how much of it has been read.  What
is done after the call of `recv` is `finish`. -/
def getdata (s : Sockets) (memory : SocketQueue) (socket : ℤ) (bytes : ℕ) :
    Option (List UInt8 × ℕ) × Sockets :=
  if bytes = 0 then
    let buffer := s.buffer.complete socket
    (some (buffer.defQueue.buf, 0), { s with buffer })
  else
    let (actualLen, buffer) := s.buffer.getQueuedData socket bytes
    let finish (actualLen : ℕ) (s : Sockets) : Option (List UInt8 × ℕ) × Sockets :=
      let buf := (inputQueue s.buffer socket).buf
      if actualLen = bytes then
        (some (buf, actualLen), { s with buffer := s.buffer.complete socket })
      else
        (some (buf, actualLen), { s with buffer := s.buffer.interrupted memory socket actualLen })
    match s.host.recv socket (bytes - actualLen) with
    | (.again, host) => finish actualLen { s with buffer, host }
    | (.bytes (c :: data), host) =>
      let buffer := modifyInput buffer socket fun q => q.write actualLen (c :: data)
      finish (actualLen + (c :: data).length) { s with buffer, host }
    | (_, host) => (none, { s with buffer, host })

/-- The loop of `MQTTPacket_decode`, which reads at most `k` more length bytes. -/
def decode (memory : SocketQueue) (socket : ℤ) :
    ℕ → ℕ → ℕ → Sockets → Except Completion ℕ × Sockets
  | 0, _, _, s => (.error .error, s)
  | k + 1, multiplier, value, s =>
    match s.getch memory socket with
    | (.error rc, s) => (.error rc, s)
    | (.ok c, s) =>
      let value := value + (c &&& 127).toNat * multiplier
      if c &&& 128 ≠ 0 then decode memory socket k (multiplier * 128) value s else (.ok value, s)

/-- A packet that has been read: its header byte, its length, and the memory it is in. -/
structure Arrived where
  header : UInt8
  data : List UInt8
  length : ℕ

/-- The first part of `MQTTPacket_Factory`, after the header byte. -/
def readRest (memory : SocketQueue) (socket : ℤ) (header : UInt8) (s : Sockets) :
    Except Completion Arrived × Sockets :=
  match decode memory socket 4 1 0 s with
  | (.error rc, s) => (.error rc, s)
  | (.ok remainingLength, s) =>
    match s.getdata memory socket remainingLength with
    | (none, s) => (.error .error, s)
    | (some (data, actualLen), s) =>
      if actualLen ≠ remainingLength then
        (.error .interrupted, s)
      else
        (.ok ⟨header, data, remainingLength⟩, s)

/-- The first part of `MQTTPacket_Factory`. -/
def readPacket (s : Sockets) (memory : SocketQueue) (socket : ℤ) :
    Except Completion Arrived × Sockets :=
  match s.getch memory socket with
  | (.error rc, s) => (.error rc, s)
  | (.ok header, s) => readRest memory socket header s

/-- What the second part of `MQTTPacket_Factory` makes of the packet: the packet, if it is one,
and the error that is reported. -/
def Arrived.pack (a : Arrived) : Option Pack × Completion :=
  match newPackets a.header a.data a.length with
  | none => (none, .complete)
  | some none => (none, .badPacket)
  | some (some pack) => (some pack, .complete)

/-! ### Writing -/

/-- `Socket_putdatas`; the first of the buffers is the header with its length bytes. -/
def putdatas (s : Sockets) (socket : ℤ) (iovecs : List (List UInt8)) : Completion × Sockets :=
  if ¬ s.noPendingWrites socket then
    (.error, s)
  else
    let total := (iovecs.map List.length).sum
    match s.host.writev socket iovecs with
    | (.failed, host) => (.error, { s with host })
    | (outcome, host) =>
      if outcome.bytes = total then
        (.complete, { s with host })
      else
        (.interrupted,
          { buffer := s.buffer.pendingWrite socket iovecs total outcome.bytes
            writePending := s.writePending ++ [socket]
            host })

/-- The buffers that are left of a pending write when `curbuflen` bytes lie before `iovecs`.  After
one of which only some is left, the next ones are for another time. -/
def remaining (bytes : ℕ) : ℕ → List (List UInt8) → List (List UInt8)
  | _, [] => []
  | curbuflen, iov :: iovecs =>
    if bytes ≤ curbuflen then
      iov :: remaining bytes (curbuflen + iov.length) iovecs
    else if bytes < curbuflen + iov.length then
      [iov.drop (bytes - curbuflen)]
    else
      remaining bytes (curbuflen + iov.length) iovecs

/-- What `Socket_continueWrite` comes to: the write is not complete, complete, or has failed. -/
inductive Continued where
  | incomplete
  | complete
  | error
  deriving DecidableEq

/-- `Socket_continueWrite`. -/
def continueWrite (s : Sockets) (socket : ℤ) (pw : PendingWrite) : Continued × Sockets :=
  match s.host.writev socket (remaining pw.bytes 0 pw.iovecs) with
  | (.failed, host) => (.error, { s with host })
  | (outcome, host) =>
    let bytes := pw.bytes + outcome.bytes
    let buffer := { s.buffer with
      writes := modify PendingWrite.socket socket (fun pw => { pw with bytes }) s.buffer.writes }
    (if bytes = pw.total then .complete else .incomplete, { s with buffer, host })

/-- What `Socket_continueWrites` does for one of the sockets of `write_pending`. -/
def continueWrites (s : Sockets) (socket : ℤ) : Sockets :=
  match s.buffer.getWrite socket with
  | none => s
  | some pw =>
    match s.continueWrite socket pw with
    | (.incomplete, s) => s
    | (_, s) =>
      { s with
        buffer := s.buffer.writeComplete socket
        writePending := s.writePending.erase socket }

end Sockets

end Mqtt
