import IotDeviceSdk.Foundation.Keyed
import Mathlib.Data.Int.Basic

/-!
# Socket buffers

What the client library keeps for the sockets between two calls: of a packet that has been read
in part, the bytes that have come, and of a packet that has been written in part, the buffers.

The bytes of a new packet first go to the default queue.  If the packet is not completed in the
same call, the default queue becomes the queue of the socket, and a new default queue is
allocated.  The memory of an allocation holds what it held before, so `newDefQ` and
`interrupted` are given what that is.
-/

namespace Mqtt

/-- `socket_queue`: the header and the length bytes of a packet, and its data, which is the first
`datalen` bytes of `buf`. -/
structure SocketQueue where
  socket : ℤ
  index : ℕ
  headerlen : ℕ
  fixedHeader : Vector UInt8 5
  buflen : ℕ
  datalen : ℕ
  buf : List UInt8

/-- `pending_writes`: the buffers of a packet, their length, and how much of it is written. -/
structure PendingWrite where
  socket : ℤ
  total : ℕ
  bytes : ℕ
  iovecs : List (List UInt8)

structure SocketBuffer where
  defQueue : SocketQueue
  queues : List SocketQueue
  writes : List PendingWrite

namespace SocketQueue

/-- Add a byte to the header. -/
def push (q : SocketQueue) (c : UInt8) : SocketQueue :=
  { q with
    fixedHeader := q.fixedHeader.setIfInBounds q.index c
    index := q.index + 1
    headerlen := q.index + 1 }

/-- Make room for some bytes. -/
def grow (q : SocketQueue) (bytes : ℕ) : SocketQueue :=
  if q.buflen < bytes then
    { q with buf := if 0 < q.datalen then q.buf.take q.datalen else q.buf, buflen := bytes }
  else
    q

/-- Write into the data at some place. -/
def write (q : SocketQueue) (place : ℕ) (data : List UInt8) : SocketQueue :=
  { q with buf := q.buf.take place ++ data ++ q.buf.drop (place + data.length) }

/-- Start again with the bytes of the header, of which some are there, and so is some data. -/
def rewind (q : SocketQueue) (actualLen : ℕ) : SocketQueue :=
  { q with index := 0, datalen := actualLen }

/-- A queue that is not in use. -/
def clear (q : SocketQueue) : SocketQueue :=
  { q with socket := 0, index := 0, headerlen := 0, datalen := 0 }

end SocketQueue

namespace SocketBuffer

open Keyed

/-- A new default queue, in memory that held `memory`. -/
def newDefQ (memory : SocketQueue) : SocketQueue :=
  { memory with socket := 0, index := 0, buflen := 0, datalen := 0, buf := [] }

def init (memory : SocketQueue) : SocketBuffer where
  defQueue := newDefQ memory
  queues := []
  writes := []

/-- The queue of a socket, changed. -/
def modifyQueue (b : SocketBuffer) (socket : ℤ) (f : SocketQueue → SocketQueue) : SocketBuffer :=
  { b with queues := modify SocketQueue.socket socket f b.queues }

def getWrite (b : SocketBuffer) (socket : ℤ) : Option PendingWrite :=
  find PendingWrite.socket socket b.writes

def writeComplete (b : SocketBuffer) (socket : ℤ) : SocketBuffer :=
  { b with writes := remove PendingWrite.socket socket b.writes }

def pendingWrite (b : SocketBuffer) (socket : ℤ) (iovecs : List (List UInt8))
    (total bytes : ℕ) : SocketBuffer :=
  { b with writes := b.writes ++ [⟨socket, total, bytes, iovecs⟩] }

def cleanup (b : SocketBuffer) (socket : ℤ) : SocketBuffer :=
  let b := b.writeComplete socket
  let b := { b with queues := remove SocketQueue.socket socket b.queues }
  if b.defQueue.socket = socket then { b with defQueue := b.defQueue.clear } else b

/-- The place in the data from which on it is missing. -/
def getQueuedData (b : SocketBuffer) (socket : ℤ) (bytes : ℕ) : ℕ × SocketBuffer :=
  match find SocketQueue.socket socket b.queues with
  | some queue => (queue.datalen, b.modifyQueue socket fun q => q.grow bytes)
  | none => (0, { b with defQueue := b.defQueue.grow bytes })

/-- The results of reading. -/
inductive Completion where
  | complete
  | interrupted
  | error
  | badPacket
  deriving DecidableEq

/-- The next byte of the header that is known; an error if the header is at its full length. -/
def getQueuedChar (b : SocketBuffer) (socket : ℤ) : Except Completion UInt8 × SocketBuffer :=
  match find SocketQueue.socket socket b.queues with
  | none => (.error .interrupted, b)
  | some queue =>
    if queue.index < queue.headerlen then
      (.ok (queue.fixedHeader[queue.index]?.getD 0),
        b.modifyQueue socket fun q => { q with index := q.index + 1 })
    else if 4 < queue.index then
      (.error .error, b)
    else
      (.error .interrupted, b)

def interrupted (b : SocketBuffer) (memory : SocketQueue) (socket : ℤ) (actualLen : ℕ) :
    SocketBuffer :=
  match find SocketQueue.socket socket b.queues with
  | some _ => b.modifyQueue socket fun q => q.rewind actualLen
  | none =>
    { b with
      queues := b.queues ++ [{ b.defQueue with socket }.rewind actualLen]
      defQueue := newDefQ memory }

/-- The packet of a socket is complete; its data stays in the default queue. -/
def complete (b : SocketBuffer) (socket : ℤ) : SocketBuffer :=
  match find SocketQueue.socket socket b.queues with
  | some queue =>
    { b with defQueue := queue.clear, queues := remove SocketQueue.socket socket b.queues }
  | none => { b with defQueue := b.defQueue.clear }

/-- A byte comes in.  It is not kept if the header is full, or if the default queue is in use for
another socket. -/
def queueChar (b : SocketBuffer) (socket : ℤ) (c : UInt8) : SocketBuffer :=
  match find SocketQueue.socket socket b.queues with
  | some curq => if 4 < curq.index then b else b.modifyQueue socket fun q => q.push c
  | none =>
    if b.defQueue.socket = 0 then
      { b with defQueue := ({ b.defQueue with socket, index := 0, datalen := 0 }).push c }
    else if b.defQueue.socket ≠ socket ∨ 4 < b.defQueue.index then
      b
    else
      { b with defQueue := b.defQueue.push c }

end SocketBuffer

end Mqtt
