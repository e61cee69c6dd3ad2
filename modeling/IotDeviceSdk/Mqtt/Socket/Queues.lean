import IotDeviceSdk.Mqtt.Socket

/-!
# Queues of incoming packets

What the operations of the socket buffers do to the packet that comes in on a socket.  While the
packet is being read it is either in the queue of the socket or in the default queue
(`SocketBuffer.Holds`).  `Reading s socket h H D` says that `H` and `D` are known of its header
and its data, and that `h` has been read of the header in this call; `Kept s socket H D` says
that `H` and `D` are kept for the next call.
-/

namespace Mqtt

open Keyed

/-! ### One queue -/

namespace SocketQueue

variable {q : SocketQueue}

/-- The header and the length bytes in the queue. -/
def header (q : SocketQueue) : List UInt8 :=
  q.fixedHeader.toList.take q.headerlen

/-- The data in the queue. -/
def data (q : SocketQueue) : List UInt8 :=
  q.buf.take q.datalen

/-- The queue is ready for a new packet. -/
structure Free (q : SocketQueue) : Prop where
  socket : q.socket = 0
  index : q.index = 0

/-- What is in the queue is within its memory. -/
structure Fits (q : SocketQueue) : Prop where
  headerlen : q.headerlen ≤ 5
  datalen : q.datalen ≤ q.buf.length
  buflen : q.buf.length ≤ q.buflen

theorem Fits.length_header (h : q.Fits) :
  q.header.length = q.headerlen
  := by
  rw [header, List.length_take, Vector.length_toList]
  apply Nat.min_eq_left h.headerlen

theorem Fits.length_data (h : q.Fits) :
  q.data.length = q.datalen
  := by
  rw [data, List.length_take]
  apply Nat.min_eq_left h.datalen

theorem header_push {c : UInt8} (hindex : q.index = q.headerlen) (hlt : q.headerlen < 5) :
  (q.push c).header = q.header ++ [c]
  := by
  have hlen : q.fixedHeader.toList.length = 5 := Vector.length_toList
  have htake : (q.fixedHeader.toList.take q.headerlen).length = q.headerlen := by
    rw [List.length_take, hlen]
    omega
  rw [header, header, push, hindex]
  simp only
  rw [Vector.toList_setIfInBounds, List.set_eq_take_append_cons_drop, hlen, if_pos hlt,
    List.take_append, htake, Nat.add_sub_cancel_left, List.take_take, Nat.min_eq_right (by omega)]
  rfl

theorem Fits.push {c : UInt8} (h : q.Fits) (hindex : q.index = q.headerlen)
    (hlt : q.headerlen < 5) :
  (q.push c).Fits
  := by
  constructor
  · rw [SocketQueue.push]
    simp only
    omega
  · apply h.datalen
  · apply h.buflen

theorem grow_fits (bytes : ℕ) (h : q.Fits) :
  (q.grow bytes).Fits ∧ (q.grow bytes).header = q.header ∧ (q.grow bytes).data = q.data
    ∧ (q.grow bytes).index = q.index ∧ (q.grow bytes).datalen = q.datalen
    ∧ bytes ≤ (q.grow bytes).buflen
  := by
  rw [grow]
  split
  · rename_i hlt
    have hbuf := h.buflen
    have hdata := h.datalen
    split
    · refine ⟨⟨h.headerlen, ?_, ?_⟩, rfl, ?_, rfl, rfl, le_rfl⟩
      · simp only [List.length_take]
        omega
      · simp only [List.length_take]
        omega
      · simp only [data, List.take_take, Nat.min_self]
    · refine ⟨⟨h.headerlen, h.datalen, ?_⟩, rfl, rfl, rfl, rfl, le_rfl⟩
      simp only
      omega
  · rename_i hge
    refine ⟨h, rfl, rfl, rfl, rfl, Nat.not_lt.mp hge⟩

/-- Writing behind the data does not leave the memory. -/
theorem Fits.write {d : List UInt8} (h : q.Fits) (hlen : q.datalen + d.length ≤ q.buflen) :
  (q.write q.datalen d).Fits ∧ (q.write q.datalen d).data = q.data
    ∧ q.datalen + d.length ≤ (q.write q.datalen d).buf.length
    ∧ (q.write q.datalen d).buf.take (q.datalen + d.length) = q.data ++ d
  := by
  have hbuf := h.buflen
  have hdata := h.datalen
  have htake : (q.buf.take q.datalen).length = q.datalen := by
    rw [List.length_take, Nat.min_eq_left hdata]
  refine ⟨⟨h.headerlen, ?_, ?_⟩, ?_, ?_, ?_⟩
  · simp only [SocketQueue.write, List.length_append, List.length_take, List.length_drop]
    omega
  · simp only [SocketQueue.write, List.length_append, List.length_take, List.length_drop]
    omega
  · simp only [data, SocketQueue.write]
    rw [List.append_assoc, List.take_append_of_le_length (by rw [htake]), List.take_take,
      Nat.min_self]
  · simp only [SocketQueue.write, List.length_append, List.length_take, List.length_drop]
    omega
  · simp only [data, SocketQueue.write]
    rw [List.take_append_of_le_length (by rw [List.length_append, htake]), List.take_of_length_le
      (by rw [List.length_append, htake])]

end SocketQueue

/-! ### The queue in use -/

/-- `q` is the queue of the packet that is being read on a socket. -/
inductive SocketBuffer.Holds (b : SocketBuffer) (socket : ℤ) (q : SocketQueue) : Prop where
  | queued (hfind : find SocketQueue.socket socket b.queues = some q)
      (hfree : b.defQueue.Free)
  | default (hfind : find SocketQueue.socket socket b.queues = none) (hdef : b.defQueue = q)
      (hsocket : q.socket = socket) (hindex : q.index = q.headerlen) (hdatalen : q.datalen = 0)

namespace Sockets

/-- Between two states nothing has happened but that something was read on a socket. -/
structure Elsewhere (socket : ℤ) (s s' : Sockets) : Prop where
  queue : ∀ t, t ≠ socket →
    find SocketQueue.socket t s'.buffer.queues = find SocketQueue.socket t s.buffer.queues
  received : ∀ t, t ≠ socket → s'.host.received t = s.host.received t
  writes : s'.buffer.writes = s.buffer.writes
  writePending : s'.writePending = s.writePending
  outcomes : s'.host.outcomes = s.host.outcomes
  sent : s'.host.sent = s.host.sent

/-- A change of the buffers that leaves the queues of other sockets alone. -/
theorem Elsewhere.of_buffer {socket : ℤ} {s : Sockets} {b : SocketBuffer}
    (hqueue : ∀ t, t ≠ socket →
      find SocketQueue.socket t b.queues = find SocketQueue.socket t s.buffer.queues)
    (hwrites : b.writes = s.buffer.writes) :
  Elsewhere socket s { s with buffer := b }
  := by
  constructor
  · apply hqueue
  · intro t ht
    rfl
  · apply hwrites
  · rfl
  · rfl
  · rfl

theorem Elsewhere.trans {socket : ℤ} {s s' s'' : Sockets} (h : Elsewhere socket s s')
    (h' : Elsewhere socket s' s'') :
  Elsewhere socket s s''
  := by
  constructor
  · intro t ht
    rw [h'.queue t ht, h.queue t ht]
  · intro t ht
    rw [h'.received t ht, h.received t ht]
  · rw [h'.writes, h.writes]
  · rw [h'.writePending, h.writePending]
  · rw [h'.outcomes, h.outcomes]
  · rw [h'.sent, h.sent]

/-- A packet is being read: `h` has been read of the header `H`, and the data `D` is there. -/
structure Reading (s : Sockets) (socket : ℤ) (h H D : List UInt8) : Prop where
  distinct : Distinct SocketQueue.socket s.buffer.queues
  room : s.buffer.defQueue.buf.length ≤ s.buffer.defQueue.buflen
  queue : ∃ q, s.buffer.Holds socket q ∧ q.index = h.length ∧ q.header = H ∧ q.data = D ∧ q.Fits
  seen : h <+: H

/-- Of a packet, the header `H` and the data `D` are kept for the next time. -/
structure Kept (s : Sockets) (socket : ℤ) (H D : List UInt8) : Prop where
  distinct : Distinct SocketQueue.socket s.buffer.queues
  room : s.buffer.defQueue.buf.length ≤ s.buffer.defQueue.buflen
  free : s.buffer.defQueue.Free
  queue : ∃ q, find SocketQueue.socket socket s.buffer.queues = some q ∧ q.index = 0
    ∧ q.header = H ∧ q.data = D ∧ q.Fits

/-- No packet is kept for a socket. -/
structure Fresh (s : Sockets) (socket : ℤ) : Prop where
  distinct : Distinct SocketQueue.socket s.buffer.queues
  room : s.buffer.defQueue.buf.length ≤ s.buffer.defQueue.buflen
  free : s.buffer.defQueue.Free
  queue : find SocketQueue.socket socket s.buffer.queues = none

variable {s : Sockets} {socket : ℤ} {h H D : List UInt8} {host : Host}

theorem Kept.reading (hs : Kept s socket H D) :
  Reading s socket [] H D
  := by
  obtain ⟨q, hfind, hindex, hheader, hdata, hfits⟩ := hs.queue
  refine ⟨hs.distinct, hs.room, ?_, List.nil_prefix⟩
  refine ⟨q, .queued hfind hs.free, hindex, hheader, hdata, hfits⟩

/-- The host takes no part in what is known of a packet. -/
theorem Reading.of_buffer {s' : Sockets} (hs : Reading s socket h H D)
    (hb : s'.buffer = s.buffer) :
  Reading s' socket h H D
  := by
  constructor
  · rw [hb]
    apply hs.distinct
  · rw [hb]
    apply hs.room
  · rw [hb]
    apply hs.queue
  · apply hs.seen

/-! ### Header bytes -/

/-- While the header is known, it is read from the queue. -/
theorem Reading.replay {c : UInt8} {rest : List UInt8} (hs : Reading s socket h H D)
    (hH : H = h ++ c :: rest) :
  ∃ b, s.buffer.getQueuedChar socket = (.ok c, b)
    ∧ Reading { s with buffer := b } socket (h ++ [c]) H D
    ∧ Elsewhere socket s { s with buffer := b }
  := by
  obtain ⟨q, hq, hindex, hheader, hdata, hfits⟩ := hs.queue
  have hlen := hfits.length_header
  have hle := hfits.headerlen
  have hlt : q.index < q.headerlen := by
    rw [hindex, ← hlen, hheader, hH, List.length_append, List.length_cons]
    omega
  cases hq with
  | default _ _ _ hindex' => omega
  | queued hfind hfree =>
    have hchar : q.fixedHeader[q.index]?.getD 0 = c := by
      have hget : q.header[q.index]? = some c := by
        rw [hheader, hH, hindex]
        simp
      rw [SocketQueue.header, List.getElem?_take, if_pos hlt, Vector.getElem?_toList] at hget
      rw [hget, Option.getD_some]
    have hkey : ∀ a : SocketQueue, a.socket = socket →
        ({ a with index := a.index + 1 } : SocketQueue).socket = socket := fun a h => h
    refine ⟨s.buffer.modifyQueue socket fun q => { q with index := q.index + 1 }, ?_, ?_, ?_⟩
    · rw [SocketBuffer.getQueuedChar, hfind]
      simp only [if_pos hlt, hchar]
    · refine ⟨Distinct.modify hs.distinct hkey, hs.room, ?_, ?_⟩
      · refine ⟨{ q with index := q.index + 1 }, .queued ?_ hfree, ?_, hheader, hdata, ?_⟩
        · apply find_modify_self hfind
          apply key_of_find hfind
        · simp only [hindex, List.length_append, List.length_singleton]
        · refine ⟨hfits.headerlen, hfits.datalen, hfits.buflen⟩
      · rw [hH]
        refine ⟨rest, ?_⟩
        simp
    · refine Elsewhere.of_buffer ?_ rfl
      intro t ht
      apply find_modify_of_ne hkey ht

/-- When all of the header that is known has been read, the queue has no more of it. -/
theorem Reading.queueEnd (hs : Reading s socket H H D) (hlt : H.length < 5) :
  s.buffer.getQueuedChar socket = (.error .interrupted, s.buffer)
  := by
  obtain ⟨q, hq, hindex, hheader, hdata, hfits⟩ := hs.queue
  have hlen := hfits.length_header
  rw [hheader] at hlen
  cases hq with
  | default hfind => rw [SocketBuffer.getQueuedChar, hfind]
  | queued hfind hfree =>
    rw [SocketBuffer.getQueuedChar, hfind]
    simp only
    rw [if_neg (by omega), if_neg (by omega)]

/-- A byte that comes in goes to the header. -/
theorem Reading.queueChar (c : UInt8) (hs : Reading s socket H H []) (hlt : H.length < 5)
    (hsocket : socket ≠ 0) :
  Reading { s with buffer := s.buffer.queueChar socket c } socket (H ++ [c]) (H ++ [c]) []
    ∧ Elsewhere socket s { s with buffer := s.buffer.queueChar socket c }
  := by
  obtain ⟨q, hq, hindex, hheader, hdata, hfits⟩ := hs.queue
  have hlen := hfits.length_header
  rw [hheader] at hlen
  have hindex' : q.index = q.headerlen := hindex.trans hlen
  have hpush : (q.push c).header = H ++ [c] := by
    rw [SocketQueue.header_push hindex' (by omega), hheader]
  have hpushIndex : (q.push c).index = (H ++ [c]).length := by
    rw [SocketQueue.push, List.length_append, List.length_singleton, hindex]
  cases hq with
  | queued hfind hfree =>
    have hb : s.buffer.queueChar socket c = s.buffer.modifyQueue socket fun q => q.push c := by
      rw [SocketBuffer.queueChar, hfind]
      simp only
      rw [if_neg (by omega)]
    have hkey : ∀ a : SocketQueue, a.socket = socket → (a.push c).socket = socket :=
      fun a h => h
    rw [hb]
    refine ⟨⟨Distinct.modify hs.distinct hkey, hs.room, ?_, List.prefix_rfl⟩, ?_⟩
    · refine ⟨q.push c, .queued ?_ hfree, hpushIndex, hpush, hdata, ?_⟩
      · apply find_modify_self hfind
        apply key_of_find hfind
      · apply hfits.push hindex' (by omega)
    · refine Elsewhere.of_buffer ?_ rfl
      intro t ht
      apply find_modify_of_ne hkey ht
  | default hfind hdef hsocket' hindex'' hdatalen =>
    have hb : s.buffer.queueChar socket c = { s.buffer with defQueue := q.push c } := by
      rw [SocketBuffer.queueChar, hfind]
      simp only
      rw [hdef, if_neg (by rw [hsocket']; apply hsocket), if_neg (by
        rintro (hne | hge)
        · apply hne hsocket'
        · omega)]
    rw [hb]
    refine ⟨⟨hs.distinct, ?_, ?_, List.prefix_rfl⟩, Elsewhere.of_buffer (fun t ht => rfl) rfl⟩
    · apply hfits.buflen
    · refine ⟨q.push c, .default hfind rfl hsocket' rfl hdatalen, hpushIndex, hpush, hdata, ?_⟩
      apply hfits.push hindex' (by omega)

/-- So does the first byte of a new packet. -/
theorem Fresh.queueChar (c : UInt8) (hs : Fresh s socket) :
  Reading { s with buffer := s.buffer.queueChar socket c } socket [c] [c] []
    ∧ Elsewhere socket s { s with buffer := s.buffer.queueChar socket c }
  := by
  have hb : s.buffer.queueChar socket c = { s.buffer with
      defQueue := ({ s.buffer.defQueue with socket, index := 0, datalen := 0 }).push c } := by
    rw [SocketBuffer.queueChar, hs.queue]
    simp only
    rw [if_pos hs.free.socket]
  rw [hb]
  refine ⟨⟨hs.distinct, hs.room, ?_, List.prefix_rfl⟩, Elsewhere.of_buffer (fun t ht => rfl) rfl⟩
  refine ⟨_, .default hs.queue rfl rfl rfl rfl, rfl, ?_, rfl, ?_⟩
  · have hset : ∀ v : Vector UInt8 5, (v.setIfInBounds 0 c).toList.take 1 = [c] := by
      intro v
      have hlen : v.toList.length = 5 := Vector.length_toList
      rw [Vector.toList_setIfInBounds, List.set_eq_take_append_cons_drop, hlen, if_pos (by decide)]
      rfl
    apply hset
  · refine ⟨Nat.succ_le_succ (Nat.zero_le 4), Nat.zero_le _, hs.room⟩

/-! ### What is kept -/

theorem inputQueue_of_holds {b : SocketBuffer} {q : SocketQueue} (hq : b.Holds socket q) :
  inputQueue b socket = q
  := by
  cases hq with
  | queued hfind => rw [inputQueue, hfind, Option.getD_some]
  | default hfind hdef => rw [inputQueue, hfind, Option.getD_none, hdef]

/-- After an interruption, what is known of the packet is kept. -/
theorem Reading.interrupted (memory : SocketQueue) {D' : List UInt8} {n : ℕ}
    (hs : Reading s socket h H D) (hn : n ≤ (inputQueue s.buffer socket).buf.length)
    (hD' : (inputQueue s.buffer socket).buf.take n = D') :
  Kept { s with buffer := s.buffer.interrupted memory socket n } socket H D'
    ∧ Elsewhere socket s { s with buffer := s.buffer.interrupted memory socket n }
  := by
  obtain ⟨q, hq, hindex, hheader, hdata, hfits⟩ := hs.queue
  rw [inputQueue_of_holds hq] at hn hD'
  have hfits' : (q.rewind n).Fits := ⟨hfits.headerlen, hn, hfits.buflen⟩
  cases hq with
  | queued hfind hfree =>
    have hb : s.buffer.interrupted memory socket n
        = s.buffer.modifyQueue socket fun q => q.rewind n := by
      rw [SocketBuffer.interrupted, hfind]
    have hkey : ∀ a : SocketQueue, a.socket = socket → (a.rewind n).socket = socket :=
      fun a h => h
    rw [hb]
    refine ⟨⟨Distinct.modify hs.distinct hkey, hs.room, hfree, ?_⟩, ?_⟩
    · refine ⟨q.rewind n, ?_, rfl, hheader, hD', hfits'⟩
      apply find_modify_self hfind
      apply key_of_find hfind
    · refine Elsewhere.of_buffer ?_ rfl
      intro t ht
      apply find_modify_of_ne hkey ht
  | default hfind hdef hsocket' hindex'' hdatalen =>
    have hq' : { s.buffer.defQueue with socket } = q := by
      rw [hdef, ← hsocket']
    have hkey : (q.rewind n).socket = socket := hsocket'
    have hb : s.buffer.interrupted memory socket n = { s.buffer with
        queues := s.buffer.queues ++ [q.rewind n]
        defQueue := SocketBuffer.newDefQ memory } := by
      rw [SocketBuffer.interrupted, hfind]
      simp only [hq']
    rw [hb]
    refine ⟨⟨hs.distinct.concat hkey hfind, Nat.zero_le _, ⟨rfl, rfl⟩, ?_⟩, ?_⟩
    · refine ⟨q.rewind n, ?_, rfl, hheader, hD', hfits'⟩
      apply find_concat_self hkey hfind
    · refine Elsewhere.of_buffer ?_ rfl
      intro t ht
      apply find_concat_of_ne hkey ht

/-- After a packet is complete, nothing is kept. -/
theorem Reading.complete (hs : Reading s socket h H D) :
  Fresh { s with buffer := s.buffer.complete socket } socket
    ∧ Elsewhere socket s { s with buffer := s.buffer.complete socket }
  := by
  obtain ⟨q, hq, hindex, hheader, hdata, hfits⟩ := hs.queue
  cases hq with
  | queued hfind hfree =>
    have hb : s.buffer.complete socket = { s.buffer with
        defQueue := q.clear, queues := remove SocketQueue.socket socket s.buffer.queues } := by
      rw [SocketBuffer.complete, hfind]
    rw [hb]
    refine ⟨⟨hs.distinct.remove, hfits.buflen, ⟨rfl, rfl⟩, find_remove_self hs.distinct⟩, ?_⟩
    refine Elsewhere.of_buffer ?_ rfl
    intro t ht
    apply find_remove_of_ne ht
  | default hfind hdef hsocket' hindex'' hdatalen =>
    have hb : s.buffer.complete socket = { s.buffer with defQueue := q.clear } := by
      rw [SocketBuffer.complete, hfind, hdef]
    rw [hb]
    refine ⟨⟨hs.distinct, hfits.buflen, ⟨rfl, rfl⟩, hfind⟩, ?_⟩
    exact Elsewhere.of_buffer (fun t ht => rfl) rfl

/-! ### Data -/

theorem Reading.buf_take (hs : Reading s socket h H D) :
  D.length ≤ (inputQueue s.buffer socket).buf.length
    ∧ (inputQueue s.buffer socket).buf.take D.length = D
  := by
  obtain ⟨q, hq, hindex, hheader, hdata, hfits⟩ := hs.queue
  have hlen := hfits.length_data
  rw [hdata] at hlen
  rw [inputQueue_of_holds hq, hlen]
  refine ⟨hfits.datalen, hdata⟩

/-- Room is made for the data of a packet. -/
theorem Reading.getQueuedData (bytes : ℕ) (hs : Reading s socket h H D) :
  ∃ b, s.buffer.getQueuedData socket bytes = (D.length, b)
    ∧ Reading { s with buffer := b } socket h H D
    ∧ Elsewhere socket s { s with buffer := b }
    ∧ bytes ≤ (inputQueue b socket).buflen
  := by
  obtain ⟨q, hq, hindex, hheader, hdata, hfits⟩ := hs.queue
  have hlen := hfits.length_data
  rw [hdata] at hlen
  obtain ⟨hfits', hheader', hdata', hindex', hdatalen', hroom⟩ :=
    SocketQueue.grow_fits bytes hfits
  have hkey : ∀ a : SocketQueue, a.socket = socket → (a.grow bytes).socket = socket := by
    intro a ha
    rw [SocketQueue.grow]
    split <;> exact ha
  cases hq with
  | queued hfind hfree =>
    have hholds : SocketBuffer.Holds (s.buffer.modifyQueue socket fun q => q.grow bytes) socket
        (q.grow bytes) := by
      refine .queued ?_ hfree
      apply find_modify_self hfind
      apply hkey q (key_of_find hfind)
    refine ⟨s.buffer.modifyQueue socket fun q => q.grow bytes, ?_, ?_, ?_, ?_⟩
    · rw [SocketBuffer.getQueuedData, hfind, hlen]
    · refine ⟨Distinct.modify hs.distinct hkey, hs.room, ?_, hs.seen⟩
      refine ⟨q.grow bytes, hholds, hindex'.trans hindex, hheader'.trans hheader,
        hdata'.trans hdata, hfits'⟩
    · refine Elsewhere.of_buffer ?_ rfl
      intro t ht
      apply find_modify_of_ne hkey ht
    · rw [inputQueue_of_holds hholds]
      apply hroom
  | default hfind hdef hsocket' hindex'' hdatalen =>
    have hgrown : (q.grow bytes).headerlen = q.headerlen := by
      rw [SocketQueue.grow]
      split <;> rfl
    have hholds : SocketBuffer.Holds { s.buffer with defQueue := q.grow bytes } socket
        (q.grow bytes) := by
      refine .default hfind rfl (hkey q hsocket') ?_ ?_
      · rw [hindex', hindex'', hgrown]
      · rw [hdatalen', hdatalen]
    refine ⟨{ s.buffer with defQueue := q.grow bytes }, ?_, ?_, ?_, ?_⟩
    · rw [SocketBuffer.getQueuedData, hfind, hlen, hdatalen, hdef]
    · refine ⟨hs.distinct, hfits'.buflen, ?_, hs.seen⟩
      refine ⟨q.grow bytes, hholds, hindex'.trans hindex, hheader'.trans hheader,
        hdata'.trans hdata, hfits'⟩
    · exact Elsewhere.of_buffer (fun t ht => rfl) rfl
    · rw [inputQueue_of_holds hholds]
      apply hroom

/-- Data that comes in is written behind the data that is there. -/
theorem Reading.write {d : List UInt8} (hs : Reading s socket h H D)
    (hroom : D.length + d.length ≤ (inputQueue s.buffer socket).buflen) :
  ∃ b, modifyInput s.buffer socket (fun q => q.write D.length d) = b
    ∧ Reading { s with buffer := b } socket h H D
    ∧ Elsewhere socket s { s with buffer := b }
    ∧ D.length + d.length ≤ (inputQueue b socket).buf.length
    ∧ (inputQueue b socket).buf.take (D.length + d.length) = D ++ d
  := by
  obtain ⟨q, hq, hindex, hheader, hdata, hfits⟩ := hs.queue
  have hlen := hfits.length_data
  rw [hdata] at hlen
  rw [inputQueue_of_holds hq] at hroom
  obtain ⟨hfits', hdata', hlength, htake⟩ := hfits.write (hlen ▸ hroom)
  rw [← hlen] at hfits' hdata' hlength htake
  have hkey : ∀ a : SocketQueue, a.socket = socket → (a.write D.length d).socket = socket :=
    fun a h => h
  cases hq with
  | queued hfind hfree =>
    have hholds : SocketBuffer.Holds (s.buffer.modifyQueue socket fun q => q.write D.length d)
        socket (q.write D.length d) := by
      refine .queued ?_ hfree
      apply find_modify_self hfind
      apply key_of_find hfind
    refine ⟨s.buffer.modifyQueue socket fun q => q.write D.length d, ?_, ?_, ?_, ?_⟩
    · rw [modifyInput, hfind]
    · refine ⟨Distinct.modify hs.distinct hkey, hs.room, ?_, hs.seen⟩
      refine ⟨q.write D.length d, hholds, hindex, hheader, hdata'.trans hdata, hfits'⟩
    · refine Elsewhere.of_buffer ?_ rfl
      intro t ht
      apply find_modify_of_ne hkey ht
    · rw [inputQueue_of_holds hholds]
      refine ⟨hlength, ?_⟩
      rw [htake, hdata]
  | default hfind hdef hsocket' hindex'' hdatalen =>
    have hholds : SocketBuffer.Holds { s.buffer with defQueue := q.write D.length d } socket
        (q.write D.length d) :=
      .default hfind rfl hsocket' hindex'' hdatalen
    refine ⟨{ s.buffer with defQueue := q.write D.length d }, ?_, ?_, ?_, ?_⟩
    · rw [modifyInput, hfind, hdef]
    · refine ⟨hs.distinct, hfits'.buflen, ?_, hs.seen⟩
      refine ⟨q.write D.length d, hholds, hindex, hheader, hdata'.trans hdata, hfits'⟩
    · exact Elsewhere.of_buffer (fun t ht => rfl) rfl
    · rw [inputQueue_of_holds hholds]
      refine ⟨hlength, ?_⟩
      rw [htake, hdata]

end Sockets

end Mqtt
