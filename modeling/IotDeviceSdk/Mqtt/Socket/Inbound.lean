import IotDeviceSdk.Mqtt.Packet.Codec
import IotDeviceSdk.Mqtt.Socket.Queues
import Mathlib.Data.Nat.Bitwise

/-!
# Incoming packets

Every read of a packet starts at the header again: what has come before is read from the queue
of the socket, and then the bytes that arrive.  Nothing is lost, read twice, or mixed up with
the bytes of another socket, wherever the packets are cut and in whatever order the sockets are
read: the packets that are delivered are the frames of the bytes that have been received
(`Resting.readPacket`).

A default queue that is new has no length of its header yet.  So a packet must not be
interrupted before its first byte, which `Readable` rules out: a socket is only read when
something has arrived on it.
-/

namespace Mqtt

open Keyed

/-! ### The host -/

/-- The bytes that a call of `recv` returns. -/
def Recv.data : Recv → List UInt8
  | bytes data => data
  | _ => []

theorem Host.recv_spec (host : Host) (socket : ℤ) (n : ℕ) :
  (host.recv socket n).2.received socket
      = host.received socket ++ (host.recv socket n).1.data
    ∧ (host.recv socket n).1.data.length ≤ n
    ∧ (∀ t, t ≠ socket → (host.recv socket n).2.received t = host.received t)
    ∧ (host.recv socket n).2.outcomes = host.outcomes
    ∧ (host.recv socket n).2.sent = host.sent
  := by
  rw [Host.recv]
  split
  · refine ⟨(List.append_nil _).symm, Nat.zero_le n, fun t ht => rfl, rfl, rfl⟩
  · refine ⟨?_, ?_, ?_, rfl, rfl⟩
    · simp only [Function.update_self]
      rfl
    · simp only [Recv.data, List.length_take]
      omega
    · intro t ht
      simp only [Function.update_of_ne ht]
  · rename_i outcome _ hbytes _
    cases outcome with
    | bytes data => exact absurd rfl (hbytes data)
    | again => refine ⟨(List.append_nil _).symm, Nat.zero_le n, fun t ht => rfl, rfl, rfl⟩
    | failed => refine ⟨(List.append_nil _).symm, Nat.zero_le n, fun t ht => rfl, rfl, rfl⟩

namespace Sockets

variable {s s' : Sockets} {socket : ℤ} {h H D rest : List UInt8} {memory : SocketQueue}

/-- `data` has been received on a socket, and otherwise nothing has happened elsewhere. -/
structure Received (socket : ℤ) (data : List UInt8) (s s' : Sockets) : Prop where
  elsewhere : Elsewhere socket s s'
  received : s'.host.received socket = s.host.received socket ++ data

theorem Received.of_elsewhere (helse : Elsewhere socket s s')
    (hhost : s'.host = s.host) :
  Received socket [] s s'
  := by
  refine ⟨helse, ?_⟩
  rw [hhost, List.append_nil]

theorem Received.trans {s'' : Sockets} {t u : List UInt8} (h : Received socket t s s')
    (h' : Received socket u s' s'') :
  Received socket (t ++ u) s s''
  := by
  refine ⟨h.elsewhere.trans h'.elsewhere, ?_⟩
  rw [h'.received, h.received, List.append_assoc]

theorem Received.recv (s : Sockets) (socket : ℤ) (n : ℕ) :
  Received socket (s.host.recv socket n).1.data s { s with host := (s.host.recv socket n).2 }
  := by
  obtain ⟨hreceived, -, helse, houtcomes, hsent⟩ := s.host.recv_spec socket n
  refine ⟨⟨fun t ht => rfl, helse, rfl, rfl, houtcomes, hsent⟩, hreceived⟩

/-- A packet has been given up, and the socket is to be closed. -/
structure Failed (s : Sockets) (socket : ℤ) : Prop where
  distinct : Distinct SocketQueue.socket s.buffer.queues
  room : s.buffer.defQueue.buf.length ≤ s.buffer.defQueue.buflen
  free : s.buffer.defQueue.Free ∨ s.buffer.defQueue.socket = socket

theorem Reading.failed (hs : Reading s socket h H D) :
  Failed s socket
  := by
  refine ⟨hs.distinct, hs.room, ?_⟩
  obtain ⟨q, hq, -⟩ := hs.queue
  cases hq with
  | queued hfind hfree =>
    left
    apply hfree
  | default hfind hdef hsocket =>
    right
    rw [hdef, hsocket]

/-- What comes of reading: it returns something, or there is not enough yet, or it fails. -/
def Ends {α : Type} (done : α → Sockets → Prop) (kept failed : Sockets → Prop) :
    Except SocketBuffer.Completion α × Sockets → Prop
  | (.ok a, s') => done a s'
  | (.error .interrupted, s') => kept s'
  | (.error .error, s') => failed s'
  | _ => False

/-! ### One byte -/

/-- A byte of the header that is known already. -/
theorem Reading.getch_replay (memory : SocketQueue) {c : UInt8} (hs : Reading s socket h H D)
    (hH : H = h ++ c :: rest) :
  ∃ s', s.getch memory socket = (.ok c, s') ∧ Reading s' socket (h ++ [c]) H D
    ∧ Received socket [] s s'
  := by
  obtain ⟨b, hb, hreading, helse⟩ := hs.replay hH
  refine ⟨{ s with buffer := b }, ?_, hreading, .of_elsewhere helse rfl⟩
  rw [getch, hb]

/-- A byte of the header that is not known yet. -/
theorem Reading.getch_live (memory : SocketQueue) (hs : Reading s socket H H [])
    (hlt : H.length < 5) (hsocket : socket ≠ 0) :
  Ends
    (fun c s' => Reading s' socket (H ++ [c]) (H ++ [c]) [] ∧ Received socket [c] s s')
    (fun s' => Kept s' socket H [] ∧ Received socket [] s s')
    (fun s' => Failed s' socket ∧ Received socket [] s s')
    (s.getch memory socket)
  := by
  have hrecv := Received.recv s socket 1
  have hlength := (s.host.recv_spec socket 1).2.1
  have hs' : Reading { s with host := (s.host.recv socket 1).2 } socket H H [] := hs.of_buffer rfl
  rw [getch, hs.queueEnd hlt]
  simp only
  generalize s.host.recv socket 1 = r at hrecv hlength hs'
  obtain ⟨outcome, host⟩ := r
  cases outcome with
  | again =>
    obtain ⟨hkept, helse⟩ := hs'.interrupted memory (Nat.zero_le _) rfl
    refine ⟨hkept, hrecv.trans (.of_elsewhere helse rfl)⟩
  | failed => refine ⟨hs'.failed, hrecv⟩
  | bytes data =>
    cases data with
    | nil => refine ⟨hs'.failed, hrecv⟩
    | cons c data =>
      obtain rfl : data = [] := by
        apply List.eq_nil_of_length_eq_zero
        rw [Recv.data, List.length_cons] at hlength
        omega
      obtain ⟨hreading, helse⟩ := hs'.queueChar c hlt hsocket
      refine ⟨hreading, ?_⟩
      have htrans := hrecv.trans (.of_elsewhere helse rfl)
      rw [List.append_nil] at htrans
      apply htrans

/-- A socket that has something to read, unless part of a packet is kept for it. -/
def Readable (s : Sockets) (socket : ℤ) : Prop :=
  find SocketQueue.socket socket s.buffer.queues = none →
    (s.host.recv socket 1).1 ≠ .again

/-- The first byte of a packet. -/
theorem Fresh.getch (memory : SocketQueue) (hs : Fresh s socket) (hreadable : s.Readable socket) :
  Ends
    (fun c s' => Reading s' socket [c] [c] [] ∧ Received socket [c] s s')
    (fun _ => False)
    (fun s' => Failed s' socket ∧ Received socket [] s s')
    (s.getch memory socket)
  := by
  have hrecv := Received.recv s socket 1
  have hlength := (s.host.recv_spec socket 1).2.1
  have hagain := hreadable hs.queue
  have hend : s.buffer.getQueuedChar socket = (.error .interrupted, s.buffer) := by
    rw [SocketBuffer.getQueuedChar, hs.queue]
  rw [Sockets.getch, hend]
  simp only
  have hs' : Fresh { s with host := (s.host.recv socket 1).2 } socket :=
    ⟨hs.distinct, hs.room, hs.free, hs.queue⟩
  generalize s.host.recv socket 1 = r at hrecv hlength hagain hs'
  obtain ⟨outcome, host⟩ := r
  cases outcome with
  | again => exact absurd rfl hagain
  | failed => refine ⟨⟨hs'.distinct, hs'.room, .inl hs'.free⟩, hrecv⟩
  | bytes data =>
    cases data with
    | nil => refine ⟨⟨hs'.distinct, hs'.room, .inl hs'.free⟩, hrecv⟩
    | cons c data =>
      obtain rfl : data = [] := by
        apply List.eq_nil_of_length_eq_zero
        rw [Recv.data, List.length_cons] at hlength
        omega
      obtain ⟨hreading, helse⟩ := hs'.queueChar c
      refine ⟨hreading, ?_⟩
      have htrans := hrecv.trans (.of_elsewhere helse rfl)
      rw [List.append_nil] at htrans
      apply htrans

/-! ### The remaining length -/

theorem toNat_low (c : UInt8) :
  (c &&& 127).toNat = c.toNat % 128
  := by
  have h127 : (127 : UInt8).toNat = 2 ^ 7 - 1 := rfl
  rw [UInt8.toNat_and, h127, Nat.and_two_pow_sub_one_eq_mod]

theorem top_iff (c : UInt8) :
  c &&& 128 ≠ 0 ↔ 128 ≤ c.toNat
  := by
  have h128 : (128 : UInt8).toNat = 2 ^ 7 := rfl
  have hlt := c.toNat_lt
  have hzero : c &&& 128 = 0 ↔ (c &&& 128).toNat = 0 := UInt8.toNat_inj.symm
  rw [Ne, hzero, UInt8.toNat_and, h128, Nat.and_two_pow, Nat.testBit_eq_decide_div_mod_eq]
  by_cases hc : 128 ≤ c.toNat
  · have hone : c.toNat / 128 % 2 = 1 := by omega
    simp [hone, hc]
  · have hone : c.toNat / 128 % 2 = 0 := by omega
    simp [hone, hc]

/-- The length bytes `rest` that are known are not all, and then there is no data, or they are all
of them. -/
def Known (k : ℕ) (rest D : List UInt8) : Prop :=
  Varint.read k rest = .more ∧ D = [] ∨ ∃ n, Varint.read k rest = .done n []

/-- What comes of reading at most `k` length bytes, when `rest` is known of them. -/
def Decoded (s : Sockets) (socket : ℤ) (k : ℕ) (H rest D : List UInt8) (multiplier value : ℕ) :
    Except SocketBuffer.Completion ℕ × Sockets → Prop :=
  Ends
    (fun value' s' => ∃ t n, Varint.read k (rest ++ t) = .done n []
      ∧ value' = value + multiplier * n ∧ Reading s' socket (H ++ t) (H ++ t) D
      ∧ (D = [] ∨ t = []) ∧ Received socket t s s')
    (fun s' => D = [] ∧ ∃ t, Varint.read k (rest ++ t) = .more ∧ Kept s' socket (H ++ t) []
      ∧ Received socket t s s')
    (fun s' => Failed s' socket ∧ ∃ t, Received socket t s s')

theorem read_digit {k : ℕ} {c : UInt8} (hc : 128 ≤ c.toNat) (u : List UInt8) :
  Varint.read (k + 1) (c :: u) = (Varint.read k u).above (c.toNat - 128)
  := by
  rw [Varint.read, if_neg (Nat.not_lt.mpr hc)]

/-- As much is known after a digit that is not the last one. -/
theorem Known.digit {k : ℕ} {c : UInt8} (h : Known (k + 1) (c :: rest) D) (hc : 128 ≤ c.toNat) :
  Known k rest D
  := by
  rw [Known, read_digit hc] at h
  cases hr : Varint.read k rest with
  | more =>
    rcases h with ⟨-, hD⟩ | ⟨n, hdone⟩
    · exact .inl ⟨hr, hD⟩
    · rw [hr] at hdone
      contradiction
  | bad =>
    rw [hr] at h
    rcases h with ⟨hmore, -⟩ | ⟨n, hdone⟩
    · contradiction
    · contradiction
  | done n tail =>
    rw [hr] at h
    rcases h with ⟨hmore, -⟩ | ⟨n', hdone⟩
    · contradiction
    · obtain ⟨-, rfl⟩ := Varint.Result.done.inj hdone
      exact .inr ⟨n, hr⟩

/-- Nothing is known after the last digit. -/
theorem Known.last {k : ℕ} {c : UInt8} (h : Known (k + 1) (c :: rest) D) (hc : c.toNat < 128) :
  rest = []
  := by
  rw [Known, Varint.read, if_pos hc] at h
  rcases h with ⟨hmore, -⟩ | ⟨n, hdone⟩
  · contradiction
  · exact (Varint.Result.done.inj hdone).2

/-- A digit that is not the last one. -/
theorem Decoded.digit {k multiplier value : ℕ} {c : UInt8} {rest' t₀ : List UInt8}
    {r : Except SocketBuffer.Completion ℕ × Sockets}
    (hc : 128 ≤ c.toNat) (hrest : rest ++ t₀ = c :: rest') (ht₀ : D = [] ∨ t₀ = [])
    (hreceived : Received socket t₀ s s')
    (hr : Decoded s' socket k (H ++ t₀) rest' D (multiplier * 128)
      (value + (c &&& 127).toNat * multiplier) r) :
  Decoded s socket (k + 1) H rest D multiplier value r
  := by
  have hread : ∀ t, Varint.read (k + 1) (rest ++ (t₀ ++ t))
      = (Varint.read k (rest' ++ t)).above (c.toNat - 128) := by
    intro t
    rw [← List.append_assoc, hrest, List.cons_append, read_digit hc]
  have hlt := c.toNat_lt
  obtain ⟨r, s''⟩ := r
  cases r with
  | ok value' =>
    obtain ⟨t, n, hdone, hvalue, hreading, ht, hreceived'⟩ := hr
    refine ⟨t₀ ++ t, c.toNat - 128 + 128 * n, ?_, ?_, ?_, ?_, hreceived.trans hreceived'⟩
    · rw [hread, hdone, Varint.Result.above]
    · rw [hvalue, toNat_low, Nat.mod_eq_sub_mod hc, Nat.mod_eq_of_lt (by omega), Nat.mul_add,
        Nat.mul_comm (c.toNat - 128), ← Nat.mul_assoc, Nat.add_assoc]
    · rw [← List.append_assoc]
      apply hreading
    · rcases ht₀ with hD | rfl
      · left
        apply hD
      · rcases ht with hD | rfl
        · left
          apply hD
        · right
          rfl
  | error rc =>
    cases rc with
    | interrupted =>
      obtain ⟨hD, t, hmore, hkept, hreceived'⟩ := hr
      refine ⟨hD, t₀ ++ t, ?_, ?_, hreceived.trans hreceived'⟩
      · rw [hread, hmore, Varint.Result.above]
      · rw [← List.append_assoc]
        apply hkept
    | error =>
      obtain ⟨hfailed, t, hreceived'⟩ := hr
      refine ⟨hfailed, t₀ ++ t, hreceived.trans hreceived'⟩
    | complete => exact hr
    | badPacket => exact hr

/-- The last digit. -/
theorem Decoded.last {k multiplier value : ℕ} {c : UInt8} {t₀ : List UInt8}
    (hc : c.toNat < 128) (hrest : rest ++ t₀ = [c])
    (ht₀ : D = [] ∨ t₀ = []) (hreceived : Received socket t₀ s s')
    (hreading : Reading s' socket (H ++ t₀) (H ++ t₀) D) :
  Decoded s socket (k + 1) H rest D multiplier value
    (.ok (value + (c &&& 127).toNat * multiplier), s')
  := by
  refine ⟨t₀, c.toNat, ?_, ?_, hreading, ht₀, hreceived⟩
  · rw [hrest, Varint.read, if_pos hc]
  · rw [toNat_low, Nat.mod_eq_of_lt hc, Nat.mul_comm]

theorem Reading.decode (memory : SocketQueue) (hsocket : socket ≠ 0) (k multiplier value : ℕ)
    (hs : Reading s socket h H D) (hH : H = h ++ rest) (hk : h.length + k = 5)
    (hknown : Known k rest D) :
  Decoded s socket k H rest D multiplier value (decode memory socket k multiplier value s)
  := by
  induction k generalizing s h H D rest multiplier value with
  | zero =>
    rcases hknown with ⟨hmore, -⟩ | ⟨n, hdone⟩
    · contradiction
    · contradiction
  | succ k ih =>
    rw [Sockets.decode]
    cases rest with
    | nil =>
      obtain rfl : D = [] := by
        rcases hknown with ⟨-, hD⟩ | ⟨n, hdone⟩
        · apply hD
        · contradiction
      rw [List.append_nil] at hH
      subst hH
      have hlive := hs.getch_live memory (by omega) hsocket
      generalize s.getch memory socket = r at hlive
      obtain ⟨r, s'⟩ := r
      cases r with
      | ok c =>
        obtain ⟨hreading, hreceived⟩ := hlive
        simp only
        by_cases hc : 128 ≤ c.toNat
        · rw [if_pos ((top_iff c).mpr hc)]
          apply Decoded.digit hc rfl (.inl rfl) hreceived
          cases k with
          | zero =>
            refine ⟨hreading.failed, [], .of_elsewhere ?_ rfl⟩
            exact Elsewhere.of_buffer (fun t ht => rfl) rfl
          | succ k =>
            apply ih _ _ hreading (List.append_nil _).symm
            · rw [List.length_append, List.length_singleton]
              omega
            · left
              refine ⟨rfl, rfl⟩
        · rw [if_neg (fun htop => hc ((top_iff c).mp htop))]
          apply Decoded.last (Nat.not_le.mp hc) rfl (.inl rfl) hreceived hreading
      | error rc =>
        cases rc with
        | interrupted =>
          obtain ⟨hkept, hreceived⟩ := hlive
          refine ⟨rfl, [], rfl, ?_, hreceived⟩
          rw [List.append_nil]
          apply hkept
        | error => refine ⟨hlive.1, [], hlive.2⟩
        | complete => exact hlive
        | badPacket => exact hlive
    | cons c rest =>
      obtain ⟨s', hgetch, hreading, hreceived⟩ := hs.getch_replay memory hH
      rw [hgetch]
      simp only
      by_cases hc : 128 ≤ c.toNat
      · rw [if_pos ((top_iff c).mpr hc)]
        apply Decoded.digit hc (List.append_nil _) (.inr rfl) hreceived
        rw [List.append_nil]
        apply ih _ _ hreading
        · rw [hH, List.append_assoc]
          rfl
        · rw [List.length_append, List.length_singleton]
          omega
        · apply hknown.digit hc
      · obtain rfl := hknown.last (Nat.not_le.mp hc)
        rw [if_neg (fun htop => hc ((top_iff c).mp htop))]
        apply Decoded.last (Nat.not_le.mp hc) (List.append_nil _) (.inr rfl) hreceived
        rw [List.append_nil]
        rw [← hH] at hreading
        apply hreading

/-! ### Data -/

/-- What comes of reading the data of a packet whose length is `n`. -/
theorem Reading.getdata (memory : SocketQueue) {n : ℕ} (hs : Reading s socket H H D)
    (hD : D = [] ∨ D.length < n) :
  match s.getdata memory socket n with
  | (none, s') => Failed s' socket ∧ ∃ t, Received socket t s s'
  | (some (buf, actualLen), s') => ∃ t, Received socket t s s' ∧ actualLen = (D ++ t).length
      ∧ actualLen ≤ n ∧ actualLen ≤ buf.length ∧ buf.take actualLen = D ++ t
      ∧ if actualLen = n then Fresh s' socket else Kept s' socket H (D ++ t)
  := by
  by_cases hn : n = 0
  · obtain rfl : D = [] := by
      rcases hD with hD | hD
      · apply hD
      · omega
    obtain ⟨hfresh, helse⟩ := hs.complete
    rw [Sockets.getdata, if_pos hn]
    refine ⟨[], .of_elsewhere helse rfl, rfl, Nat.zero_le n, Nat.zero_le _, rfl, ?_⟩
    rw [if_pos hn.symm]
    apply hfresh
  · obtain ⟨b, hb, hs₁, helse₁, hroom⟩ := hs.getQueuedData n
    rw [Sockets.getdata, if_neg hn, hb]
    simp only
    have hlt : D.length < n := by
      rcases hD with rfl | hD
      · apply Nat.pos_of_ne_zero hn
      · apply hD
    have hrecv := Received.recv { s with buffer := b } socket (n - D.length)
    have hlength := (s.host.recv_spec socket (n - D.length)).2.1
    have hs₂ : Reading { s with buffer := b, host := (s.host.recv socket (n - D.length)).2 } socket
        H H D := hs₁.of_buffer rfl
    have hreceived := (Received.of_elsewhere helse₁ rfl).trans hrecv
    simp only at hreceived
    generalize s.host.recv socket (n - D.length) = r at hlength hs₂ hreceived
    obtain ⟨outcome, host⟩ := r
    cases outcome with
    | again =>
      obtain ⟨hle, htake⟩ := hs₂.buf_take
      obtain ⟨hkept, helse⟩ := hs₂.interrupted memory hle htake
      simp only
      rw [if_neg (Nat.ne_of_lt hlt)]
      refine ⟨[], hreceived.trans (.of_elsewhere helse rfl), ?_, hlt.le, hle, ?_, ?_⟩
      · rw [List.append_nil]
      · rw [htake, List.append_nil]
      · rw [if_neg (Nat.ne_of_lt hlt), List.append_nil]
        apply hkept
    | failed => refine ⟨hs₂.failed, _, hreceived⟩
    | bytes data =>
      cases data with
      | nil => refine ⟨hs₂.failed, _, hreceived⟩
      | cons c data =>
        have hle : D.length + (c :: data).length ≤ n := by
          rw [Recv.data] at hlength
          omega
        obtain ⟨b', hb', hs₃, helse₃, hlength', htake⟩ := hs₂.write (hle.trans hroom)
        have hreceived' := hreceived.trans (.of_elsewhere helse₃ rfl)
        simp only [hb']
        by_cases hfull : D.length + (c :: data).length = n
        · obtain ⟨hfresh, helse⟩ := hs₃.complete
          rw [if_pos hfull]
          refine ⟨c :: data, ?_, ?_, hle, hlength', htake, ?_⟩
          · have htrans := hreceived'.trans (.of_elsewhere helse rfl)
            rw [List.append_nil, List.append_nil] at htrans
            apply htrans
          · rw [List.length_append]
          · rw [if_pos hfull]
            apply hfresh
        · obtain ⟨hkept, helse⟩ := hs₃.interrupted memory hlength' htake
          rw [if_neg hfull]
          refine ⟨c :: data, ?_, ?_, hle, hlength', htake, ?_⟩
          · have htrans := hreceived'.trans (.of_elsewhere helse rfl)
            rw [List.append_nil, List.append_nil] at htrans
            apply htrans
          · rw [List.length_append]
          · rw [if_neg hfull]
            apply hkept

/-! ### Packets -/

/-- The packet on the wire. -/
def Arrived.frame (a : Arrived) : Frame :=
  ⟨a.header, a.data.take a.length⟩

/-- What is kept is the beginning of a packet. -/
def Begun (H D : List UInt8) : Prop :=
  ∃ c ds, H = c :: ds
    ∧ (Varint.read 4 ds = .more ∧ D = [] ∨ ∃ n, Varint.read 4 ds = .done n [] ∧ D.length < n)

theorem Begun.next (hbegun : Begun H D) :
  next (H ++ D) = .more
  := by
  obtain ⟨c, ds, rfl, ⟨hmore, rfl⟩ | ⟨n, hdone, hlt⟩⟩ := hbegun
  · rw [List.append_nil, Mqtt.next, hmore]
  · rw [List.cons_append, next_done (Varint.read_append D hdone), List.nil_append, if_pos hlt]

/-- The rest of a packet, after its first byte. -/
theorem Reading.packet (memory : SocketQueue) (hsocket : socket ≠ 0) {c : UInt8}
    {ds : List UInt8} (hs : Reading s socket [c] (c :: ds) D)
    (hbegun : Varint.read 4 ds = .more ∧ D = []
      ∨ ∃ n, Varint.read 4 ds = .done n [] ∧ D.length < n) :
  Ends
    (fun (a : Arrived) s' => ∃ t, a.header = c ∧ a.length ≤ a.data.length
      ∧ next (c :: ds ++ D ++ t) = .frame a.frame [] ∧ Fresh s' socket ∧ Received socket t s s')
    (fun s' => ∃ H' D', Kept s' socket H' D' ∧ Begun H' D' ∧ ∃ t, H' ++ D' = c :: ds ++ D ++ t
      ∧ Received socket t s s')
    (fun s' => Failed s' socket ∧ ∃ t, Received socket t s s')
    (readRest memory socket c s)
  := by
  have hknown : Known 4 ds D := by
    rcases hbegun with hmore | ⟨n, hdone, -⟩
    · left
      apply hmore
    · right
      refine ⟨n, hdone⟩
  have hdecoded := hs.decode memory hsocket 4 1 0 rfl rfl hknown
  rw [readRest]
  generalize Sockets.decode memory socket 4 1 0 s = r at hdecoded
  obtain ⟨r, s₁⟩ := r
  cases r with
  | error rc =>
    cases rc with
    | interrupted =>
      obtain ⟨rfl, t, hmore, hkept, hreceived⟩ := hdecoded
      refine ⟨c :: ds ++ t, [], hkept, ⟨c, ds ++ t, rfl, .inl ⟨hmore, rfl⟩⟩, t, ?_, hreceived⟩
      rw [List.append_nil, List.append_nil]
    | error => exact hdecoded
    | complete => exact hdecoded
    | badPacket => exact hdecoded
  | ok value =>
    obtain ⟨t, n, hdone, rfl, hreading, hDt, hreceived⟩ := hdecoded
    rw [Nat.zero_add, Nat.one_mul]
    have hD : D = [] ∨ D.length < n := by
      rcases hbegun with ⟨-, hD⟩ | ⟨n', hdone', hlt⟩
      · left
        apply hD
      · rcases hDt with hD | rfl
        · left
          apply hD
        · right
          rw [List.append_nil, hdone'] at hdone
          obtain ⟨rfl, -⟩ := Varint.Result.done.inj hdone
          apply hlt
    have hget := hreading.getdata memory hD
    have hassoc : ∀ u, c :: ds ++ D ++ (t ++ u) = c :: ((ds ++ t) ++ (D ++ u)) := by
      intro u
      rcases hDt with rfl | rfl
      · simp
      · simp
    simp only
    generalize s₁.getdata memory socket n = r at hget
    obtain ⟨r, s₂⟩ := r
    cases r with
    | none =>
      obtain ⟨hfailed, u, hreceived'⟩ := hget
      refine ⟨hfailed, t ++ u, hreceived.trans hreceived'⟩
    | some r =>
      obtain ⟨buf, actualLen⟩ := r
      obtain ⟨u, hreceived', hlen, hle, hbuf, htake, hstate⟩ := hget
      simp only
      by_cases hfull : actualLen = n
      · rw [if_neg (fun hne => hne hfull)]
        rw [if_pos hfull] at hstate
        subst hfull
        have hframe : (⟨c, buf, actualLen⟩ : Arrived).frame = ⟨c, D ++ u⟩ := by
          rw [Arrived.frame, htake]
        refine ⟨t ++ u, rfl, hbuf, ?_, hstate, hreceived.trans hreceived'⟩
        rw [hframe, hassoc, next_done (Varint.read_append (D ++ u) hdone), List.nil_append,
          if_neg (by omega), List.take_of_length_le (by omega), List.drop_of_length_le (by omega)]
      · rw [if_pos hfull]
        rw [if_neg hfull] at hstate
        refine ⟨_, _, hstate, ⟨c, ds ++ t, rfl, .inr ⟨n, hdone, ?_⟩⟩, t ++ u, ?_,
          hreceived.trans hreceived'⟩
        · omega
        · rw [hassoc, List.cons_append, List.cons_append]

/-- What is kept for a socket. -/
def pending (s : Sockets) (socket : ℤ) : List UInt8 :=
  match find SocketQueue.socket socket s.buffer.queues with
  | some q => q.header ++ q.data
  | none => []

/-- The state of the buffers between two calls. -/
structure Resting (s : Sockets) : Prop where
  distinct : Distinct SocketQueue.socket s.buffer.queues
  room : s.buffer.defQueue.buf.length ≤ s.buffer.defQueue.buflen
  free : s.buffer.defQueue.Free
  queue : ∀ t q, find SocketQueue.socket t s.buffer.queues = some q →
    q.index = 0 ∧ Begun q.header q.data ∧ q.Fits

theorem Kept.pending (hs : Kept s socket H D) :
  s.pending socket = H ++ D
  := by
  obtain ⟨q, hfind, -, hheader, hdata, -⟩ := hs.queue
  rw [Sockets.pending, hfind]
  simp only [hheader, hdata]

theorem Fresh.pending (hs : Fresh s socket) :
  s.pending socket = []
  := by
  rw [Sockets.pending, hs.queue]

theorem Elsewhere.pending (helse : Elsewhere socket s s') {t : ℤ} (ht : t ≠ socket) :
  s'.pending t = s.pending t
  := by
  rw [Sockets.pending, Sockets.pending, helse.queue t ht]

/-- What is kept is the beginning of a packet, or nothing. -/
theorem Resting.next_pending (hs : s.Resting) (socket : ℤ) :
  next (s.pending socket) = .more
  := by
  rw [Sockets.pending]
  cases hfind : find SocketQueue.socket socket s.buffer.queues with
  | none => rfl
  | some q => apply (hs.queue socket q hfind).2.1.next

theorem Resting.of_kept (hs : s.Resting) (helse : Elsewhere socket s s')
    (hkept : Kept s' socket H D) (hbegun : Begun H D) :
  s'.Resting
  := by
  refine ⟨hkept.distinct, hkept.room, hkept.free, ?_⟩
  intro t q hfind
  by_cases ht : t = socket
  · subst ht
    obtain ⟨q', hfind', hindex, hheader, hdata, hfits⟩ := hkept.queue
    obtain rfl := Option.some.inj (hfind'.symm.trans hfind)
    refine ⟨hindex, ?_, hfits⟩
    rw [hheader, hdata]
    apply hbegun
  · rw [helse.queue t ht] at hfind
    apply hs.queue t q hfind

theorem Resting.of_fresh (hs : s.Resting) (helse : Elsewhere socket s s')
    (hfresh : Fresh s' socket) :
  s'.Resting
  := by
  refine ⟨hfresh.distinct, hfresh.room, hfresh.free, ?_⟩
  intro t q hfind
  by_cases ht : t = socket
  · subst ht
    rw [hfresh.queue] at hfind
    contradiction
  · rw [helse.queue t ht] at hfind
    apply hs.queue t q hfind

/-- What comes of a call for a packet: it takes some bytes `t` from the socket, and returns the
packet that they complete, if they do; otherwise they are kept. -/
def Called (s : Sockets) (socket : ℤ) : Except SocketBuffer.Completion Arrived × Sockets → Prop :=
  Ends
    (fun a s' => ∃ t, a.length ≤ a.data.length
      ∧ next (s.pending socket ++ t) = .frame a.frame [] ∧ s'.pending socket = []
      ∧ s'.Resting ∧ Received socket t s s')
    (fun s' => ∃ t, s'.pending socket = s.pending socket ++ t ∧ s'.Resting
      ∧ Received socket t s s')
    (fun s' => Failed s' socket ∧ ∃ t, Received socket t s s')

/-- Whatever comes of the call, the other sockets are left alone. -/
theorem Called.elsewhere {result : Except SocketBuffer.Completion Arrived × Sockets}
    (h : s.Called socket result) :
  Elsewhere socket s result.2
  := by
  obtain ⟨result, s'⟩ := result
  cases result with
  | ok a =>
    obtain ⟨t, -, -, -, -, hreceived⟩ := h
    exact hreceived.elsewhere
  | error rc =>
    cases rc with
    | interrupted =>
      obtain ⟨t, -, -, hreceived⟩ := h
      exact hreceived.elsewhere
    | error =>
      obtain ⟨-, t, hreceived⟩ := h
      exact hreceived.elsewhere
    | complete => exact h.elim
    | badPacket => exact h.elim

/-- A call that has read the first byte of a packet. -/
theorem Resting.readRest (memory : SocketQueue) (hsocket : socket ≠ 0) (hs : s.Resting)
    {s₁ : Sockets} {c : UInt8} {ds t₀ : List UInt8} (hreceived : Received socket t₀ s s₁)
    (hreading : Reading s₁ socket [c] (c :: ds) D)
    (hds : Varint.read 4 ds = .more ∧ D = []
      ∨ ∃ n, Varint.read 4 ds = .done n [] ∧ D.length < n)
    (hpending : c :: ds ++ D = s.pending socket ++ t₀) :
  s.Called socket (readRest memory socket c s₁)
  := by
  have hpacket := hreading.packet memory hsocket hds
  generalize Sockets.readRest memory socket c s₁ = r at hpacket
  obtain ⟨r, s'⟩ := r
  cases r with
  | ok a =>
    obtain ⟨t, -, hle, hnext, hfresh, hreceived'⟩ := hpacket
    have htotal := hreceived.trans hreceived'
    refine ⟨t₀ ++ t, hle, ?_, hfresh.pending, hs.of_fresh htotal.elsewhere hfresh, htotal⟩
    rw [← List.append_assoc, ← hpending]
    apply hnext
  | error rc =>
    cases rc with
    | interrupted =>
      obtain ⟨H', D', hkept, hbegun, t, ht, hreceived'⟩ := hpacket
      have htotal := hreceived.trans hreceived'
      refine ⟨t₀ ++ t, ?_, hs.of_kept htotal.elsewhere hkept hbegun, htotal⟩
      rw [hkept.pending, ht, hpending, List.append_assoc]
    | error =>
      obtain ⟨hfailed, t, hreceived'⟩ := hpacket
      refine ⟨hfailed, t₀ ++ t, hreceived.trans hreceived'⟩
    | complete => exact hpacket
    | badPacket => exact hpacket

theorem Resting.readPacket (memory : SocketQueue) (hsocket : socket ≠ 0) (hs : s.Resting)
    (hreadable : s.Readable socket) :
  s.Called socket (s.readPacket memory socket)
  := by
  rw [Sockets.readPacket]
  cases hfind : find SocketQueue.socket socket s.buffer.queues with
  | some q =>
    obtain ⟨hindex, ⟨c, ds, hheader, hds⟩, hfits⟩ := hs.queue socket q hfind
    have hkept : Kept s socket (c :: ds) q.data :=
      ⟨hs.distinct, hs.room, hs.free, q, hfind, hindex, hheader, rfl, hfits⟩
    obtain ⟨s₁, hgetch, hreading, hreceived⟩ := hkept.reading.getch_replay memory rfl
    rw [hgetch]
    apply hs.readRest memory hsocket hreceived hreading hds
    rw [hkept.pending, List.append_nil]
  | none =>
    have hfresh : Fresh s socket := ⟨hs.distinct, hs.room, hs.free, hfind⟩
    have hgetch := hfresh.getch memory hreadable
    generalize s.getch memory socket = r at hgetch
    obtain ⟨r, s₁⟩ := r
    cases r with
    | ok c =>
      obtain ⟨hreading, hreceived⟩ := hgetch
      apply hs.readRest memory hsocket hreceived hreading (.inl ⟨rfl, rfl⟩)
      rw [hfresh.pending]
      rfl
    | error rc =>
      cases rc with
      | interrupted => exact hgetch.elim
      | error => refine ⟨hgetch.1, [], hgetch.2⟩
      | complete => exact hgetch
      | badPacket => exact hgetch

end Sockets

end Mqtt
