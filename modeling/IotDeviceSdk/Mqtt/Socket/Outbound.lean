import IotDeviceSdk.Mqtt.Socket.Queues
import Mathlib.Data.List.Forall2
import Mathlib.Data.List.ModifyLast

/-!
# Outgoing packets

A packet that the socket does not take as a whole stays pending, and no other packet is accepted
on the socket until the rest of it is written.  So what is sent on a socket are the packets that
were accepted, one after another, up to the rest of the last one, see `Writing.putdatas` and
`Writing.continueWrites`.

When going on with a write fails, its rest is given up, but the socket stays open.  If a later
write succeeds, the next packet stands in the place of the rest.  As long as the write errors of a
connection last (`Lasting`), the bytes that are sent are a beginning of the packets that were
accepted, see `Lasting.putdatas` and `Lasting.continueWrites`.
-/

namespace Mqtt

open Keyed

/-- A packet that has been accepted for a socket; it is cut if its rest has been given up. -/
structure Accepted where
  packet : List UInt8
  cut : Bool
  deriving DecidableEq

/-- What is sent of a packet that is not pending is a beginning of it, and all of it exactly when it
is not cut. -/
structure Written (piece : List UInt8) (a : Accepted) : Prop where
  begins : piece <+: a.packet
  eq_iff : piece = a.packet ↔ a.cut = false

/-- The rest of the last packet is given up. -/
def cutLast (accepted : List Accepted) : List Accepted :=
  accepted.modifyLast fun a => { a with cut := true }

theorem map_cutLast (accepted : List Accepted) :
  (cutLast accepted).map Accepted.packet = accepted.map Accepted.packet
  := by
  rcases accepted.eq_nil_or_concat' with rfl | ⟨before, a, rfl⟩
  · rfl
  · rw [cutLast, List.modifyLast_concat, List.map_append, List.map_append]
    rfl

namespace Sockets

/-- Going on with the write of a socket fails. -/
def givesUp (s : Sockets) (socket : ℤ) : Bool :=
  match s.buffer.getWrite socket with
  | none => false
  | some pw => (s.continueWrite socket pw).1 = .error

/-! ### What is left of the buffers -/

/-- Nothing of the buffers has been written. -/
theorem remaining_of_le {bytes curbuflen : ℕ} (iovecs : List (List UInt8))
    (h : bytes ≤ curbuflen) :
  remaining bytes curbuflen iovecs = iovecs
  := by
  induction iovecs generalizing curbuflen with
  | nil => rfl
  | cons iov iovecs ih => rw [remaining, if_pos h, ih (h.trans (Nat.le_add_right _ _))]

/-- What is handed to the socket next is the beginning of what has not been written. -/
theorem flatten_remaining_begins (bytes curbuflen : ℕ) (iovecs : List (List UInt8)) :
  (remaining bytes curbuflen iovecs).flatten <+: iovecs.flatten.drop (bytes - curbuflen)
  := by
  induction iovecs generalizing curbuflen with
  | nil => apply List.nil_prefix
  | cons iov iovecs ih =>
    by_cases hle : bytes ≤ curbuflen
    · have hsame : (remaining bytes curbuflen (iov :: iovecs)).flatten
          = (iov :: iovecs).flatten.drop (bytes - curbuflen) := by
        rw [remaining_of_le _ hle, Nat.sub_eq_zero_of_le hle, List.drop_zero]
      exact hsame ▸ List.prefix_rfl
    · rw [remaining, if_neg hle, List.flatten_cons]
      split
      · rename_i hlt
        rw [List.drop_append_of_le_length (by omega), List.flatten_singleton]
        apply List.prefix_append
      · rename_i hge
        have hdrop : (iov ++ iovecs.flatten).drop (bytes - curbuflen)
            = iovecs.flatten.drop (bytes - (curbuflen + iov.length)) := by
          rw [List.drop_append, List.drop_of_length_le (by omega), List.nil_append, Nat.sub_sub]
        rw [hdrop]
        apply ih

/-! ### What is sent -/

/-- What is sent on a socket, when the packets `accepted` have been accepted. -/
inductive Sent (s : Sockets) (socket : ℤ) (accepted : List Accepted) : Prop where
  /-- Nothing is pending. -/
  | all (hwrite : s.buffer.getWrite socket = none)
      (pieces : List (List UInt8)) (hpieces : List.Forall₂ Written pieces accepted)
      (hsent : s.host.sent socket = pieces.flatten)
  /-- The last packet is pending. -/
  | pending (pw : PendingWrite) (hwrite : s.buffer.getWrite socket = some pw)
      (before : List Accepted) (haccepted : accepted = before ++ [⟨pw.iovecs.flatten, false⟩])
      (pieces : List (List UInt8)) (hpieces : List.Forall₂ Written pieces before)
      (htotal : pw.total = pw.iovecs.flatten.length) (hbytes : pw.bytes < pw.total)
      (hsent : s.host.sent socket = pieces.flatten ++ pw.iovecs.flatten.take pw.bytes)

/-- The state of the writes, when the packets `accepted` have been accepted on the sockets. -/
structure Writing (s : Sockets) (accepted : ℤ → List Accepted) : Prop where
  distinct : Distinct PendingWrite.socket s.buffer.writes
  nodup : s.writePending.Nodup
  writePending : ∀ t, t ∈ s.writePending ↔ (s.buffer.getWrite t).isSome
  sent : ∀ t, Sent s t (accepted t)

variable {s s' : Sockets} {accepted : ℤ → List Accepted} {packets : List Accepted} {socket : ℤ}

/-- Packets that are not cut are sent as they are. -/
theorem pieces_eq {pieces : List (List UInt8)} (h : List.Forall₂ Written pieces packets)
    (huncut : ∀ a ∈ packets, a.cut = false) :
  pieces = packets.map Accepted.packet
  := by
  induction h with
  | nil => rfl
  | @cons piece a pieces packets hpiece _ ih =>
    rw [List.map_cons, ih fun b hb => huncut b (List.mem_cons_of_mem a hb),
      hpiece.eq_iff.mpr (huncut a List.mem_cons_self)]

/-- One more packet. -/
theorem forall₂_concat {pieces : List (List UInt8)} {piece : List UInt8} {a : Accepted}
    (h : List.Forall₂ Written pieces packets) (hpiece : Written piece a) :
  List.Forall₂ Written (pieces ++ [piece]) (packets ++ [a])
  :=
  List.rel_append h (.cons hpiece .nil)

theorem flatten_concat {α : Type} (pieces : List (List α)) (piece : List α) :
  (pieces ++ [piece]).flatten = pieces.flatten ++ piece
  := by
  rw [List.flatten_append, List.flatten_singleton]

theorem Sent.congr (h : Sent s socket packets)
    (hwrite : s'.buffer.getWrite socket = s.buffer.getWrite socket)
    (hsent : s'.host.sent socket = s.host.sent socket) :
  Sent s' socket packets
  := by
  cases h with
  | all hnone pieces hpieces hall =>
    apply Sent.all
    · rw [hwrite, hnone]
    · apply hpieces
    · rw [hsent, hall]
  | pending pw hsome before haccepted pieces hpieces htotal hbytes hpart =>
    apply Sent.pending pw _ before haccepted pieces hpieces htotal hbytes
    · rw [hsent, hpart]
    · rw [hwrite, hsome]

/-- If no packet but the last one is cut, what is sent is a beginning of the packets that are
accepted. -/
theorem Sent.begins (h : Sent s socket packets)
    (huncut : ∀ a ∈ packets.dropLast, a.cut = false) :
  s.host.sent socket <+: (packets.map Accepted.packet).flatten
  := by
  have hlast {before : List Accepted} {a : Accepted} {pieces : List (List UInt8)}
      {piece : List UInt8} (hbefore : ∀ a ∈ before, a.cut = false)
      (hpieces : List.Forall₂ Written pieces before) (hpiece : piece <+: a.packet) :
      pieces.flatten ++ piece <+: ((before ++ [a]).map Accepted.packet).flatten := by
    rw [pieces_eq hpieces hbefore, List.map_append, List.map_singleton, flatten_concat]
    apply (List.prefix_append_right_inj _).mpr hpiece
  cases h with
  | all hnone pieces hpieces hall =>
    rw [hall]
    rcases packets.eq_nil_or_concat' with rfl | ⟨before, a, rfl⟩
    · cases hpieces
      apply List.prefix_rfl
    · rw [List.dropLast_concat] at huncut
      have htake := List.forall₂_take_append pieces before [a] hpieces
      have hdrop := List.forall₂_drop_append pieces before [a] hpieces
      obtain ⟨piece, rest, hpiece, hrest, hpair⟩ := List.forall₂_cons_right_iff.mp hdrop
      obtain rfl := List.forall₂_nil_right_iff.mp hrest
      rw [← List.take_append_drop before.length pieces, hpair, flatten_concat]
      apply hlast huncut htake hpiece.begins
  | pending pw hsome before haccepted pieces hpieces htotal hbytes hpart =>
    subst haccepted
    rw [List.dropLast_concat] at huncut
    rw [hpart]
    exact hlast huncut hpieces (List.take_prefix pw.bytes pw.iovecs.flatten)

/-! ### Writing -/

/-- What a call of `writev` comes to. -/
theorem writev_spec (host : Host) (socket : ℤ) (iovecs : List (List UInt8)) :
  (host.writev socket iovecs).2.received = host.received
    ∧ (∀ t, t ≠ socket → (host.writev socket iovecs).2.outcomes t = host.outcomes t
      ∧ (host.writev socket iovecs).2.sent t = host.sent t)
    ∧ (host.writev socket iovecs).2.outcomes socket = (host.outcomes socket).tail
    ∧ match host.writev socket iovecs with
      | (.failed, host') => (host.outcomes socket).head? = some .failed
        ∧ host'.sent socket = host.sent socket
      | (outcome, host') => (host.outcomes socket).head? ≠ some .failed
        ∧ ∃ written, written <+: iovecs.flatten ∧ written.length = outcome.bytes
          ∧ host'.sent socket = host.sent socket ++ written
          ∧ (host.outcomes socket = [] → written = [])
  := by
  rw [Host.writev]
  split
  · rename_i houtcomes
    rw [houtcomes]
    refine ⟨rfl, fun t ht => ⟨rfl, rfl⟩, rfl, ?_, [], List.nil_prefix, rfl, ?_, fun _ => rfl⟩
    · intro h
      cases h
    · rw [List.append_nil]
  · rename_i n outcomes houtcomes
    rw [houtcomes]
    refine ⟨rfl, ?_, ?_, ?_, iovecs.flatten.take n, List.take_prefix n _, rfl, ?_, ?_⟩
    · intro t ht
      simp only [Function.update_of_ne ht, and_self]
    · simp only [Function.update_self, List.tail_cons]
    · intro h
      cases h
    · simp only [Function.update_self]
    · intro h
      cases h
  · rename_i outcomes houtcomes
    rw [houtcomes]
    refine ⟨rfl, ?_, ?_, ?_, [], List.nil_prefix, rfl, ?_, fun _ => rfl⟩
    · intro t ht
      simp only [Function.update_of_ne ht, and_self]
    · simp only [Function.update_self, List.tail_cons]
    · intro h
      cases h
    · simp only [List.append_nil]
  · rename_i outcomes houtcomes
    rw [houtcomes]
    refine ⟨rfl, ?_, ?_, rfl, rfl⟩
    · intro t ht
      simp only [Function.update_of_ne ht, and_self]
    · simp only [Function.update_self, List.tail_cons]

/-- What a call of `writev` comes to, unless it fails. -/
theorem writev_ok {host host' : Host} {iovecs : List (List UInt8)} {outcome : Writev}
    (h : host.writev socket iovecs = (outcome, host')) (hok : outcome ≠ .failed) :
  (host.outcomes socket).head? ≠ some .failed
    ∧ ∃ written, written <+: iovecs.flatten ∧ written.length = outcome.bytes
      ∧ host'.sent socket = host.sent socket ++ written
      ∧ (host.outcomes socket = [] → written = [])
  := by
  have hspec := (writev_spec host socket iovecs).2.2.2
  rw [h] at hspec
  cases outcome with
  | wrote n => apply hspec
  | again => apply hspec
  | failed => exact absurd rfl hok

theorem Writing.noPendingWrites_iff (hs : s.Writing accepted) :
  s.noPendingWrites socket = true ↔ s.buffer.getWrite socket = none
  := by
  have hiff := hs.writePending socket
  rw [noPendingWrites, decide_eq_true_iff, hiff, Option.not_isSome_iff_eq_none]

/-- Nothing has been done to what comes in. -/
structure Unread (s s' : Sockets) : Prop where
  defQueue : s'.buffer.defQueue = s.buffer.defQueue
  queues : s'.buffer.queues = s.buffer.queues
  received : s'.host.received = s.host.received

/-- A socket on which nothing is pending. -/
theorem Sent.idle (h : Sent s socket packets) (hnone : s.buffer.getWrite socket = none) :
  ∃ pieces, List.Forall₂ Written pieces packets ∧ s.host.sent socket = pieces.flatten
  := by
  cases h with
  | all _ pieces hpieces hall => exact ⟨pieces, hpieces, hall⟩
  | pending pw hsome =>
    rw [hnone] at hsome
    contradiction

/-- The other sockets are as they were, and on this one some more has been accepted. -/
theorem Writing.of_sent (hs : s.Writing accepted)
    (hdistinct : Distinct PendingWrite.socket s'.buffer.writes) (hnodup : s'.writePending.Nodup)
    (hpending : ∀ t, t ∈ s'.writePending ↔ (s'.buffer.getWrite t).isSome)
    (hwrite : ∀ t, t ≠ socket → s'.buffer.getWrite t = s.buffer.getWrite t)
    (hhost : ∀ t, t ≠ socket → s'.host.sent t = s.host.sent t) (hsent : Sent s' socket packets) :
  s'.Writing (Function.update accepted socket packets)
  := by
  refine ⟨hdistinct, hnodup, hpending, ?_⟩
  intro t
  by_cases ht : t = socket
  · subst ht
    rw [Function.update_self]
    apply hsent
  · rw [Function.update_of_ne ht]
    apply (hs.sent t).congr (hwrite t ht) (hhost t ht)

/-- What is accepted of a packet. -/
def acceptedOf (s : Sockets) (socket : ℤ) (iovecs : List (List UInt8)) : List Accepted :=
  if (s.putdatas socket iovecs).1 = .error then [] else [⟨iovecs.flatten, false⟩]

/-- `Socket_putdatas` when another packet is pending. -/
theorem putdatas_pending {iovecs : List (List UInt8)} (hpending : ¬ s.noPendingWrites socket) :
  s.acceptedOf socket iovecs = [] ∧ (s.putdatas socket iovecs).2 = s
  := by
  rw [acceptedOf, putdatas, if_pos hpending]
  exact ⟨if_pos rfl, rfl⟩

/-- `Socket_putdatas` when the socket is ready for a packet and the call of `writev` fails. -/
theorem putdatas_failed {iovecs : List (List UInt8)} {host : Host}
    (hpending : s.noPendingWrites socket = true)
    (hwritev : s.host.writev socket iovecs = (.failed, host)) :
  s.acceptedOf socket iovecs = [] ∧ (s.putdatas socket iovecs).2 = { s with host }
  := by
  rw [acceptedOf, putdatas, if_neg (not_not_intro hpending), hwritev]
  exact ⟨if_pos rfl, rfl⟩

/-- `Socket_putdatas` when the socket is ready for a packet and the call of `writev` does not
fail. -/
theorem putdatas_ok {iovecs : List (List UInt8)} {outcome : Writev} {host : Host}
    (hpending : s.noPendingWrites socket = true)
    (hwritev : s.host.writev socket iovecs = (outcome, host)) (hok : outcome ≠ .failed) :
  s.acceptedOf socket iovecs = [⟨iovecs.flatten, false⟩]
    ∧ (s.putdatas socket iovecs).2
      = if outcome.bytes = iovecs.flatten.length then
          { s with host }
        else
          { buffer := s.buffer.pendingWrite socket iovecs iovecs.flatten.length outcome.bytes
            writePending := s.writePending ++ [socket]
            host }
  := by
  have hput : s.putdatas socket iovecs
      = if outcome.bytes = iovecs.flatten.length then
          (.complete, { s with host })
        else
          (.interrupted,
            { buffer := s.buffer.pendingWrite socket iovecs iovecs.flatten.length outcome.bytes
              writePending := s.writePending ++ [socket]
              host }) := by
    have hsum : (iovecs.map List.length).sum = iovecs.flatten.length := List.length_flatten.symm
    rw [putdatas, if_neg (not_not_intro hpending), hsum, hwritev]
    cases outcome with
    | wrote n => rfl
    | again => rfl
    | failed => exact absurd rfl hok
  rw [acceptedOf, hput]
  split
  · exact ⟨rfl, rfl⟩
  · exact ⟨rfl, rfl⟩

/-- A packet that is written as a whole. -/
theorem Writing.complete {host : Host} {packet written : List UInt8} (hs : s.Writing accepted)
    (hnone : s.buffer.getWrite socket = none)
    (helse : ∀ t, t ≠ socket → host.sent t = s.host.sent t)
    (hsent : host.sent socket = s.host.sent socket ++ written) (hwritten : written <+: packet)
    (hfull : written.length = packet.length) :
  Writing { s with host } (Function.update accepted socket (accepted socket ++ [⟨packet, false⟩]))
  := by
  refine hs.of_sent hs.distinct hs.nodup hs.writePending (fun t ht => rfl) helse ?_
  obtain ⟨pieces, hpieces, hbefore⟩ := (hs.sent socket).idle hnone
  obtain rfl := hwritten.eq_of_length hfull
  refine Sent.all hnone (pieces ++ [written]) (forall₂_concat hpieces ?_) ?_
  · exact ⟨List.prefix_rfl, iff_of_true rfl rfl⟩
  · rw [flatten_concat, ← hbefore, ← hsent]

/-- A packet that is written in part. -/
theorem Writing.interrupted {host : Host} {iovecs : List (List UInt8)} {written : List UInt8}
    (hs : s.Writing accepted) (hnone : s.buffer.getWrite socket = none)
    (helse : ∀ t, t ≠ socket → host.sent t = s.host.sent t)
    (hsent : host.sent socket = s.host.sent socket ++ written)
    (hwritten : written <+: iovecs.flatten) (hpart : written.length ≠ iovecs.flatten.length) :
  Writing
    { buffer := s.buffer.pendingWrite socket iovecs iovecs.flatten.length written.length
      writePending := s.writePending ++ [socket]
      host }
    (Function.update accepted socket (accepted socket ++ [⟨iovecs.flatten, false⟩]))
  := by
  have hself : (s.buffer.pendingWrite socket iovecs iovecs.flatten.length written.length).getWrite
      socket = some ⟨socket, iovecs.flatten.length, written.length, iovecs⟩ :=
    find_concat_self rfl hnone
  have hne : ∀ t, t ≠ socket → (s.buffer.pendingWrite socket iovecs iovecs.flatten.length
      written.length).getWrite t = s.buffer.getWrite t :=
    fun t ht => find_concat_of_ne rfl ht
  refine hs.of_sent ?_ ?_ ?_ hne helse ?_
  · exact hs.distinct.concat rfl hnone
  · rw [List.nodup_append]
    refine ⟨hs.nodup, List.nodup_singleton _, ?_⟩
    intro t ht u hu htu
    obtain rfl := List.mem_singleton.mp hu
    subst htu
    rw [hs.writePending, hnone] at ht
    contradiction
  · intro t
    rw [List.mem_append, List.mem_singleton, hs.writePending]
    by_cases ht : t = socket
    · subst ht
      rw [hself]
      exact iff_of_true (.inr rfl) rfl
    · rw [hne t ht]
      exact or_iff_left ht
  · obtain ⟨pieces, hpieces, hbefore⟩ := (hs.sent socket).idle hnone
    refine Sent.pending _ hself (accepted socket) rfl pieces hpieces rfl ?_ ?_
    · apply lt_of_le_of_ne hwritten.length_le hpart
    · rw [hsent, hbefore, ← List.prefix_iff_eq_take.mp hwritten]

/-- A packet is accepted, as a whole or in part, or nothing is. -/
theorem Writing.putdatas (hs : s.Writing accepted) (socket : ℤ) (iovecs : List (List UInt8)) :
  Unread s (s.putdatas socket iovecs).2
    ∧ (s.putdatas socket iovecs).2.Writing
      (Function.update accepted socket (accepted socket ++ s.acceptedOf socket iovecs))
  := by
  by_cases hpending : s.noPendingWrites socket = true
  · have hnone := hs.noPendingWrites_iff.mp hpending
    obtain ⟨hreceived, helse, -, hspec⟩ := writev_spec s.host socket iovecs
    cases hwritev : s.host.writev socket iovecs with
    | mk outcome host =>
    rw [hwritev] at hreceived helse hspec
    by_cases hfailed : outcome = .failed
    · subst hfailed
      obtain ⟨hnothing, hput⟩ := putdatas_failed hpending hwritev
      rw [hnothing, hput, List.append_nil, Function.update_eq_self]
      refine ⟨⟨rfl, rfl, hreceived⟩, hs.distinct, hs.nodup, hs.writePending, ?_⟩
      intro t
      refine (hs.sent t).congr rfl ?_
      by_cases ht : t = socket
      · subst ht
        apply hspec.2
      · apply (helse t ht).2
    · obtain ⟨-, written, hwritten, hlength, hsent, -⟩ := writev_ok hwritev hfailed
      obtain ⟨haccepted, hput⟩ := putdatas_ok hpending hwritev hfailed
      rw [haccepted, hput, ← hlength]
      split
      · rename_i hfull
        refine ⟨⟨rfl, rfl, hreceived⟩, ?_⟩
        exact hs.complete hnone (fun t ht => (helse t ht).2) hsent hwritten hfull
      · rename_i hpart
        refine ⟨⟨rfl, rfl, hreceived⟩, ?_⟩
        exact hs.interrupted hnone (fun t ht => (helse t ht).2) hsent hwritten hpart
  · obtain ⟨hnothing, hput⟩ := putdatas_pending hpending
    rw [hnothing, hput, List.append_nil, Function.update_eq_self]
    exact ⟨⟨rfl, rfl, rfl⟩, hs⟩

/-! ### Going on with a write -/

/-- A pending write is removed. -/
theorem Writing.writeComplete {host : Host} {pieces : List (List UInt8)}
    (hs : s.Writing accepted) (socket : ℤ) (buffer : SocketBuffer)
    (hkeys : buffer.writes.map PendingWrite.socket = s.buffer.writes.map PendingWrite.socket)
    (hwrite : ∀ t, t ≠ socket → buffer.getWrite t = s.buffer.getWrite t)
    (helse : ∀ t, t ≠ socket → host.sent t = s.host.sent t)
    (hpieces : List.Forall₂ Written pieces packets) (hsent : host.sent socket = pieces.flatten) :
  Writing
    { buffer := buffer.writeComplete socket
      writePending := s.writePending.erase socket
      host }
    (Function.update accepted socket packets)
  := by
  have hdistinct : Distinct PendingWrite.socket buffer.writes := by
    rw [Distinct, hkeys]
    apply hs.distinct
  have hnone : (buffer.writeComplete socket).getWrite socket = none := find_remove_self hdistinct
  have hne : ∀ t, t ≠ socket → (buffer.writeComplete socket).getWrite t = buffer.getWrite t :=
    fun t ht => find_remove_of_ne ht
  refine hs.of_sent hdistinct.remove (hs.nodup.erase socket) ?_ ?_ helse ?_
  · intro t
    by_cases ht : t = socket
    · subst ht
      rw [hnone]
      simp [hs.nodup.not_mem_erase]
    · rw [hne t ht, hwrite t ht, ← hs.writePending]
      apply List.mem_erase_of_ne ht
  · intro t ht
    rw [hne t ht, hwrite t ht]
  · exact Sent.all hnone pieces hpieces hsent

/-- `Socket_continueWrites` when the call of `writev` fails. -/
theorem continueWrites_failed {pw : PendingWrite} {host : Host}
    (hwrite : s.buffer.getWrite socket = some pw)
    (hwritev : s.host.writev socket (remaining pw.bytes 0 pw.iovecs) = (.failed, host)) :
  s.givesUp socket = true
    ∧ s.continueWrites socket
      = { buffer := s.buffer.writeComplete socket
          writePending := s.writePending.erase socket
          host }
  := by
  have hcontinue : s.continueWrite socket pw = (.error, { s with host }) := by
    rw [continueWrite, hwritev]
  constructor
  · simp only [givesUp, hwrite, hcontinue, decide_true]
  · simp only [Sockets.continueWrites, hwrite, hcontinue]

/-- `Socket_continueWrites` when the call of `writev` does not fail. -/
theorem continueWrites_ok {pw : PendingWrite} {outcome : Writev} {host : Host}
    (hwrite : s.buffer.getWrite socket = some pw)
    (hwritev : s.host.writev socket (remaining pw.bytes 0 pw.iovecs) = (outcome, host))
    (hok : outcome ≠ .failed) :
  let buffer := { s.buffer with
    writes := modify PendingWrite.socket socket
      (fun pw' => { pw' with bytes := pw.bytes + outcome.bytes }) s.buffer.writes }
  s.givesUp socket = false
    ∧ s.continueWrites socket
      = if pw.bytes + outcome.bytes = pw.total then
          { buffer := buffer.writeComplete socket
            writePending := s.writePending.erase socket
            host }
        else
          { s with buffer, host }
  := by
  intro buffer
  have hcontinue : s.continueWrite socket pw
      = (if pw.bytes + outcome.bytes = pw.total then .complete else .incomplete,
          { s with buffer, host }) := by
    rw [continueWrite, hwritev]
    cases outcome with
    | wrote n => rfl
    | again => rfl
    | failed => exact absurd rfl hok
  by_cases hfull : pw.bytes + outcome.bytes = pw.total
  · rw [if_pos hfull] at hcontinue ⊢
    simp only [givesUp, Sockets.continueWrites, hwrite, hcontinue, buffer, reduceCtorEq,
      decide_false, and_self]
  · rw [if_neg hfull] at hcontinue ⊢
    simp only [givesUp, Sockets.continueWrites, hwrite, hcontinue, buffer, reduceCtorEq,
      decide_false, and_self]

/-- A socket on which a write is pending. -/
theorem Sent.busy {pw : PendingWrite} (h : Sent s socket packets)
    (hwrite : s.buffer.getWrite socket = some pw) :
  ∃ before pieces, packets = before ++ [⟨pw.iovecs.flatten, false⟩]
    ∧ List.Forall₂ Written pieces before ∧ pw.total = pw.iovecs.flatten.length
    ∧ pw.bytes < pw.total
    ∧ s.host.sent socket = pieces.flatten ++ pw.iovecs.flatten.take pw.bytes
  := by
  cases h with
  | all hnone =>
    rw [hwrite] at hnone
    contradiction
  | pending pw' hsome before haccepted pieces hpieces htotal hbytes hpart =>
    obtain rfl := Option.some.inj (hwrite.symm.trans hsome)
    exact ⟨before, pieces, haccepted, hpieces, htotal, hbytes, hpart⟩

/-- What is written next follows what has been written. -/
theorem take_append_of_remaining {pw : PendingWrite} {written : List UInt8}
    (h : written <+: (remaining pw.bytes 0 pw.iovecs).flatten)
    (hbytes : pw.bytes < pw.iovecs.flatten.length) :
  pw.iovecs.flatten.take pw.bytes ++ written
      = pw.iovecs.flatten.take (pw.bytes + written.length)
    ∧ pw.bytes + written.length ≤ pw.iovecs.flatten.length
  := by
  have hdrop : written <+: pw.iovecs.flatten.drop pw.bytes :=
    h.trans (flatten_remaining_begins pw.bytes 0 pw.iovecs)
  have hle := hdrop.length_le
  rw [List.length_drop] at hle
  refine ⟨?_, by omega⟩
  rw [List.take_add, ← List.prefix_iff_eq_take.mp hdrop]

/-- What is accepted after going on with a write is what was accepted, and the last packet is cut
if its rest is given up. -/
def acceptedAfter (s : Sockets) (accepted : ℤ → List Accepted) (socket : ℤ) :
    ℤ → List Accepted :=
  if s.givesUp socket then
    Function.update accepted socket (cutLast (accepted socket))
  else
    accepted

/-- The packets are the same. -/
theorem map_acceptedAfter (s : Sockets) (accepted : ℤ → List Accepted) (socket t : ℤ) :
  (s.acceptedAfter accepted socket t).map Accepted.packet = (accepted t).map Accepted.packet
  := by
  rw [acceptedAfter]
  split
  · by_cases ht : t = socket
    · subst ht
      rw [Function.update_self, map_cutLast]
    · rw [Function.update_of_ne ht]
  · rfl

/-- The rest of a packet is given up. -/
theorem Writing.giveUp {host : Host} {pw : PendingWrite} (hs : s.Writing accepted)
    (hwrite : s.buffer.getWrite socket = some pw)
    (helse : ∀ t, t ≠ socket → host.sent t = s.host.sent t)
    (hsent : host.sent socket = s.host.sent socket) :
  Writing
    { buffer := s.buffer.writeComplete socket
      writePending := s.writePending.erase socket
      host }
    (Function.update accepted socket (cutLast (accepted socket)))
  := by
  obtain ⟨before, pieces, haccepted, hpieces, htotal, hbytes, hpart⟩ := (hs.sent socket).busy hwrite
  rw [haccepted, cutLast, List.modifyLast_concat]
  refine hs.writeComplete socket s.buffer rfl (fun t ht => rfl) helse
    (forall₂_concat hpieces ⟨List.take_prefix pw.bytes pw.iovecs.flatten, ?_⟩) ?_
  · refine iff_of_false ?_ Bool.noConfusion
    intro hall
    have hlength := congrArg List.length hall
    simp only [List.length_take] at hlength
    omega
  · rw [hsent, hpart, flatten_concat]

/-- More of a packet is written. -/
theorem Writing.goOn {host : Host} {pw : PendingWrite} {written : List UInt8}
    (hs : s.Writing accepted) (hwrite : s.buffer.getWrite socket = some pw)
    (helse : ∀ t, t ≠ socket → host.sent t = s.host.sent t)
    (hsent : host.sent socket = s.host.sent socket ++ written)
    (hwritten : written <+: (remaining pw.bytes 0 pw.iovecs).flatten)
    (hpart : pw.bytes + written.length ≠ pw.total) :
  Writing
    { s with
      buffer := { s.buffer with
        writes := modify PendingWrite.socket socket
          (fun pw' => { pw' with bytes := pw.bytes + written.length }) s.buffer.writes }
      host }
    accepted
  := by
  obtain ⟨before, pieces, haccepted, hpieces, htotal, hbytes, hbefore⟩ :=
    (hs.sent socket).busy hwrite
  obtain ⟨htake, hle⟩ := take_append_of_remaining hwritten (htotal ▸ hbytes)
  have hkey : ∀ a : PendingWrite, a.socket = socket →
      ({ a with bytes := pw.bytes + written.length } : PendingWrite).socket = socket :=
    fun a h => h
  have hfind := find_modify_self
    (f := fun pw' : PendingWrite => { pw' with bytes := pw.bytes + written.length }) hwrite
    (hkey pw (key_of_find hwrite))
  rw [← Function.update_eq_self socket accepted]
  refine hs.of_sent (hs.distinct.modify hkey) hs.nodup ?_
    (fun t ht => find_modify_of_ne hkey ht) helse ?_
  · intro t
    rw [hs.writePending]
    by_cases ht : t = socket
    · subst ht
      rw [hwrite, SocketBuffer.getWrite, hfind]
      rfl
    · rw [SocketBuffer.getWrite, SocketBuffer.getWrite, find_modify_of_ne hkey ht]
  · refine Sent.pending _ hfind before haccepted pieces hpieces htotal ?_ ?_
    · simp only
      omega
    · rw [hsent, hbefore, List.append_assoc, htake]

/-- The rest of a packet is written. -/
theorem Writing.finish {host : Host} {pw : PendingWrite} {written : List UInt8}
    (hs : s.Writing accepted) (hwrite : s.buffer.getWrite socket = some pw)
    (helse : ∀ t, t ≠ socket → host.sent t = s.host.sent t)
    (hsent : host.sent socket = s.host.sent socket ++ written)
    (hwritten : written <+: (remaining pw.bytes 0 pw.iovecs).flatten)
    (hfull : pw.bytes + written.length = pw.total) :
  Writing
    { buffer := SocketBuffer.writeComplete { s.buffer with
        writes := modify PendingWrite.socket socket
          (fun pw' => { pw' with bytes := pw.bytes + written.length }) s.buffer.writes } socket
      writePending := s.writePending.erase socket
      host }
    accepted
  := by
  obtain ⟨before, pieces, haccepted, hpieces, htotal, hbytes, hbefore⟩ :=
    (hs.sent socket).busy hwrite
  obtain ⟨htake, -⟩ := take_append_of_remaining hwritten (htotal ▸ hbytes)
  have hkey : ∀ a : PendingWrite, a.socket = socket →
      ({ a with bytes := pw.bytes + written.length } : PendingWrite).socket = socket :=
    fun a h => h
  have hall : Written pw.iovecs.flatten ⟨pw.iovecs.flatten, false⟩ :=
    ⟨List.prefix_rfl, iff_of_true rfl rfl⟩
  have hdone := hs.writeComplete socket { s.buffer with
      writes := modify PendingWrite.socket socket
        (fun pw' => { pw' with bytes := pw.bytes + written.length }) s.buffer.writes }
    (map_modify hkey) (fun t ht => find_modify_of_ne hkey ht) helse
    (forall₂_concat hpieces hall) (by
      rw [hsent, hbefore, List.append_assoc, htake, hfull, htotal, List.take_length,
        flatten_concat])
  rw [← haccepted, Function.update_eq_self] at hdone
  apply hdone

/-- Going on with a write does not accept anything, and sends no more than what is left. -/
theorem Writing.continueWrites (hs : s.Writing accepted) (socket : ℤ) :
  Unread s (s.continueWrites socket)
    ∧ (s.continueWrites socket).Writing (s.acceptedAfter accepted socket)
  := by
  rw [acceptedAfter]
  cases hwrite : s.buffer.getWrite socket with
  | none =>
    have hidle : s.givesUp socket = false ∧ s.continueWrites socket = s := by
      simp only [givesUp, Sockets.continueWrites, hwrite, and_self]
    rw [hidle.1, hidle.2, if_neg Bool.false_ne_true]
    exact ⟨⟨rfl, rfl, rfl⟩, hs⟩
  | some pw =>
    obtain ⟨hreceived, helse, -, hspec⟩ :=
      writev_spec s.host socket (remaining pw.bytes 0 pw.iovecs)
    cases hwritev : s.host.writev socket (remaining pw.bytes 0 pw.iovecs) with
    | mk outcome host =>
    rw [hwritev] at hreceived helse hspec
    by_cases hfailed : outcome = .failed
    · subst hfailed
      obtain ⟨hgives, hcontinue⟩ := continueWrites_failed hwrite hwritev
      rw [hgives, hcontinue, if_pos rfl]
      refine ⟨⟨rfl, rfl, hreceived⟩, ?_⟩
      exact hs.giveUp hwrite (fun t ht => (helse t ht).2) hspec.2
    · obtain ⟨-, written, hwritten, hlength, hsent, -⟩ := writev_ok hwritev hfailed
      obtain ⟨hgives, hcontinue⟩ := continueWrites_ok hwrite hwritev hfailed
      rw [hgives, hcontinue, if_neg Bool.false_ne_true, ← hlength]
      split
      · rename_i hfull
        refine ⟨⟨rfl, rfl, hreceived⟩, ?_⟩
        exact hs.finish hwrite (fun t ht => (helse t ht).2) hsent hwritten hfull
      · rename_i hpart
        refine ⟨⟨rfl, rfl, hreceived⟩, ?_⟩
        exact hs.goOn hwrite (fun t ht => (helse t ht).2) hsent hwritten hpart

/-! ### Other events -/

/-- What is read does not matter to what is written. -/
theorem Writing.of_elsewhere (hs : s.Writing accepted) (helse : Elsewhere socket s s') :
  s'.Writing accepted
  := by
  have hwrite : ∀ t, s'.buffer.getWrite t = s.buffer.getWrite t := by
    intro t
    rw [SocketBuffer.getWrite, SocketBuffer.getWrite, helse.writes]
  constructor
  · rw [helse.writes]
    apply hs.distinct
  · rw [helse.writePending]
    apply hs.nodup
  · intro t
    rw [helse.writePending, hwrite, hs.writePending]
  · intro t
    apply (hs.sent t).congr (hwrite t)
    rw [helse.sent]

/-- What is pending on a socket is dropped when the socket is closed. -/
theorem Writing.close (hs : s.Writing accepted) (socket : ℤ) :
  (s.close socket).Writing (Function.update accepted socket [])
  := by
  have hwrites : (s.close socket).buffer.writes
      = remove PendingWrite.socket socket s.buffer.writes := by
    rw [Sockets.close, SocketBuffer.cleanup]
    simp only
    split <;> rfl
  have hnone : (s.close socket).buffer.getWrite socket = none := by
    rw [SocketBuffer.getWrite, hwrites, find_remove_self hs.distinct]
  have hne : ∀ t, t ≠ socket → (s.close socket).buffer.getWrite t = s.buffer.getWrite t := by
    intro t ht
    rw [SocketBuffer.getWrite, hwrites, find_remove_of_ne ht, SocketBuffer.getWrite]
  apply hs.of_sent _ (hs.nodup.erase socket) _ hne
  · intro t ht
    rw [Sockets.close, Host.close]
    simp only [Function.update_of_ne ht]
  · apply Sent.all hnone [] .nil
    rw [Sockets.close, Host.close]
    simp only [Function.update_self]
    rfl
  · rw [hwrites]
    apply hs.distinct.remove
  · intro t
    by_cases ht : t = socket
    · subst ht
      rw [hnone]
      exact iff_of_false hs.nodup.not_mem_erase Bool.false_ne_true
    · rw [hne t ht, ← hs.writePending]
      apply List.mem_erase_of_ne ht

end Sockets

/-! ### Errors that last -/

/-- After an error there are only errors. -/
def Writev.Lasting (outcomes : List Writev) : Prop :=
  outcomes.Pairwise fun outcome later => outcome = .failed → later = .failed

instance Writev.decidableLasting (outcomes : List Writev) : Decidable (Writev.Lasting outcomes) :=
  inferInstanceAs (Decidable (outcomes.Pairwise _))

namespace Sockets

/-- What is sent on a socket whose errors last, when the packets `packets` have been accepted. -/
structure Lasting (s : Sockets) (socket : ℤ) (packets : List Accepted) : Prop where
  outcomes : Writev.Lasting (s.host.outcomes socket)
  begins : s.host.sent socket <+: (packets.map Accepted.packet).flatten
  failed : (∃ a ∈ packets, a.cut = true) → ∀ outcome ∈ s.host.outcomes socket, outcome = .failed

variable {s s' : Sockets} {accepted : ℤ → List Accepted} {packets : List Accepted} {socket : ℤ}

theorem Lasting.congr (hl : s.Lasting socket packets)
    (houtcomes : s'.host.outcomes socket = s.host.outcomes socket)
    (hsent : s'.host.sent socket = s.host.sent socket) :
  s'.Lasting socket packets
  := by
  constructor
  · rw [houtcomes]
    apply hl.outcomes
  · rw [hsent]
    apply hl.begins
  · rw [houtcomes]
    apply hl.failed

/-- A call of `writev` fails. -/
theorem Lasting.fail {after : List Accepted} (hl : s.Lasting socket packets)
    (hhead : (s.host.outcomes socket).head? = some .failed)
    (houtcomes : s'.host.outcomes socket = (s.host.outcomes socket).tail)
    (hsent : s'.host.sent socket = s.host.sent socket)
    (hpackets : after.map Accepted.packet = packets.map Accepted.packet) :
  s'.Lasting socket after
  := by
  obtain ⟨rest, hrest⟩ := List.head?_eq_some_iff.mp hhead
  have hlasting := hl.outcomes
  rw [hrest, List.tail_cons] at houtcomes
  rw [Writev.Lasting, hrest, List.pairwise_cons] at hlasting
  constructor
  · rw [houtcomes]
    apply hlasting.2
  · rw [hsent, hpackets]
    apply hl.begins
  · intro _ outcome houtcome
    rw [houtcomes] at houtcome
    apply hlasting.1 outcome houtcome rfl

/-- A call of `writev` does not fail. -/
theorem Lasting.write {new : List Accepted} {written : List UInt8} (hl : s.Lasting socket packets)
    (hhead : (s.host.outcomes socket).head? ≠ some .failed)
    (houtcomes : s'.host.outcomes socket = (s.host.outcomes socket).tail)
    (hsent : s'.host.sent socket = s.host.sent socket ++ written)
    (hnil : s.host.outcomes socket = [] → written = []) (hnew : ∀ a ∈ new, a.cut = false)
    (hbegins : (∀ a ∈ packets, a.cut = false) →
      s'.host.sent socket <+: ((packets ++ new).map Accepted.packet).flatten) :
  s'.Lasting socket (packets ++ new)
  := by
  constructor
  · rw [houtcomes]
    apply hl.outcomes.sublist (List.tail_sublist _)
  · by_cases huncut : ∀ a ∈ packets, a.cut = false
    · apply hbegins huncut
    · obtain ⟨a, ha, hcut⟩ : ∃ a ∈ packets, a.cut = true := by simpa using huncut
      have hempty : s.host.outcomes socket = [] := by
        cases hout : s.host.outcomes socket with
        | nil => rfl
        | cons outcome rest =>
          have hfailed := hl.failed ⟨a, ha, hcut⟩ outcome
          rw [hout] at hfailed hhead
          exact absurd (congrArg some (hfailed List.mem_cons_self)) hhead
      rw [hsent, hnil hempty, List.append_nil, List.map_append, List.flatten_append]
      apply hl.begins.trans (List.prefix_append _ _)
  · rintro ⟨a, ha, hcut⟩ outcome houtcome
    rw [houtcomes] at houtcome
    rcases List.mem_append.mp ha with ha | ha
    · apply hl.failed ⟨a, ha, hcut⟩ outcome (List.mem_of_mem_tail houtcome)
    · rw [hnew a ha] at hcut
      contradiction

/-- A packet is accepted, or it is not. -/
theorem Lasting.putdatas (hl : s.Lasting socket (accepted socket)) (hs : s.Writing accepted)
    (iovecs : List (List UInt8)) :
  (s.putdatas socket iovecs).2.Lasting socket (accepted socket ++ s.acceptedOf socket iovecs)
  := by
  by_cases hpending : s.noPendingWrites socket = true
  · have hnone := hs.noPendingWrites_iff.mp hpending
    obtain ⟨-, -, houtcomes, hspec⟩ := writev_spec s.host socket iovecs
    cases hwritev : s.host.writev socket iovecs with
    | mk outcome host =>
    rw [hwritev] at houtcomes hspec
    by_cases hfailed : outcome = .failed
    · subst hfailed
      obtain ⟨hnothing, hput⟩ := putdatas_failed hpending hwritev
      rw [hnothing, hput, List.append_nil]
      exact hl.fail hspec.1 houtcomes hspec.2 rfl
    · obtain ⟨hhead, written, hwritten, -, hsent, hnil⟩ := writev_ok hwritev hfailed
      obtain ⟨haccepted, hput⟩ := putdatas_ok hpending hwritev hfailed
      obtain ⟨pieces, hpieces, hbefore⟩ := (hs.sent socket).idle hnone
      have hbegins : (∀ a ∈ accepted socket, a.cut = false) → host.sent socket <+: List.flatten
          (List.map Accepted.packet (accepted socket ++ [⟨iovecs.flatten, false⟩])) := by
        intro huncut
        rw [hsent, hbefore, pieces_eq hpieces huncut, List.map_append, List.map_singleton,
          flatten_concat]
        apply (List.prefix_append_right_inj _).mpr hwritten
      have hnew : ∀ a ∈ [(⟨iovecs.flatten, false⟩ : Accepted)], a.cut = false := by
        intro a ha
        rw [List.mem_singleton.mp ha]
      rw [haccepted, hput]
      split
      · exact hl.write hhead houtcomes hsent hnil hnew hbegins
      · exact hl.write hhead houtcomes hsent hnil hnew hbegins
  · obtain ⟨hnothing, hput⟩ := putdatas_pending hpending
    rw [hnothing, hput, List.append_nil]
    exact hl

/-- Going on with a write. -/
theorem Lasting.continueWrites (hl : s.Lasting socket (accepted socket)) (hs : s.Writing accepted) :
  (s.continueWrites socket).Lasting socket (s.acceptedAfter accepted socket socket)
  := by
  rw [acceptedAfter]
  cases hwrite : s.buffer.getWrite socket with
  | none =>
    have hidle : s.givesUp socket = false ∧ s.continueWrites socket = s := by
      simp only [givesUp, Sockets.continueWrites, hwrite, and_self]
    rw [hidle.1, hidle.2, if_neg Bool.false_ne_true]
    exact hl
  | some pw =>
    obtain ⟨before, pieces, haccepted, hpieces, htotal, hbytes, hbefore⟩ :=
      (hs.sent socket).busy hwrite
    obtain ⟨-, -, houtcomes, hspec⟩ :=
      writev_spec s.host socket (remaining pw.bytes 0 pw.iovecs)
    cases hwritev : s.host.writev socket (remaining pw.bytes 0 pw.iovecs) with
    | mk outcome host =>
    rw [hwritev] at houtcomes hspec
    by_cases hfailed : outcome = .failed
    · subst hfailed
      obtain ⟨hgives, hcontinue⟩ := continueWrites_failed hwrite hwritev
      rw [hgives, hcontinue, if_pos rfl, Function.update_self]
      exact hl.fail hspec.1 houtcomes hspec.2 (map_cutLast _)
    · obtain ⟨hhead, written, hwritten, -, hsent, hnil⟩ := writev_ok hwritev hfailed
      obtain ⟨hgives, hcontinue⟩ := continueWrites_ok hwrite hwritev hfailed
      obtain ⟨htake, -⟩ := take_append_of_remaining hwritten (htotal ▸ hbytes)
      have hbegins : (∀ a ∈ accepted socket, a.cut = false) →
          host.sent socket <+: ((accepted socket ++ []).map Accepted.packet).flatten := by
        intro huncut
        rw [haccepted] at huncut ⊢
        rw [hsent, hbefore, List.append_assoc, htake, List.append_nil,
          pieces_eq hpieces fun a ha => huncut a (List.mem_append_left _ ha), List.map_append,
          List.map_singleton, flatten_concat]
        apply (List.prefix_append_right_inj _).mpr (List.take_prefix _ _)
      have hnew : ∀ a ∈ ([] : List Accepted), a.cut = false := by
        intro a ha
        contradiction
      rw [hgives, hcontinue, if_neg Bool.false_ne_true, ← List.append_nil (accepted socket)]
      split
      · exact hl.write hhead houtcomes hsent hnil hnew hbegins
      · exact hl.write hhead houtcomes hsent hnil hnew hbegins

end Sockets

end Mqtt
