import IotDeviceSdk.Foundation.Handshake
import IotDeviceSdk.Mqtt.ProtocolClient

/-!
# Handlers as parties of handshakes

For each message id, a client is the sender of the messages of quality of service 2 that it
publishes with this id, and the receiver of those that it gets with it.  What it does with a packet
is what the parties of a handshake may do (`Client.Kept.cycle`), and so is what it does for itself
(`Client.Kept.startPublish`, `Client.Kept.retry`).
-/

namespace Mqtt

open CString Keyed Handshake

/-- What is handed over: a topic, a payload, and whether it is to be retained. -/
abbrev Text : Type :=
  List UInt8 × List UInt8 × Bool

/-- The text of a message that is published, whose topic ends at the first zero. -/
def Messages.text (m : Messages) : Text :=
  (cstr m.publish.topic, m.publish.payload, m.retain)

/-- The text of a message that was received. -/
def Messages.kept (m : Messages) : Text :=
  (m.publish.topic, m.publish.payload, m.retain)

/-- The text of a message for the application. -/
def Message.text (mm : Message) : Text :=
  (mm.topic, mm.payload, mm.retained)

namespace Packet

/-- What a packet is for the exchange with a message id, on its way to the receiver. -/
def forth (k : ℕ) : Packet → Option (Forth Text)
  | publish pack msgId _ qos retained =>
    if qos = 2 ∧ msgId = k then some (.data (cstr pack.topic, pack.payload, retained)) else none
  | ack type msgId _ => if type = .pubrel ∧ msgId = k then some .release else none

/-- And on its way to the sender. -/
def back (k : ℕ) : Packet → Option Back
  | publish .. => none
  | ack type msgId _ =>
    if type = .pubrec ∧ msgId = k then some .received
    else if type = .pubcomp ∧ msgId = k then some .completed
    else none

end Packet

/-- What the sender of a message is at. -/
def Messages.stage (m : Messages) : Stage Text :=
  if m.qos = 2 ∧ m.nextMessageType = some .pubrec then .waiting m.text
  else if m.qos = 2 ∧ m.nextMessageType = some .pubcomp then .releasing m.text
  else .idle

/-- A message whose release has been sent. -/
theorem stage_of_pubcomp {m : Messages} (hqos : m.qos = 2)
    (hnext : m.nextMessageType = some .pubcomp) :
  m.stage = .releasing m.text
  := by
  rw [Messages.stage, if_neg fun h => absurd (hnext.symm.trans h.2) (by simp),
    if_pos ⟨hqos, hnext⟩]

/-- The messages that are waited for are known. -/
def Messages.Proper (m : Messages) : Prop :=
  m.qos = 2 ∨ m.nextMessageType = none

/-- The messages with a quality of service and a message id. -/
def exchanged (qos : Fin 4) (k : ℕ) (messages : List Message) : List Text :=
  (messages.filter fun mm => mm.qos = qos ∧ mm.msgid = k).map Message.text

theorem exchanged_append (qos : Fin 4) (k : ℕ) (messages messages' : List Message) :
  exchanged qos k (messages ++ messages') = exchanged qos k messages ++ exchanged qos k messages'
  := by
  rw [exchanged, List.filter_append, List.map_append]
  rfl

namespace Client

variable {σ : Type*}

/-- What the sender of the messages with an id is at. -/
def stage (k : ℕ) (c : Client σ) : Stage Text :=
  (find Messages.msgid k c.outboundMsgs).elim .idle Messages.stage

/-- What the receiver of the messages with an id has stored. -/
def stored (k : ℕ) (c : Client σ) : Option Text :=
  (find Messages.msgid k c.inboundMsgs).map Messages.kept

/-- The messages that were received with an id. -/
def delivered (k : ℕ) (c : Client σ) : List Text :=
  exchanged 2 k c.inbox.received

/-- What holds of the messages that are kept, of the packets that were sent, where no release is
marked as a duplicate, and of the session, which is not cleaned. -/
structure Kept (c : Client σ) : Prop where
  inbound : Distinct Messages.msgid c.inboundMsgs
  stored : ∀ m ∈ c.inboundMsgs, m.qos = 2 ∧ m.nextMessageType = some .pubrel
  outbound : Distinct Messages.msgid c.outboundMsgs
  proper : ∀ m ∈ c.outboundMsgs, m.Proper
  sent : ∀ msgId, .ack .pubrel msgId true ∉ c.sent
  session : c.cleansession = false

variable {N : Net σ} {L : Library} {c c' : Client σ} {p : Packet}

/-- What has been done is for each exchange something that its parties may do when they take a
packet. -/
def Handled (p : Packet) (c c' : Client σ) : Prop :=
  ∃ ps, c'.sent = c.sent ++ ps ∧ ∀ k,
    Answers (p.back k) (c.stage k) (ps.filterMap (Packet.forth k)) (c'.stage k)
    ∧ Receives (p.forth k) (c.stored k) (c.delivered k) (ps.filterMap (Packet.back k))
      (c'.stored k) (c'.delivered k)

/-! ### Sending -/

/-- Sending a packet changes the connection, and the packet is added to those that were sent or it
is not. -/
theorem send_eq (N : Net σ) (c : Client σ) (p : Packet) :
  ∃ ps net, ps.Sublist [p] ∧ (c.send N p).2 = { c with net, sent := c.sent ++ ps }
  := by
  rw [send]
  by_cases hrc : (N.send c.net p).1 = .error
  · refine ⟨[], (N.send c.net p).2, List.nil_sublist _, ?_⟩
    simp only [if_pos hrc, List.append_nil]
  · refine ⟨[p], (N.send c.net p).2, List.Sublist.refl _, ?_⟩
    simp only [if_neg hrc]

/-- A packet that does not matter. -/
theorem filterMap_sublist_eq_nil {α β : Type*} {f : α → Option β} {l : List α} {a : α}
    (h : l.Sublist [a]) (ha : f a = none) :
  l.filterMap f = []
  := by
  have hsub := h.filterMap f
  rw [List.filterMap_cons_none ha] at hsub
  exact List.sublist_nil.mp hsub

theorem filterMap_sublist {α β : Type*} {f : α → Option β} {l : List α} {a : α} {b : β}
    (h : l.Sublist [a]) (ha : f a = some b) :
  (l.filterMap f).Sublist [b]
  := by
  have hsub := h.filterMap f
  rw [List.filterMap_cons_some ha] at hsub
  exact hsub

/-- Sending a packet keeps what holds, unless it is a release that is marked as a duplicate. -/
theorem Kept.send (h : c.Kept) {ps : List Packet} (net : σ) (hps : ps.Sublist [p])
    (hp : ∀ msgId, p ≠ .ack .pubrel msgId true) :
  Kept { c with net, sent := c.sent ++ ps }
  := by
  refine ⟨h.inbound, h.stored, h.outbound, h.proper, ?_, h.session⟩
  intro msgId hmem
  rcases List.mem_append.mp hmem with hmem | hmem
  · apply h.sent msgId hmem
  · have hone := hps.subset hmem
    exact hp msgId (List.mem_singleton.mp hone).symm

/-! ### The kept messages -/

theorem stage_of_find_none {k : ℕ} (h : find Messages.msgid k c.outboundMsgs = none) :
  c.stage k = .idle
  := by
  rw [stage, h]
  rfl

theorem stage_of_find {k : ℕ} {m : Messages} (h : find Messages.msgid k c.outboundMsgs = some m) :
  c.stage k = m.stage
  := by
  rw [stage, h]
  rfl

/-- A sender that waits for the end of an exchange keeps the message. -/
theorem find_of_releasing {k : ℕ} {text : Text} (h : c.stage k = .releasing text) :
  ∃ m, find Messages.msgid k c.outboundMsgs = some m ∧ m.nextMessageType = some .pubcomp
    ∧ m.text = text
  := by
  rw [stage] at h
  cases hfind : find Messages.msgid k c.outboundMsgs with
  | none =>
    rw [hfind] at h
    contradiction
  | some m =>
    rw [hfind, Option.elim, Messages.stage] at h
    split at h
    · contradiction
    · split at h
      · rename_i hpubcomp
        exact ⟨m, rfl, hpubcomp.2, Stage.releasing.inj h⟩
      · contradiction

theorem stage_congr {k : ℕ} (h : find Messages.msgid k c'.outboundMsgs
    = find Messages.msgid k c.outboundMsgs) :
  c'.stage k = c.stage k
  := by
  rw [stage, stage, h]

theorem stored_congr {k : ℕ} (h : find Messages.msgid k c'.inboundMsgs
    = find Messages.msgid k c.inboundMsgs) :
  c'.stored k = c.stored k
  := by
  rw [stored, stored, h]

/-- One more message is received. -/
theorem exchanged_processPublication (L : Library) (c : Client σ) (mm : Message) (qos : Fin 4)
    (k : ℕ) :
  exchanged qos k (c.processPublication L mm).inbox.received
    = exchanged qos k c.inbox.received
      ++ if mm.qos = qos ∧ mm.msgid = k then [mm.text] else []
  := by
  rw [processPublication]
  simp only [L.received_processPublication, exchanged_append]
  congr 1
  by_cases h : mm.qos = qos ∧ mm.msgid = k
  · rw [if_pos h, exchanged, List.filter_cons_of_pos (by simpa using h)]
    rfl
  · rw [if_neg h, exchanged, List.filter_cons_of_neg (by simpa using h)]
    rfl

/-- One more message of quality of service 2 is delivered. -/
theorem delivered_processPublication (L : Library) (c : Client σ) (mm : Message) (k : ℕ) :
  (c.processPublication L mm).delivered k
    = c.delivered k ++ if mm.qos = 2 ∧ mm.msgid = k then [mm.text] else []
  :=
  exchanged_processPublication L c mm 2 k

/-! ### Handlers -/

theorem Handled.refl (p : Packet) (c : Client σ) :
  Handled p c c
  :=
  ⟨[], (List.append_nil _).symm, fun _ => ⟨.nothing _ _, .nothing _ _ _⟩⟩

/-- Nothing has been done for the sender. -/
theorem answers_of_eq {ps : List Packet} {k : ℕ} (hps : ps.filterMap (Packet.forth k) = [])
    (hstage : c'.stage k = c.stage k) :
  Answers (p.back k) (c.stage k) (ps.filterMap (Packet.forth k)) (c'.stage k)
  := by
  rw [hps, hstage]
  apply Answers.nothing

/-- Nothing has been done for the receiver. -/
theorem receives_of_eq {ps : List Packet} {k : ℕ} (hps : ps.filterMap (Packet.back k) = [])
    (hstored : c'.stored k = c.stored k) (hdelivered : c'.delivered k = c.delivered k) :
  Receives (p.forth k) (c.stored k) (c.delivered k) (ps.filterMap (Packet.back k))
    (c'.stored k) (c'.delivered k)
  := by
  rw [hps, hstored, hdelivered]
  apply Receives.nothing

theorem Kept.processPublication (h : c.Kept) (mm : Message) :
  (c.processPublication L mm).Kept
  :=
  ⟨h.inbound, h.stored, h.outbound, h.proper, h.sent, h.session⟩

/-- A message of another quality of service is received besides. -/
theorem Handled.processPublication (h : Handled p c c') (L : Library) {mm : Message}
    (hmm : mm.qos ≠ 2) :
  Handled p c (c'.processPublication L mm)
  := by
  obtain ⟨ps, hsent, heach⟩ := h
  refine ⟨ps, hsent, ?_⟩
  intro k
  obtain ⟨hanswers, hreceives⟩ := heach k
  refine ⟨hanswers, ?_⟩
  rw [delivered_processPublication, if_neg fun h => hmm h.1, List.append_nil]
  exact hreceives

/-- An acknowledgement of quality of service 1 is no part of an exchange. -/
theorem handled_puback (N : Net σ) (p : Packet) (c : Client σ) (msgId : ℕ) :
  Handled p c (c.send N (.ack .puback msgId false)).2
  := by
  obtain ⟨ps, net, hps, heq⟩ := send_eq N c (.ack .puback msgId false)
  rw [heq]
  refine ⟨ps, rfl, ?_⟩
  intro k
  exact ⟨answers_of_eq (filterMap_sublist_eq_nil hps rfl) rfl,
    receives_of_eq (filterMap_sublist_eq_nil hps rfl) rfl rfl⟩

/-- A message is stored. -/
theorem Kept.store (h : c.Kept) {m : Messages} (hm : m.qos = 2 ∧ m.nextMessageType = some .pubrel) :
  Kept { c with inboundMsgs := put Messages.msgid m c.inboundMsgs }
  := by
  refine ⟨h.inbound.put, ?_, h.outbound, h.proper, h.sent, h.session⟩
  intro m' hm'
  rcases mem_put hm' with hm' | rfl
  · apply h.stored m' hm'
  · apply hm

/-- A publication is stored, and that is answered. -/
theorem handled_store (N : Net σ) {pack : Publication} {msgId : ℕ} {dup retained : Bool}
    {m : Messages} (hmsgid : m.msgid = msgId)
    (hkept : m.kept = (cstr pack.topic, pack.payload, retained)) :
  Handled (.publish pack msgId dup 2 retained) c
    (Client.send N { c with inboundMsgs := put Messages.msgid m c.inboundMsgs }
      (.ack .pubrec msgId false)).2
  := by
  obtain ⟨ps, net, hps, heq⟩ := send_eq N
    { c with inboundMsgs := put Messages.msgid m c.inboundMsgs } (.ack .pubrec msgId false)
  rw [heq]
  refine ⟨ps, rfl, ?_⟩
  intro k
  refine ⟨answers_of_eq (filterMap_sublist_eq_nil hps rfl) rfl, ?_⟩
  subst hmsgid
  by_cases hk : m.msgid = k
  · subst hk
    have hforth : Packet.forth m.msgid (.publish pack m.msgid dup 2 retained)
        = some (.data m.kept) := by
      rw [Packet.forth, if_pos ⟨rfl, rfl⟩, hkept]
    have hback : Packet.back m.msgid (.ack .pubrec m.msgid false) = some .received :=
      if_pos ⟨rfl, rfl⟩
    rw [hforth, stored, stored, find_put_self]
    apply Receives.data
    apply filterMap_sublist hps hback
  · have hback : Packet.back k (.ack .pubrec m.msgid false) = none := by
      rw [Packet.back, if_neg fun h => hk h.2, if_neg fun h => hk h.2]
    refine receives_of_eq (filterMap_sublist_eq_nil hps hback) ?_ rfl
    apply stored_congr
    apply find_put_of_ne fun h => hk h.symm

/-- A publication is received, or stored if its quality of service is 2. -/
theorem Kept.handlePublishes (h : c.Kept) (N : Net σ) (L : Library) (pack : Publication)
    (msgId : ℕ) (dup : Bool) (qos : Fin 4) (retained : Bool) {publish : Publish}
    {beyond : List UInt8}
    (hpublish : Packet.pack beyond (.publish pack msgId dup qos retained) = .publish publish) :
  (c.handlePublishes N L publish).2.Kept
    ∧ Handled (.publish pack msgId dup qos retained) c (c.handlePublishes N L publish).2
  := by
  obtain rfl := Pack.publish.inj hpublish
  rw [Client.handlePublishes]
  simp only
  split
  · rename_i hqos
    refine ⟨h.processPublication _, (Handled.refl _ c).processPublication L ?_⟩
    exact fun h2 => absurd (hqos.symm.trans h2) (by decide)
  · split
    · exact ⟨h, Handled.refl _ c⟩
    · split
      · rename_i hqos
        obtain ⟨ps, net, hps, heq⟩ :=
          send_eq N c (.ack .puback (if 0 < qos then msgId else 0) false)
        refine ⟨?_, (handled_puback N _ c _).processPublication L ?_⟩
        · rw [heq]
          apply Kept.processPublication
          apply h.send net hps
          intro j hj
          injection hj
          contradiction
        · exact fun h2 => absurd (hqos.symm.trans h2) (by decide)
      · split
        · rename_i hqos
          subst hqos
          have hid : (if (0 : Fin 4) < 2 then msgId else 0) = msgId := if_pos (by decide)
          rw [hid]
          constructor
          · obtain ⟨ps, net, hps, heq⟩ := send_eq N
              { c with inboundMsgs := put Messages.msgid _ c.inboundMsgs }
              (.ack .pubrec msgId false)
            rw [heq]
            refine (h.store ⟨rfl, rfl⟩).send net hps ?_
            intro j hj
            injection hj
            contradiction
          · apply handled_store
            · exact hid
            · rw [Messages.kept, storePublication]
              simp only [Int.toNat_natCast, List.take_left]
        · exact ⟨h, Handled.refl _ c⟩

/-! ### Answers -/

theorem Kept.remove_outbound (h : c.Kept) (msgId : ℕ) :
  Kept { c with outboundMsgs := remove Messages.msgid msgId c.outboundMsgs }
  := by
  refine ⟨h.inbound, h.stored, h.outbound.remove, ?_, h.sent, h.session⟩
  intro m hm
  apply h.proper m (remove_sublist.subset hm)

/-- The end of an exchange. -/
theorem handled_remove (h : c.Kept) {msgId : ℕ} {m : Messages}
    (hm : find Messages.msgid msgId c.outboundMsgs = some m)
    (hanswers : Answers (p.back msgId) m.stage [] .idle) :
  Handled p c { c with outboundMsgs := remove Messages.msgid msgId c.outboundMsgs }
  := by
  refine ⟨[], (List.append_nil _).symm, ?_⟩
  intro k
  refine ⟨?_, receives_of_eq rfl rfl rfl⟩
  by_cases hk : k = msgId
  · subst hk
    have hidle :
        stage k { c with outboundMsgs := remove Messages.msgid k c.outboundMsgs } = .idle :=
      stage_of_find_none (find_remove_self h.outbound)
    rw [hidle, stage_of_find hm]
    exact hanswers
  · refine answers_of_eq rfl ?_
    apply stage_congr
    apply find_remove_of_ne hk

/-- The end of an exchange of quality of service 1 is none of a handshake. -/
theorem Kept.handlePubacks (h : c.Kept) (msgId : ℕ) (dup : Bool) :
  (c.handlePubacks msgId).2.Kept ∧ Handled (.ack .puback msgId dup) c (c.handlePubacks msgId).2
  := by
  rw [Client.handlePubacks]
  split
  · exact ⟨h, Handled.refl _ c⟩
  · rename_i m hm
    split
    · exact ⟨h, Handled.refl _ c⟩
    · rename_i hqos
      have hstage : m.stage = .idle := by
        have hone : m.qos = 1 := not_not.mp hqos
        rw [Messages.stage, hone]
        rfl
      refine ⟨h.remove_outbound msgId, handled_remove h hm ?_⟩
      rw [hstage]
      apply Answers.nothing

/-- The end of an exchange of quality of service 2 is that of a handshake. -/
theorem Kept.handlePubcomps (h : c.Kept) (msgId : ℕ) (dup : Bool) :
  (c.handlePubcomps msgId).2.Kept ∧ Handled (.ack .pubcomp msgId dup) c (c.handlePubcomps msgId).2
  := by
  rw [Client.handlePubcomps]
  split
  · exact ⟨h, Handled.refl _ c⟩
  · rename_i m hm
    split
    · exact ⟨h, Handled.refl _ c⟩
    · rename_i hqos
      split
      · exact ⟨h, Handled.refl _ c⟩
      · rename_i hnext
        have hstage : m.stage = .releasing m.text :=
          stage_of_pubcomp (not_not.mp hqos) (not_not.mp hnext)
        have hback : Packet.back msgId (.ack .pubcomp msgId dup) = some .completed := by
          rw [Packet.back, if_neg fun h => absurd h.1 (by decide), if_pos ⟨rfl, rfl⟩]
        refine ⟨h.remove_outbound msgId, handled_remove h hm ?_⟩
        rw [hstage, hback]
        apply Answers.completed

/-- A release is sent for a message. -/
theorem Kept.handlePubrecs (h : c.Kept) (N : Net σ) (msgId : ℕ) (dup : Bool) (time : ℤ) :
  (c.handlePubrecs N msgId time).2.Kept
    ∧ Handled (.ack .pubrec msgId dup) c (c.handlePubrecs N msgId time).2
  := by
  rw [Client.handlePubrecs]
  split
  · exact ⟨h, Handled.refl _ c⟩
  · rename_i m hm
    split
    · exact ⟨h, Handled.refl _ c⟩
    · rename_i hqos
      split
      · exact ⟨h, Handled.refl _ c⟩
      · rename_i hnext
        obtain ⟨ps, net, hps, heq⟩ := send_eq N c (.ack .pubrel msgId false)
        have hkey : ∀ a : Messages, a.msgid = msgId →
            { a with nextMessageType := some .pubcomp, lastTouch := time }.msgid = msgId :=
          fun a h => h
        simp only [heq]
        constructor
        · refine ⟨h.inbound, h.stored, h.outbound.modify hkey, ?_, ?_, h.session⟩
          · intro m' hm'
            rcases mem_modify hm' with hm' | ⟨a, ha, rfl⟩
            · apply h.proper m' hm'
            · rw [hm] at ha
              obtain rfl := Option.some.inj ha
              exact .inl (not_not.mp hqos)
          · refine (h.send net hps ?_).sent
            intro j hj
            injection hj
            contradiction
        · refine ⟨ps, rfl, ?_⟩
          intro k
          refine ⟨?_, receives_of_eq (filterMap_sublist_eq_nil hps rfl) rfl rfl⟩
          by_cases hk : msgId = k
          · subst hk
            have hfind := find_modify_self (f := fun m : Messages =>
              { m with nextMessageType := some .pubcomp, lastTouch := time }) hm
              (hkey m (key_of_find hm))
            have hstage : m.stage = .waiting m.text := by
              rw [Messages.stage, if_pos ⟨not_not.mp hqos, not_not.mp hnext⟩]
            have hback : Packet.back msgId (.ack .pubrec msgId dup) = some .received :=
              if_pos ⟨rfl, rfl⟩
            have hforth : Packet.forth msgId (.ack .pubrel msgId false) = some .release :=
              if_pos ⟨rfl, rfl⟩
            have hstage' : Messages.stage
                { m with nextMessageType := some .pubcomp, lastTouch := time }
                = .releasing m.text := stage_of_pubcomp (not_not.mp hqos) rfl
            rw [stage_of_find hm, stage_of_find hfind, hstage, hstage', hback]
            apply Answers.received
            apply filterMap_sublist hps hforth
          · have hforth : Packet.forth k (.ack .pubrel msgId false) = none :=
              if_neg fun h => hk h.2
            refine answers_of_eq (filterMap_sublist_eq_nil hps hforth) ?_
            apply stage_congr
            apply find_modify_of_ne hkey fun h => hk h.symm

/-! ### Releases -/

/-- A message that was stored is received. -/
theorem handled_release (h : c.Kept) (N : Net σ) (L : Library) {msgId : ℕ} {m : Messages}
    (hm : find Messages.msgid msgId c.inboundMsgs = some m) (dup : Bool) :
  Handled (.ack .pubrel msgId dup) c
    { (c.send N (.ack .pubcomp msgId false)).2.processPublication L
        ⟨m.publish.topic, m.publish.payload, m.qos, m.retain, false, m.msgid⟩ with
      inboundMsgs := remove Messages.msgid msgId c.inboundMsgs }
  := by
  obtain ⟨ps, net, hps, heq⟩ := send_eq N c (.ack .pubcomp msgId false)
  rw [heq]
  refine ⟨ps, rfl, ?_⟩
  intro k
  refine ⟨answers_of_eq (filterMap_sublist_eq_nil hps rfl) rfl, ?_⟩
  obtain ⟨hqos, -⟩ := h.stored m (mem_of_find hm)
  have hmsgid : m.msgid = msgId := key_of_find hm
  have hdelivered := delivered_processPublication L c
    ⟨m.publish.topic, m.publish.payload, m.qos, m.retain, false, m.msgid⟩ k
  by_cases hk : msgId = k
  · subst hk
    rw [if_pos ⟨hqos, hmsgid⟩] at hdelivered
    have hforth : Packet.forth msgId (.ack .pubrel msgId dup) = some .release :=
      if_pos ⟨rfl, rfl⟩
    have hback : Packet.back msgId (.ack .pubcomp msgId false) = some .completed := by
      rw [Packet.back, if_neg fun h => absurd h.1 (by decide), if_pos ⟨rfl, rfl⟩]
    have hstored : c.stored msgId = some m.kept := by
      rw [stored, hm]
      rfl
    have hnone : stored msgId
        { c with inboundMsgs := remove Messages.msgid msgId c.inboundMsgs } = none := by
      rw [stored, find_remove_self h.inbound]
      rfl
    have hreceives := Receives.release m.kept (c.delivered msgId)
      (filterMap_sublist hps hback)
    rw [hforth, hstored]
    rw [← hnone] at hreceives
    exact hdelivered ▸ hreceives
  · rw [if_neg fun h => hk (hmsgid.symm.trans h.2), List.append_nil] at hdelivered
    have hback : Packet.back k (.ack .pubcomp msgId false) = none := by
      rw [Packet.back, if_neg fun h => absurd h.1 (by decide), if_neg fun h => hk h.2]
    refine receives_of_eq (filterMap_sublist_eq_nil hps hback) ?_ hdelivered
    apply stored_congr
    apply find_remove_of_ne fun h => hk h.symm

/-- A release for which nothing is stored is not answered, unless it is marked as a duplicate. -/
theorem Kept.handlePubrels (h : c.Kept) (N : Net σ) (L : Library) {header : Header}
    (hdup : header.dup = false) (msgId : ℕ) (dup : Bool) :
  (c.handlePubrels N L header msgId).2.Kept
    ∧ Handled (.ack .pubrel msgId dup) c (c.handlePubrels N L header msgId).2
  := by
  rw [Client.handlePubrels]
  split
  · rw [hdup, if_pos Bool.false_ne_true]
    exact ⟨h, Handled.refl _ c⟩
  · rename_i m hm
    obtain ⟨hqos, hnext⟩ := h.stored m (mem_of_find hm)
    rw [if_neg (not_not.mpr hqos), if_neg (not_not.mpr hnext)]
    split
    · exact ⟨h, Handled.refl _ c⟩
    · obtain ⟨ps, net, hps, heq⟩ := send_eq N c (.ack .pubcomp msgId false)
      have hinbound : (c.send N (.ack .pubcomp msgId false)).2.inboundMsgs = c.inboundMsgs := by
        rw [heq]
      have hsend : Kept (c.send N (.ack .pubcomp msgId false)).2 := by
        rw [heq]
        apply h.send net hps
        intro j hj
        injection hj
        contradiction
      have hreleased := handled_release h N L hm dup
      rw [← hinbound] at hreleased
      refine ⟨⟨hsend.inbound.remove, ?_, hsend.outbound, hsend.proper, hsend.sent,
        hsend.session⟩, hreleased⟩
      intro m' hm'
      apply hsend.stored m' (remove_sublist.subset hm')

/-! ### Packets -/

/-- What a client does with a packet is what the parties of each exchange may do. -/
theorem Kept.cycle (h : c.Kept) (N : Net σ) (L : Library)
    (hp : ∀ msgId, p ≠ .ack .pubrel msgId true) (time : ℤ) (beyond : List UInt8) :
  (c.cycle N L time (p.pack beyond)).2.Kept
    ∧ Handled p c (c.cycle N L time (p.pack beyond)).2
  := by
  cases p with
  | publish pack msgId dup qos retained =>
    apply h.handlePublishes N L pack msgId dup qos retained rfl
  | ack type msgId dup =>
    rw [Packet.pack, Client.cycle]
    cases type with
    | puback => apply h.handlePubacks
    | pubcomp => apply h.handlePubcomps
    | pubrec => apply h.handlePubrecs
    | pubrel =>
      have hdup : dup = false := by
        cases dup with
        | false => rfl
        | true => exact absurd rfl (hp msgId)
      apply h.handlePubrels N L hdup
    | connect | connack | publish | subscribe | suback | unsubscribe | unsuback | pingreq
    | pingresp | disconnect => exact ⟨h, Handled.refl _ c⟩

end Client

end Mqtt
