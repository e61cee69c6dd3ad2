import IotDeviceSdk.Mqtt.ProtocolClient.MessageIds

/-!
# What a client sends

A client changes its connection only by sending packets, and when the messages that it publishes
fit their packets, all packets that it sends do.  So what is kept by sending packets that fit is
kept by everything that a client does (`Client.Holds.cycle`, `Client.Holds.publish`,
`Client.Holds.startPublish`, `Client.Holds.retry`).
-/

namespace Mqtt

open Keyed

/-- A message that fits its packets. -/
def Messages.Fits (m : Messages) : Prop :=
  Packet.Fits (.publish m.publish m.msgid true m.qos m.retain)

namespace Client

variable {σ : Type*} {N : Net σ} {L : Library} {P : σ → List Packet → Prop} {c c' : Client σ}

/-- Something holds of the connection and of what was sent on it, and the messages that are kept
fit their packets. -/
structure Holds (P : σ → List Packet → Prop) (c : Client σ) : Prop where
  net : P c.net c.sent
  msgID : c.msgID ≤ MAX_MSG_ID
  fits : ∀ m ∈ c.outboundMsgs, m.Fits

/-- It goes on to hold when packets that fit are sent. -/
def Stable (N : Net σ) (P : σ → List Packet → Prop) : Prop :=
  ∀ (c : Client σ) (p : Packet), p.Fits → P c.net c.sent →
    P (c.send N p).2.net (c.send N p).2.sent

variable (hP : Stable N P)

include hP

/-- It holds after a packet that fits is sent. -/
theorem Holds.send (h : c.Holds P) {p : Packet} (hp : p.Fits) :
  (c.send N p).2.Holds P
  :=
  ⟨hP c p hp h.net, h.msgID, h.fits⟩

/-- The answers to a publication fit. -/
theorem Holds.handlePublishes (h : c.Holds P) {publish : Publish} (hid : publish.msgId < 65536) :
  (c.handlePublishes N L publish).2.Holds P
  := by
  rw [Client.handlePublishes]
  split
  · exact ⟨h.net, h.msgID, h.fits⟩
  · split
    · exact h
    · split
      · have hsend := h.send hP (p := .ack .puback publish.msgId false) ⟨.inl rfl, hid⟩
        exact ⟨hsend.net, hsend.msgID, hsend.fits⟩
      · split
        · have hstore : Holds P { c with
              inboundMsgs := put Messages.msgid (storePublication publish) c.inboundMsgs } :=
            ⟨h.net, h.msgID, h.fits⟩
          exact hstore.send hP (p := .ack .pubrec publish.msgId false) ⟨.inr (.inl rfl), hid⟩
        · exact h

/-- So does the answer to a release. -/
theorem Holds.handlePubrels (h : c.Holds P) (header : Header) {msgId : ℕ} (hid : msgId < 65536) :
  (c.handlePubrels N L header msgId).2.Holds P
  := by
  have hsend := h.send hP (p := .ack .pubcomp msgId false) ⟨.inr (.inr (.inr rfl)), hid⟩
  rw [Client.handlePubrels]
  split
  · split
    · exact h
    · split
      · exact h
      · exact hsend
  · split
    · exact h
    · split
      · exact h
      · split
        · exact h
        · exact ⟨hsend.net, hsend.msgID, hsend.fits⟩

omit hP in
/-- Fewer messages are kept. -/
theorem Holds.remove (h : c.Holds P) (msgId : ℕ) :
  Holds P { c with outboundMsgs := remove Messages.msgid msgId c.outboundMsgs }
  :=
  ⟨h.net, h.msgID, fun m hm => h.fits m (remove_sublist.subset hm)⟩

omit hP in
theorem Holds.handlePubacks (h : c.Holds P) (msgId : ℕ) :
  (c.handlePubacks msgId).2.Holds P
  := by
  rw [Client.handlePubacks]
  split
  · exact h
  · split
    · exact h
    · apply h.remove

omit hP in
theorem Holds.handlePubcomps (h : c.Holds P) (msgId : ℕ) :
  (c.handlePubcomps msgId).2.Holds P
  := by
  rw [Client.handlePubcomps]
  split
  · exact h
  · split
    · exact h
    · split
      · exact h
      · apply h.remove

/-- A release fits. -/
theorem Holds.handlePubrecs (h : c.Holds P) {msgId : ℕ} (hid : msgId < 65536) (time : ℤ) :
  (c.handlePubrecs N msgId time).2.Holds P
  := by
  have hsend := h.send hP (p := .ack .pubrel msgId false) ⟨.inr (.inr (.inl rfl)), hid⟩
  rw [Client.handlePubrecs]
  split
  · exact h
  · split
    · exact h
    · split
      · exact h
      · refine ⟨hsend.net, hsend.msgID, ?_⟩
        intro m hm
        rcases mem_modify hm with hm | ⟨a, ha, rfl⟩
        · apply hsend.fits m hm
        · exact hsend.fits a (mem_of_find ha)

/-- What holds goes on to hold when a packet is handled. -/
theorem Holds.cycle (h : c.Holds P) {p : Packet} (hp : p.Fits) (time : ℤ) (beyond : List UInt8) :
  (c.cycle N L time (p.pack beyond)).2.Holds P
  := by
  cases p with
  | publish pack msgId dup qos retained =>
    apply h.handlePublishes hP
    change (if 0 < qos then msgId else 0) < 65536
    split
    · apply hp.2.1
    · decide
  | ack type msgId dup =>
    obtain ⟨-, hid⟩ := hp
    have hack (header : Header) : (c.cycle N L time (.ack header msgId)).2.Holds P := by
      rw [Client.cycle]
      split
      · apply h.handlePubacks
      · split
        · apply h.handlePubcomps
        · split
          · apply h.handlePubrecs hP hid
          · split
            · apply h.handlePubrels hP header hid
            · exact h
    apply hack

/-- A publication that fits is sent and kept. -/
theorem Holds.startPublish (h : c.Holds P) {publish : Publication} {msgId : ℕ} {qos : Fin 4}
    {retained : Bool} (hp : Packet.Fits (.publish publish msgId false qos retained)) (time : ℤ) :
  (c.startPublish N publish msgId qos retained time).2.Holds P
  := by
  rw [Client.startPublish]
  split
  · apply Holds.send hP _ hp
    refine ⟨h.net, h.msgID, ?_⟩
    intro m hm
    rcases List.mem_append.mp hm with hm | hm
    · apply h.fits m hm
    · obtain rfl := List.mem_singleton.mp hm
      exact hp
  · apply h.send hP hp

/-- A publication fits with whatever message id is assigned. -/
theorem Holds.publish (h : c.Holds P) {pack : Publication}
    (hpack : ∀ msgId < 65536, ∀ qos retained,
      Packet.Fits (.publish pack msgId false qos retained))
    (qos : Fin 4) (retained : Bool) (time : ℤ) :
  (c.publish N pack qos retained time).Holds P
  := by
  rw [Client.publish]
  split
  · exact h
  · split
    · split
      · exact h
      · rename_i c₁ hassign
        have hcases := assignMsgId_cases h.msgID
        rw [hassign] at hcases
        rw [hcases.1]
        exact h
      · rename_i msgid c₁ hne hassign
        obtain ⟨rfl, -, hmax, -⟩ := assignMsgId_first h.msgID hassign hne
        have hassigned : Holds P { c with msgID := msgid } := ⟨h.net, hmax, h.fits⟩
        apply hassigned.startPublish hP
        apply hpack
        exact Nat.lt_succ_of_le hmax
    · apply h.startPublish hP
      apply hpack 0 (by decide)

omit hP in
/-- The packet of a message that fits, when it is sent again. -/
theorem fits_retryPacket {m : Messages} (hm : m.Fits) {p : Packet} (h : retryPacket m = some p) :
  p.Fits
  := by
  rw [retryPacket] at h
  split at h
  · obtain rfl := Option.some.inj h
    exact hm
  · split at h
    · obtain rfl := Option.some.inj h
      exact ⟨.inr (.inr (.inl rfl)), hm.2.1⟩
    · contradiction

/-- Sending again keeps it, and the messages that are left go on to fit. -/
theorem Holds.retries (h : c.Holds P) (now time : ℤ) (regardless : Bool) {ms : List Messages}
    (hms : ∀ m ∈ ms, m.Fits) :
  (retries N now time regardless ms c).2.Holds P
    ∧ ∀ m ∈ (retries N now time regardless ms c).1, m.Fits
  := by
  induction ms generalizing c with
  | nil => exact ⟨h, hms⟩
  | cons m ms ih =>
    have hm := hms m List.mem_cons_self
    have hrest : ∀ m' ∈ ms, m'.Fits := fun m' hm' => hms m' (List.mem_cons_of_mem m hm')
    have hcons {m' : Messages} {ms' : List Messages} (hm' : m'.Fits) (h : ∀ m ∈ ms', m.Fits) :
        ∀ m ∈ m' :: ms', m.Fits := by
      intro m hm
      rcases List.mem_cons.mp hm with rfl | hm
      · exact hm'
      · apply h m hm
    rw [Client.retries]
    split
    · exact ⟨h, hms⟩
    · split
      · obtain ⟨hc, hms'⟩ := ih h hrest
        exact ⟨hc, hcons hm hms'⟩
      · split
        · obtain ⟨hc, hms'⟩ := ih h hrest
          exact ⟨hc, hcons hm hms'⟩
        · rename_i p hp
          have hsend := h.send hP (fits_retryPacket hm hp)
          simp only
          split
          · exact ⟨⟨hsend.net, hsend.msgID, hsend.fits⟩, hms⟩
          · obtain ⟨hc, hms'⟩ := ih hsend hrest
            exact ⟨hc, hcons hm hms'⟩

theorem Holds.retry (h : c.Holds P) (now time : ℤ) (doRetry regardless : Bool) :
  (c.retry N now time doRetry regardless).Holds P
  := by
  rw [Client.retry]
  split
  · exact h
  · split
    · exact h
    · obtain ⟨hc, hms⟩ := h.retries hP now time regardless h.fits
      exact ⟨hc.net, hc.msgID, hms⟩

omit hP in
theorem Holds.cleanSession (h : c.Holds P) :
  c.cleanSession.Holds P
  :=
  ⟨h.net, Nat.zero_le _, fun _ hm => absurd hm List.not_mem_nil⟩

omit hP in
/-- Closing the connection sends nothing. -/
theorem Holds.closeSession (h : c.Holds P) :
  c.closeSession.Holds P
  := by
  have hclosed : Holds P { c with good := false, connected := false } :=
    ⟨h.net, h.msgID, h.fits⟩
  rw [Client.closeSession]
  simp only
  split
  · apply hclosed.cleanSession
  · exact hclosed

/-- Something else holds on a new connection. -/
theorem Holds.completeConnection {Q : σ → List Packet → Prop} (h : c.Holds Q) {net : σ}
    (hnet : P net []) (time : ℤ) :
  (c.completeConnection N net time).Holds P
  := by
  have hnew : Holds P { c with connected := true, good := true, net, sent := [] } :=
    ⟨hnet, h.msgID, h.fits⟩
  have htouched {c : Client σ} (h : c.Holds P) : Holds P
      { c with outboundMsgs := c.outboundMsgs.map fun m => { m with lastTouch := 0 } } := by
    refine ⟨h.net, h.msgID, ?_⟩
    intro m hm
    obtain ⟨m', hm', rfl⟩ := List.mem_map.mp hm
    exact h.fits m' hm'
  rw [Client.completeConnection]
  simp only
  split
  · have hclean := htouched hnew.cleanSession
    split
    · exact hclean
    · apply hclean.retry hP
  · have hkept := htouched hnew
    split
    · exact hkept
    · apply hkept.retry hP

end Client

end Mqtt
