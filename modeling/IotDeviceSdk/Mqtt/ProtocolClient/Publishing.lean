import IotDeviceSdk.Mqtt.ProtocolClient.Handlers

/-!
# Publishing as the sender of handshakes

What a client does without a packet: it publishes a message (`Client.Kept.startPublish`,
`Client.Kept.publish`), and it sends again what it has not been answered for (`Client.Kept.retry`,
`Client.Kept.completeConnection`).
-/

namespace Mqtt

open CString Keyed Handshake

/-- The messages with a quality of service and a message id among those that have been
published. -/
def publishedIn (qos : Fin 4) (k : ℕ) (messages : List Messages) : List Text :=
  (messages.filter fun m => m.qos = qos ∧ m.msgid = k).map Messages.text

theorem publishedIn_append (qos : Fin 4) (k : ℕ) (messages messages' : List Messages) :
  publishedIn qos k (messages ++ messages')
    = publishedIn qos k messages ++ publishedIn qos k messages'
  := by
  rw [publishedIn, List.filter_append, List.map_append]
  rfl

namespace Client

variable {σ : Type*} {N : Net σ} {L : Library} {c c' : Client σ}

/-- What has been done is for each exchange something that its sender may do by itself, where the
messages `new` are published. -/
def Acted (new : List Messages) (c c' : Client σ) : Prop :=
  ∃ ps, c'.sent = c.sent ++ ps ∧ ∀ k,
    Sends (c.stage k) (publishedIn 2 k new) (ps.filterMap (Packet.forth k)) (c'.stage k)
    ∧ ps.filterMap (Packet.back k) = [] ∧ c'.stored k = c.stored k ∧ c'.delivered k = c.delivered k

theorem Acted.refl (c : Client σ) :
  Acted [] c c
  :=
  ⟨[], (List.append_nil _).symm, fun _ => ⟨.nothing _, rfl, rfl, rfl⟩⟩

theorem Acted.congr {c₀ : Client σ} {new : List Messages} (h : Acted new c c')
    (hsent : c.sent = c₀.sent) (hstage : ∀ k, c.stage k = c₀.stage k)
    (hinbound : c.inboundMsgs = c₀.inboundMsgs) (hinbox : c.inbox = c₀.inbox) :
  Acted new c₀ c'
  := by
  obtain ⟨ps, hps, heach⟩ := h
  refine ⟨ps, hsent ▸ hps, ?_⟩
  intro k
  obtain ⟨hsends, hback, hstored, hdelivered⟩ := heach k
  rw [hstage k] at hsends
  rw [stored, stored, hinbound] at hstored
  rw [delivered, delivered, hinbox] at hdelivered
  exact ⟨hsends, hback, hstored, hdelivered⟩

/-! ### Message ids -/

/-- An id that is found is not in use. -/
theorem tryMsgIds_free {k msgid r : ℕ} (h : c.tryMsgIds k msgid = some r) (hr : r ≠ 0) :
  find Messages.msgid r c.outboundMsgs = none
  := by
  induction k generalizing msgid with
  | zero => contradiction
  | succ k ih =>
    rw [tryMsgIds] at h
    split at h
    · split at h
      · exact absurd (Option.some.inj h).symm hr
      · apply ih h
    · rename_i hfree
      obtain rfl := Option.some.inj h
      exact Option.not_isSome_iff_eq_none.mp hfree

/-! ### Publishing -/

theorem stage_concat_of_ne {k : ℕ} {m : Messages} (hk : m.msgid ≠ k) :
  stage k { c with outboundMsgs := c.outboundMsgs ++ [m] } = c.stage k
  := by
  apply stage_congr
  apply find_concat_of_ne rfl fun h => hk h.symm

/-- A message with a free id is kept and sent. -/
theorem Kept.start (h : c.Kept) (N : Net σ) (publish : Publication) {msgId : ℕ}
    (hfree : find Messages.msgid msgId c.outboundMsgs = none) (qos : Fin 4) (retained : Bool)
    (time : ℤ) :
  let m := createMessage publish msgId qos retained time
  let c' := (Client.send N { c with outboundMsgs := c.outboundMsgs ++ [m] }
    (.publish publish msgId false qos retained)).2
  c'.Kept ∧ Acted [m] c c'
  := by
  intro m c'
  obtain ⟨ps, net, hps, heq⟩ := send_eq N { c with outboundMsgs := c.outboundMsgs ++ [m] }
    (.publish publish msgId false qos retained)
  have hkept : Kept { c with outboundMsgs := c.outboundMsgs ++ [m] } := by
    refine ⟨h.inbound, h.stored, h.outbound.concat rfl hfree, ?_, h.sent, h.session⟩
    intro m' hm'
    rcases List.mem_append.mp hm' with hm' | hm'
    · apply h.proper m' hm'
    · obtain rfl := List.mem_singleton.mp hm'
      by_cases hqos : qos = 2
      · exact .inl hqos
      · exact .inr (if_neg hqos)
  change Kept (Client.send N _ _).2 ∧ Acted [m] c (Client.send N _ _).2
  rw [heq]
  refine ⟨hkept.send net hps fun j hj => Packet.noConfusion hj, ps, rfl, ?_⟩
  intro k
  refine ⟨?_, filterMap_sublist_eq_nil hps rfl, rfl, rfl⟩
  by_cases hk : qos = 2 ∧ msgId = k
  · obtain ⟨rfl, rfl⟩ := hk
    have hfind : find Messages.msgid msgId (c.outboundMsgs ++ [m]) = some m :=
      find_concat_self rfl hfree
    have hstage : stage msgId { c with outboundMsgs := c.outboundMsgs ++ [m] }
        = .waiting m.text := (stage_of_find hfind).trans (if_pos ⟨rfl, rfl⟩)
    have hforth : Packet.forth msgId (.publish publish msgId false 2 retained)
        = some (.data m.text) := if_pos ⟨rfl, rfl⟩
    have hpublished : publishedIn 2 msgId [m] = [m.text] := by
      rw [publishedIn, List.filter_cons_of_pos (by simp [m, createMessage])]
      rfl
    have hsends := Sends.publish m.text (filterMap_sublist hps hforth)
    rw [stage_of_find_none hfree, hpublished]
    rw [← hstage] at hsends
    exact hsends
  · have hforth : Packet.forth k (.publish publish msgId false qos retained) = none := if_neg hk
    have hpublished : publishedIn 2 k [m] = [] := by
      rw [publishedIn, List.filter_cons_of_neg (by simpa [m, createMessage] using hk)]
      rfl
    have hstage : stage k { c with outboundMsgs := c.outboundMsgs ++ [m] } = c.stage k := by
      by_cases hid : msgId = k
      · subst hid
        have hqos : qos ≠ 2 := fun hqos => hk ⟨hqos, rfl⟩
        have hfind : find Messages.msgid msgId (c.outboundMsgs ++ [m]) = some m :=
          find_concat_self rfl hfree
        have hidle : m.stage = .idle := by
          rw [Messages.stage, if_neg fun h => hqos h.1, if_neg fun h => hqos h.1]
        rw [stage_of_find_none hfree, stage_of_find hfind, hidle]
      · apply stage_concat_of_ne hid
    rw [hpublished, filterMap_sublist_eq_nil hps hforth]
    have hsends := Sends.nothing (c.stage k)
    nth_rewrite 2 [← hstage] at hsends
    exact hsends

/-- The messages that have come to be kept. -/
def new (c c' : Client σ) : List Messages :=
  c'.outboundMsgs.drop c.outboundMsgs.length

theorem new_eq {ms : List Messages} (h : c'.outboundMsgs = c.outboundMsgs ++ ms) :
  new c c' = ms
  := by
  rw [new, h, List.drop_left]

/-- A packet that is kept by nobody is sent. -/
theorem Kept.sendOnce (h : c.Kept) (N : Net σ) (publish : Publication) (retained : Bool) :
  let c' := (c.send N (.publish publish 0 false 0 retained)).2
  c'.Kept ∧ Acted [] c c' ∧ c'.outboundMsgs = c.outboundMsgs
  := by
  intro c'
  obtain ⟨ps, net, hps, heq⟩ := send_eq N c (.publish publish 0 false 0 retained)
  change Kept (Client.send N _ _).2 ∧ Acted [] c (Client.send N _ _).2
    ∧ (Client.send N _ _).2.outboundMsgs = _
  rw [heq]
  refine ⟨h.send net hps fun j hj => Packet.noConfusion hj, ⟨ps, rfl, ?_⟩, rfl⟩
  intro k
  have hforth : Packet.forth k (.publish publish 0 false 0 retained) = none := by
    rw [Packet.forth, if_neg fun h => absurd h.1 (by decide)]
  refine ⟨?_, filterMap_sublist_eq_nil hps rfl, rfl, rfl⟩
  rw [filterMap_sublist_eq_nil hps hforth]
  apply Sends.nothing

/-- A message that is published with a free id is kept. -/
theorem Kept.startPublish (h : c.Kept) (N : Net σ) (publish : Publication) {msgId : ℕ}
    {qos : Fin 4} (hfree : find Messages.msgid msgId c.outboundMsgs = none) (hqos : 0 < qos)
    (retained : Bool) (time : ℤ) :
  let c' := (c.startPublish N publish msgId qos retained time).2
  c'.Kept ∧ Acted (new c c') c c'
  := by
  intro c'
  have hstart := h.start N publish hfree qos retained time
  have hc' : c' = (Client.send N
      { c with outboundMsgs := c.outboundMsgs ++ [createMessage publish msgId qos retained time] }
      (.publish publish msgId false qos retained)).2 := by
    change (Client.startPublish N c publish msgId qos retained time).2 = _
    rw [Client.startPublish, if_pos hqos]
  obtain ⟨ps, net, hps, heq⟩ := send_eq N
    { c with outboundMsgs := c.outboundMsgs ++ [createMessage publish msgId qos retained time] }
    (.publish publish msgId false qos retained)
  have hnew : new c c' = [createMessage publish msgId qos retained time] := by
    apply new_eq
    rw [hc', heq]
  rw [hnew, hc']
  exact hstart

/-- The id that is assigned is not in use. -/
theorem assignMsgId_eq {msgid : ℕ} (h : c.assignMsgId = some (msgid, c')) (hid : msgid ≠ 0) :
  c' = { c with msgID := msgid } ∧ find Messages.msgid msgid c.outboundMsgs = none
  := by
  obtain ⟨r, hr, heq⟩ := Option.map_eq_some_iff.mp h
  obtain ⟨rfl, rfl⟩ := Prod.mk.inj heq
  exact ⟨if_pos hid, tryMsgIds_free hr hid⟩

theorem assignMsgId_zero (h : c.assignMsgId = some (0, c')) :
  c' = c
  := by
  obtain ⟨r, -, heq⟩ := Option.map_eq_some_iff.mp h
  obtain ⟨rfl, rfl⟩ := Prod.mk.inj heq
  rfl

/-- Publishing is what the sender of a handshake may do. -/
theorem Kept.publish (h : c.Kept) (N : Net σ) (pack : Publication) (qos : Fin 4)
    (retained : Bool) (time : ℤ) :
  let c' := c.publish N pack qos retained time
  c'.Kept ∧ Acted (new c c') c c'
  := by
  intro c'
  have hsame : new c c = [] := new_eq (List.append_nil _).symm
  change Kept (Client.publish N c pack qos retained time)
    ∧ Acted (new c (Client.publish N c pack qos retained time)) c
      (Client.publish N c pack qos retained time)
  rw [Client.publish]
  split
  · rw [hsame]
    exact ⟨h, Acted.refl c⟩
  · split
    · rename_i hqos
      split
      · rw [hsame]
        exact ⟨h, Acted.refl c⟩
      · rename_i c₁ hassign
        obtain rfl := assignMsgId_zero hassign
        rw [hsame]
        exact ⟨h, Acted.refl _⟩
      · rename_i msgid c₁ hid hassign
        obtain ⟨rfl, hfree⟩ := assignMsgId_eq hassign hid
        have hkept : Kept { c with msgID := msgid } :=
          ⟨h.inbound, h.stored, h.outbound, h.proper, h.sent, h.session⟩
        exact hkept.startPublish N pack hfree hqos retained time
    · rename_i hqos
      obtain rfl : qos = 0 := Fin.le_zero_iff.mp (Fin.not_lt.mp hqos)
      have hstart : c.startPublish N pack 0 0 retained time
          = c.send N (.publish pack 0 false 0 retained) := rfl
      obtain ⟨hkept, hacted, hsent⟩ := h.sendOnce N pack retained
      rw [hstart, new_eq (hsent.trans (List.append_nil _).symm)]
      exact ⟨hkept, hacted⟩

/-! ### Retrying -/

/-- A message without the time at which it was last sent. -/
def untouched (m : Messages) : Messages :=
  { m with lastTouch := 0 }

theorem find_untouched {k : ℕ} {ms ms' : List Messages}
    (h : ms'.map untouched = ms.map untouched) :
  (find Messages.msgid k ms').map untouched = (find Messages.msgid k ms).map untouched
  := by
  rw [← find_map (f := untouched) fun _ => rfl, ← find_map (f := untouched) fun _ => rfl, h]

theorem stage_eq_untouched (c : Client σ) (k : ℕ) :
  c.stage k = ((find Messages.msgid k c.outboundMsgs).map untouched).elim .idle Messages.stage
  := by
  rw [stage]
  cases find Messages.msgid k c.outboundMsgs <;> rfl

/-- Sending messages again changes nothing but the times. -/
theorem retries_eq (N : Net σ) (now time : ℤ) (regardless : Bool) (ms : List Messages)
    (c : Client σ) :
  ∃ ps net good, ps.Sublist (ms.filterMap retryPacket)
    ∧ (retries N now time regardless ms c).2 = { c with net, good, sent := c.sent ++ ps }
    ∧ (retries N now time regardless ms c).1.map untouched = ms.map untouched
  := by
  induction ms generalizing c with
  | nil =>
    refine ⟨[], c.net, c.good, List.nil_sublist _, ?_, rfl⟩
    rw [List.append_nil]
    rfl
  | cons m ms ih =>
    have hms : (ms.filterMap retryPacket).Sublist ((m :: ms).filterMap retryPacket) :=
      (List.sublist_cons_self m ms).filterMap retryPacket
    rw [retries]
    split
    · refine ⟨[], c.net, c.good, List.nil_sublist _, ?_, rfl⟩
      rw [List.append_nil]
    · split
      · obtain ⟨ps, net, good, hps, hc, hsame⟩ := ih c
        exact ⟨ps, net, good, hps.trans hms, hc, congrArg (untouched m :: ·) hsame⟩
      · split
        · obtain ⟨ps, net, good, hps, hc, hsame⟩ := ih c
          exact ⟨ps, net, good, hps.trans hms, hc, congrArg (untouched m :: ·) hsame⟩
        · rename_i p hp
          obtain ⟨ps, net, hps, heq⟩ := send_eq N c p
          rw [List.filterMap_cons_some hp]
          simp only
          split
          · refine ⟨ps, net, false, hps.trans ?_, ?_, rfl⟩
            · exact (List.nil_sublist _).cons_cons p
            · rw [heq]
          · obtain ⟨ps', net', good, hps', hc, hsame⟩ := ih (c.send N p).2
            refine ⟨ps ++ ps', net', good, hps.append hps', ?_, congrArg (untouched m :: ·) hsame⟩
            rw [hc, heq, ← List.append_assoc]

/-- What is sent again is not an answer, and no release is marked as a duplicate. -/
theorem back_retryPacket {m : Messages} {p : Packet} (h : retryPacket m = some p) (k : ℕ) :
  p.back k = none ∧ p ≠ .ack .pubrel k true
  := by
  rw [retryPacket] at h
  split at h
  · obtain rfl := Option.some.inj h
    exact ⟨rfl, fun h => Packet.noConfusion h⟩
  · split at h
    · obtain rfl := Option.some.inj h
      refine ⟨rfl, ?_⟩
      intro h
      injection h
      contradiction
    · contradiction

/-- The packet that is sent again for a message of an exchange is the one that its sender sends
again. -/
theorem sends_retryPacket {m : Messages} (hm : m.Proper) {out : List (Forth Text)}
    (hout : out.Sublist ((retryPacket m).bind (Packet.forth m.msgid)).toList) :
  Sends m.stage [] out m.stage
  := by
  have hnothing (hnone : (retryPacket m).bind (Packet.forth m.msgid) = none) :
      Sends m.stage [] out m.stage := by
    rw [hnone] at hout
    rw [List.sublist_nil.mp hout]
    apply Sends.nothing
  by_cases hqos : m.qos = 2
  · by_cases hpubrec : m.nextMessageType = some .pubrec
    · have hpacket : (retryPacket m).bind (Packet.forth m.msgid) = some (.data m.text) := by
        rw [retryPacket, if_pos (.inr ⟨hqos, hpubrec⟩), Option.bind_some, Packet.forth,
          if_pos ⟨hqos, rfl⟩]
        rfl
      have hstage : m.stage = .waiting m.text := if_pos ⟨hqos, hpubrec⟩
      rw [hpacket] at hout
      rw [hstage]
      apply Sends.data m.text hout
    · have hfirst : ¬ (m.qos = 1 ∨ m.qos = 2 ∧ m.nextMessageType = some .pubrec) := by
        rintro (h | h)
        · rw [hqos] at h
          contradiction
        · exact hpubrec h.2
      by_cases hpubcomp : m.nextMessageType = some .pubcomp
      · have hpacket : (retryPacket m).bind (Packet.forth m.msgid) = some .release := by
          rw [retryPacket, if_neg hfirst, if_pos ⟨by rw [hqos]; decide, hpubcomp⟩,
            Option.bind_some, Packet.forth, if_pos ⟨rfl, rfl⟩]
        have hstage : m.stage = .releasing m.text := stage_of_pubcomp hqos hpubcomp
        rw [hpacket] at hout
        rw [hstage]
        apply Sends.release m.text hout
      · apply hnothing
        rw [retryPacket, if_neg hfirst, if_neg fun h => hpubcomp h.2]
        rfl
  · have hnext : m.nextMessageType = none := hm.resolve_left hqos
    apply hnothing
    rw [retryPacket]
    split
    · rw [Option.bind_some, Packet.forth, if_neg fun h => hqos h.1]
    · rw [if_neg fun h => absurd (hnext.symm.trans h.2) (by simp)]
      rfl

/-- The packets that are sent again are those of the messages that are kept. -/
theorem Kept.sends_retried (h : c.Kept) {ps : List Packet}
    (hps : ps.Sublist (c.outboundMsgs.filterMap retryPacket)) (k : ℕ) :
  Sends (c.stage k) [] (ps.filterMap (Packet.forth k)) (c.stage k)
    ∧ ps.filterMap (Packet.back k) = [] ∧ .ack .pubrel k true ∉ ps
  := by
  have hpacket : ∀ p ∈ ps, p.back k = none ∧ p ≠ .ack .pubrel k true := by
    intro p hp
    obtain ⟨m, -, hm⟩ := List.mem_filterMap.mp (hps.subset hp)
    apply back_retryPacket hm
  refine ⟨?_, List.filterMap_eq_nil_iff.mpr fun p hp => (hpacket p hp).1,
    fun hp => (hpacket _ hp).2 rfl⟩
  have hout := hps.filterMap (Packet.forth k)
  have hother (m : Messages) (hm : m.msgid ≠ k) : (retryPacket m).bind (Packet.forth k) = none := by
    rw [retryPacket]
    split
    · exact if_neg fun h => hm h.2
    · split
      · exact if_neg fun h => hm h.2
      · rfl
  rw [List.filterMap_filterMap, filterMap_eq_of_distinct h.outbound hother] at hout
  cases hfind : find Messages.msgid k c.outboundMsgs with
  | none =>
    rw [hfind] at hout
    rw [List.sublist_nil.mp hout]
    apply Sends.nothing
  | some m =>
    obtain rfl : m.msgid = k := key_of_find hfind
    rw [hfind] at hout
    rw [stage_of_find hfind]
    apply sends_retryPacket (h.proper m (mem_of_find hfind)) hout

/-- Messages are touched, and packets sent for them again. -/
theorem Kept.retried (h : c.Kept) {ms : List Messages}
    (hms : ms.map untouched = c.outboundMsgs.map untouched) {ps : List Packet} (net : σ)
    (good : Bool) (hps : ps.Sublist (c.outboundMsgs.filterMap retryPacket)) :
  let c' := { c with outboundMsgs := ms, net, good, sent := c.sent ++ ps }
  c'.Kept ∧ Acted [] c c' ∧ c'.outboundMsgs.length = c.outboundMsgs.length
  := by
  intro c'
  have hkeys : ms.map Messages.msgid = c.outboundMsgs.map Messages.msgid := by
    have hmap := congrArg (List.map Messages.msgid) hms
    rw [List.map_map, List.map_map] at hmap
    exact hmap
  refine ⟨⟨h.inbound, h.stored, ?_, ?_, ?_, h.session⟩, ⟨ps, rfl, ?_⟩, ?_⟩
  · rw [Distinct, hkeys]
    apply h.outbound
  · intro m hm
    have hmem := List.mem_map_of_mem (f := untouched) hm
    rw [hms] at hmem
    obtain ⟨m', hm', heq⟩ := List.mem_map.mp hmem
    have hproper : (untouched m').Proper := h.proper m' hm'
    rw [heq] at hproper
    exact hproper
  · intro k hk
    rcases List.mem_append.mp hk with hk | hk
    · apply h.sent k hk
    · apply (h.sends_retried hps k).2.2 hk
  · intro k
    obtain ⟨hsends, hback, -⟩ := h.sends_retried hps k
    have hstage : c'.stage k = c.stage k := by
      rw [stage_eq_untouched, stage_eq_untouched, find_untouched hms]
    rw [hstage]
    exact ⟨hsends, hback, rfl, rfl⟩
  · rw [← List.length_map (f := Messages.msgid), hkeys, List.length_map]

/-- Sending again is what the sender of a handshake may do. -/
theorem Kept.retry (h : c.Kept) (N : Net σ) (now time : ℤ) (doRetry regardless : Bool) :
  let c' := c.retry N now time doRetry regardless
  c'.Kept ∧ Acted [] c c' ∧ c'.outboundMsgs.length = c.outboundMsgs.length
  := by
  intro c'
  change Kept (Client.retry N c now time doRetry regardless)
    ∧ Acted [] c (Client.retry N c now time doRetry regardless)
    ∧ (Client.retry N c now time doRetry regardless).outboundMsgs.length = _
  rw [Client.retry]
  split
  · exact ⟨h, Acted.refl c, rfl⟩
  · split
    · exact ⟨h, Acted.refl c, rfl⟩
    · obtain ⟨ps, net, good, hps, hc, hms⟩ := retries_eq N now time regardless c.outboundMsgs c
      simp only [hc]
      apply h.retried hms net good hps

/-! ### Sessions -/

theorem Kept.closeSession (h : c.Kept) :
  c.closeSession = { c with good := false, connected := false }
  := by
  rw [Client.closeSession]
  simp only [h.session, Bool.false_eq_true, if_false]

/-- On a new connection, what is kept is sent again. -/
theorem Kept.completeConnection (h : c.Kept) (N : Net σ) (net : σ) (time : ℤ) :
  let c' := c.completeConnection N net time
  c'.Kept ∧ Acted [] { c with sent := [] } c'
  := by
  intro c'
  have hms : (c.outboundMsgs.map untouched).map untouched = c.outboundMsgs.map untouched := by
    rw [List.map_map]
    rfl
  have htouched : Kept { c with sent := [] } :=
    ⟨h.inbound, h.stored, h.outbound, h.proper, fun _ => List.not_mem_nil, h.session⟩
  obtain ⟨hkept, -, -⟩ := htouched.retried hms net true (List.nil_sublist _)
  have hkept : Kept { c with
      connected := true, good := true, net, sent := [],
      outboundMsgs := c.outboundMsgs.map untouched } :=
    ⟨hkept.inbound, hkept.stored, hkept.outbound, hkept.proper, fun _ => List.not_mem_nil,
      hkept.session⟩
  have hstage (k : ℕ) : stage k { c with
      connected := true, good := true, net, sent := [],
      outboundMsgs := c.outboundMsgs.map untouched } = stage k { c with sent := [] } := by
    rw [stage_eq_untouched, stage_eq_untouched, find_untouched hms]
  change Kept (Client.completeConnection N c net time)
    ∧ Acted [] _ (Client.completeConnection N c net time)
  obtain ⟨_, _, cleansession⟩ := c
  obtain rfl : cleansession = false := h.session
  rw [Client.completeConnection]
  simp only [Bool.false_eq_true, if_false]
  split
  · refine ⟨hkept, Acted.congr (Acted.refl _) ?_ hstage ?_ ?_⟩ <;> rfl
  · obtain ⟨hretried, hacted, -⟩ := hkept.retry N 0 time true true
    refine ⟨hretried, Acted.congr hacted ?_ hstage ?_ ?_⟩ <;> rfl

end Client

end Mqtt
