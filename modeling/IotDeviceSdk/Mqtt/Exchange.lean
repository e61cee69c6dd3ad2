import IotDeviceSdk.Mqtt.ProtocolClient.Publishing

/-!
# Exchanges

Two clients publish messages to each other over connections that end at any time; each of them
handles the packets of the other one in the order in which they were accepted, and keeps its
session.  For every message id, what is between them is a handshake (`System.run_reaches`), so the
messages of quality of service 2 that one of them publishes with this id are received by the other
one in their order and not more than once each, and exactly once when the exchange is over
(`System.run_delivered`).

Publishing is that of the synchronous library, where the id of a message is one that no kept message
has.
-/

namespace Mqtt

open Keyed Handshake

/-- Two clients.  Each has read some of the packets that were accepted from the other one on the
present connection, and the messages that it has published and kept are remembered. -/
structure System (σ : Type*) where
  client : Bool → Client σ
  read : Bool → ℕ
  published : Bool → List Messages

namespace System

/-- What happens: one of the clients does something, or both of them get a new connection. -/
inductive Input (σ : Type*) where
  | publish (b : Bool) (pack : Publication) (qos : Fin 4) (retained : Bool) (time : ℤ)
  | receive (b : Bool) (beyond : List UInt8) (time : ℤ)
  | retry (b : Bool) (now time : ℤ) (doRetry : Bool)
  | deliver (b : Bool)
  | network (b : Bool) (net : σ)
  | close (b : Bool)
  | connect (net : Bool → σ) (time : ℤ)

variable {σ : Type*} (N : Net σ) (L : Bool → Library)

/-- A client becomes another one. -/
def set (s : System σ) (b : Bool) (c : Client σ) : System σ :=
  { s with client := Function.update s.client b c }

/-- And what it has come to keep has been published. -/
def act (s : System σ) (b : Bool) (c : Client σ) : System σ :=
  { s.set b c with
    published := Function.update s.published b (s.published b ++ Client.new (s.client b) c) }

def step (s : System σ) : Input σ → System σ
  | .publish b pack qos retained time =>
    if L b = .mqttClient then s.act b ((s.client b).publish N pack qos retained time) else s
  | .receive b beyond time =>
    match (s.client !b).sent[s.read b]? with
    | none => s
    | some p =>
      if (s.client b).connected then
        { s.set b ((s.client b).cycle N (L b) time (p.pack beyond)).2 with
          read := Function.update s.read b (s.read b + 1) }
      else
        s
  | .retry b now time doRetry => s.set b ((s.client b).retry N now time doRetry false)
  | .deliver b => s.set b { s.client b with inbox := (s.client b).inbox.deliver }
  | .network b net => s.set b { s.client b with net }
  | .close b => s.set b (s.client b).closeSession
  | .connect net time =>
    if ∀ b, (s.client b).connected = false then
      { s with
        client := fun b => (s.client b).completeConnection N (net b) time
        read := fun _ => 0 }
    else
      s

/-- A client that has not been connected yet, in a session that is kept. -/
def fresh (maxInflightMessages : ℕ) (retryInterval : ℤ) (answers : List Bool) (net : σ) :
    Client σ where
  connected := false
  good := false
  cleansession := false
  msgID := 0
  maxInflightMessages := maxInflightMessages
  retryInterval := retryInterval
  inboundMsgs := []
  outboundMsgs := []
  inbox := ⟨[], [], answers⟩
  net := net
  sent := []

/-- Two such clients. -/
def init (maxInflightMessages : Bool → ℕ) (retryInterval : Bool → ℤ) (answers : Bool → List Bool)
    (net : Bool → σ) : System σ where
  client b := fresh (maxInflightMessages b) (retryInterval b) (answers b) (net b)
  read _ := 0
  published _ := []

/-- The exchange with a message id between the client `b`, which publishes, and `b'`. -/
def view (s : System σ) (b b' : Bool) (k : ℕ) : State Text where
  stage := (s.client b).stage k
  stored := (s.client b').stored k
  forth := ((s.client b).sent.drop (s.read b')).filterMap (Packet.forth k)
  back := ((s.client b').sent.drop (s.read b)).filterMap (Packet.back k)
  published := publishedIn 2 k (s.published b)
  delivered := (s.client b').delivered k

structure Invariant (s : System σ) : Prop where
  kept : ∀ b, (s.client b).Kept
  read : ∀ b, s.read b ≤ (s.client !b).sent.length

variable {N L} {s : System σ} {b b' : Bool} {c : Client σ} {k : ℕ}

/-! ### Clients that act -/

theorem filterMap_drop_append {α β : Type*} (f : α → Option β) {l : List α} {n : ℕ}
    (h : n ≤ l.length) (l' : List α) :
  ((l ++ l').drop n).filterMap f = (l.drop n).filterMap f ++ l'.filterMap f
  := by
  rw [List.drop_append_of_le_length h, List.filterMap_append]

theorem Invariant.read_other (hs : s.Invariant) (b : Bool) :
  s.read (!b) ≤ (s.client b).sent.length
  := by
  have hle := hs.read !b
  rw [Bool.not_not] at hle
  exact hle

/-- What a client does by itself is what the sender of its exchanges may do, and nothing for their
receiver. -/
theorem Invariant.act (hs : s.Invariant) (hc : c.Kept)
    (h : Client.Acted (Client.new (s.client b) c) (s.client b) c) :
  (s.act b c).Invariant ∧ ∀ k, Reaches (s.view b (!b) k) ((s.act b c).view b (!b) k)
    ∧ (s.act b c).view (!b) b k = s.view (!b) b k
  := by
  obtain ⟨ps, hsent, heach⟩ := h
  have hne : (!b) ≠ b := Bool.not_ne_self b
  refine ⟨⟨?_, ?_⟩, ?_⟩
  · intro b'
    by_cases hb : b' = b
    · subst hb
      rw [System.act, set]
      simp only [Function.update_self]
      apply hc
    · rw [System.act, set]
      simp only [Function.update_of_ne hb]
      apply hs.kept
  · intro b'
    rw [System.act, set]
    simp only
    by_cases hb : (!b') = b
    · subst hb
      rw [Function.update_self, hsent, List.length_append]
      apply (hs.read b').trans (Nat.le_add_right _ _)
    · rw [Function.update_of_ne hb]
      apply hs.read
  · intro k
    obtain ⟨hsends, hback, hstored, hdelivered⟩ := heach k
    constructor
    · have hview : (s.act b c).view b (!b) k = { s.view b (!b) k with
          stage := c.stage k
          forth := (s.view b (!b) k).forth ++ ps.filterMap (Packet.forth k)
          published := (s.view b (!b) k).published
            ++ publishedIn 2 k (Client.new (s.client b) c) } := by
        rw [view, view, System.act, set]
        simp only [Function.update_self, Function.update_of_ne hne, hsent, publishedIn_append,
          filterMap_drop_append _ (hs.read_other b)]
      rw [hview]
      apply Sends.reaches hsends
    · rw [view, view, System.act, set]
      simp only [Function.update_self, Function.update_of_ne hne, hsent,
        filterMap_drop_append _ (hs.read_other b), hback, List.append_nil, hstored, hdelivered]

/-- A client that does not come to keep anything. -/
theorem act_eq_set (h : c.outboundMsgs.length = (s.client b).outboundMsgs.length) :
  s.act b c = s.set b c
  := by
  have hnew : Client.new (s.client b) c = [] := by
    rw [Client.new, ← h, List.drop_length]
  rw [System.act, hnew, List.append_nil, Function.update_eq_self]
  rfl

/-- A client in which only what does not matter for the exchanges has changed. -/
theorem acted_of_eq {c c' : Client σ} (hsent : c'.sent = c.sent)
    (houtbound : c'.outboundMsgs = c.outboundMsgs) (hinbound : c'.inboundMsgs = c.inboundMsgs)
    (hinbox : c'.inbox.received = c.inbox.received) :
  Client.Acted (Client.new c c') c c'
  := by
  have hnew : Client.new c c' = [] := by
    rw [Client.new, houtbound, List.drop_length]
  refine ⟨[], hsent.trans (List.append_nil _).symm, ?_⟩
  intro k
  have hstage : c'.stage k = c.stage k := Client.stage_congr (by rw [houtbound])
  refine ⟨?_, rfl, Client.stored_congr (by rw [hinbound]), ?_⟩
  · rw [hnew, hstage]
    apply Sends.nothing
  · rw [Client.delivered, Client.delivered, hinbox]

/-! ### Packets -/

theorem drop_of_getElem? {α : Type*} {l : List α} {n : ℕ} {a : α} (h : l[n]? = some a) :
  l.drop n = a :: l.drop (n + 1)
  := by
  obtain ⟨hn, rfl⟩ := List.getElem?_eq_some_iff.mp h
  apply List.drop_eq_getElem_cons

/-- What a client does with a packet is what the parties of its exchanges may do. -/
theorem Invariant.handled (hs : s.Invariant) {p : Packet}
    (hp : (s.client !b).sent[s.read b]? = some p) (hc : c.Kept)
    (h : Client.Handled p (s.client b) c) :
  let s' := { s.set b c with read := Function.update s.read b (s.read b + 1) }
  s'.Invariant ∧ ∀ k, Reaches (s.view b (!b) k) (s'.view b (!b) k)
    ∧ Reaches (s.view (!b) b k) (s'.view (!b) b k)
  := by
  intro s'
  obtain ⟨ps, hsent, heach⟩ := h
  have hne : (!b) ≠ b := Bool.not_ne_self b
  obtain ⟨hlt, -⟩ := List.getElem?_eq_some_iff.mp hp
  have hnext := drop_of_getElem? hp
  refine ⟨⟨?_, ?_⟩, ?_⟩
  · intro b'
    change Client.Kept (Function.update s.client b c b')
    by_cases hb : b' = b
    · subst hb
      rw [Function.update_self]
      apply hc
    · rw [Function.update_of_ne hb]
      apply hs.kept
  · intro b'
    change Function.update s.read b (s.read b + 1) b'
      ≤ (Function.update s.client b c !b').sent.length
    by_cases hb : b' = b
    · subst hb
      rw [Function.update_self, Function.update_of_ne hne]
      apply hlt
    · obtain rfl : (!b') = b := by
        rw [Bool.eq_not.mpr hb, Bool.not_not]
      rw [Function.update_of_ne hb, Function.update_self, hsent, List.length_append]
      apply (hs.read b').trans (Nat.le_add_right _ _)
  · intro k
    obtain ⟨hanswers, hreceives⟩ := heach k
    constructor
    · have hview : s'.view b (!b) k = { s.view b (!b) k with
          stage := c.stage k
          back := ((s.client !b).sent.drop (s.read b + 1)).filterMap (Packet.back k)
          forth := (s.view b (!b) k).forth ++ ps.filterMap (Packet.forth k) } := by
        change view { s.set b c with read := _ } b (!b) k = _
        rw [view, view, set]
        simp only [Function.update_self, Function.update_of_ne hne, hsent,
          filterMap_drop_append _ (hs.read_other b)]
      rw [hview]
      apply Answers.reaches hanswers
      rw [view]
      simp only [hnext, List.filterMap_cons]
      cases p.back k <;> rfl
    · have hview : s'.view (!b) b k = { s.view (!b) b k with
          stored := c.stored k
          delivered := c.delivered k
          forth := ((s.client !b).sent.drop (s.read b + 1)).filterMap (Packet.forth k)
          back := (s.view (!b) b k).back ++ ps.filterMap (Packet.back k) } := by
        change view { s.set b c with read := _ } (!b) b k = _
        rw [view, view, set]
        simp only [Function.update_self, Function.update_of_ne hne, hsent,
          filterMap_drop_append _ (hs.read_other b)]
      rw [hview]
      apply Receives.reaches hreceives
      rw [view]
      simp only [hnext, List.filterMap_cons]
      cases p.forth k <;> rfl

/-! ### New connections -/

/-- All packets of the old connection are lost. -/
theorem Invariant.connect (hs : s.Invariant) (net : Bool → σ) (time : ℤ) :
  let s' : System σ := { s with
    client := fun b => (s.client b).completeConnection N (net b) time
    read := fun _ => 0 }
  s'.Invariant ∧ ∀ b k, Reaches (s.view b (!b) k) (s'.view b (!b) k)
  := by
  intro s'
  refine ⟨⟨fun b => ((hs.kept b).completeConnection N (net b) time).1, fun b => Nat.zero_le _⟩, ?_⟩
  intro b k
  obtain ⟨-, ps, hsent, heach⟩ := (hs.kept b).completeConnection N (net b) time
  obtain ⟨-, ps', hsent', heach'⟩ := (hs.kept !b).completeConnection N (net !b) time
  obtain ⟨hsends, -⟩ := heach k
  obtain ⟨-, hback, hstored, hdelivered⟩ := heach' k
  have hview : s'.view b (!b) k = { s.view b (!b) k with
      stage := ((s.client b).completeConnection N (net b) time).stage k
      forth := [] ++ ps.filterMap (Packet.forth k)
      back := []
      published := (s.view b (!b) k).published ++ [] } := by
    rw [view, view]
    simp only [s', List.drop_zero, hsent, hsent', hstored, hdelivered, List.nil_append, hback,
      List.append_nil]
    rfl
  rw [hview]
  apply (reaches_break _).trans
  exact Sends.reaches hsends

/-! ### Steps -/

/-- Whatever happens, the exchange of each message id goes on as a handshake. -/
theorem Invariant.step (hs : s.Invariant) (i : Input σ) :
  (s.step N L i).Invariant ∧ ∀ b k, Reaches (s.view b (!b) k) ((s.step N L i).view b (!b) k)
  := by
  have hboth {s' : System σ} (b : Bool) (h : s'.Invariant ∧ ∀ k,
      Reaches (s.view b (!b) k) (s'.view b (!b) k) ∧ Reaches (s.view (!b) b k) (s'.view (!b) b k)) :
      s'.Invariant ∧ ∀ b k, Reaches (s.view b (!b) k) (s'.view b (!b) k) := by
    refine ⟨h.1, ?_⟩
    intro d k
    by_cases hd : d = b
    · subst hd
      apply (h.2 k).1
    · obtain rfl : d = !b := Bool.eq_not.mpr hd
      rw [Bool.not_not]
      apply (h.2 k).2
  have hact (b : Bool) (c : Client σ) (hc : c.Kept)
      (h : Client.Acted (Client.new (s.client b) c) (s.client b) c) :
      (s.act b c).Invariant ∧ ∀ d k, Reaches (s.view d (!d) k) ((s.act b c).view d (!d) k) := by
    obtain ⟨hinvariant, hviews⟩ := hs.act hc h
    refine hboth b ⟨hinvariant, fun k => ⟨(hviews k).1, ?_⟩⟩
    rw [(hviews k).2]
    exact .refl
  have hset (b : Bool) (c : Client σ) (hsent : c.sent = (s.client b).sent)
      (houtbound : c.outboundMsgs = (s.client b).outboundMsgs)
      (hinbound : c.inboundMsgs = (s.client b).inboundMsgs)
      (hinbox : c.inbox.received = (s.client b).inbox.received)
      (hsession : c.cleansession = (s.client b).cleansession) :
      (s.set b c).Invariant ∧ ∀ d k, Reaches (s.view d (!d) k) ((s.set b c).view d (!d) k) := by
    have hkept := hs.kept b
    rw [← act_eq_set (by rw [houtbound])]
    apply hact b c
    · refine ⟨?_, ?_, ?_, ?_, ?_, hsession.trans hkept.session⟩
      · rw [hinbound]
        apply hkept.inbound
      · rw [hinbound]
        apply hkept.stored
      · rw [houtbound]
        apply hkept.outbound
      · rw [houtbound]
        apply hkept.proper
      · rw [hsent]
        apply hkept.sent
    · apply acted_of_eq hsent houtbound hinbound hinbox
  cases i with
  | publish b pack qos retained time =>
    rw [System.step]
    split
    · obtain ⟨hc, h⟩ := (hs.kept b).publish N pack qos retained time
      apply hact b _ hc h
    · exact ⟨hs, fun d k => .refl⟩
  | receive b beyond time =>
    rw [System.step]
    split
    · exact ⟨hs, fun d k => .refl⟩
    · rename_i p hp
      split
      · have hplain (msgId : ℕ) : p ≠ .ack .pubrel msgId true := by
          rintro rfl
          apply (hs.kept !b).sent msgId (List.mem_of_getElem? hp)
        obtain ⟨hc, h⟩ := (hs.kept b).cycle N (L b) hplain time beyond
        exact hboth b (hs.handled hp hc h)
      · exact ⟨hs, fun d k => .refl⟩
  | retry b now time doRetry =>
    obtain ⟨hc, h, hlength⟩ := (hs.kept b).retry N now time doRetry false
    rw [System.step, ← act_eq_set hlength]
    apply hact b _ hc
    rw [Client.new, ← hlength, List.drop_length]
    exact h
  | deliver b =>
    refine hset b { s.client b with inbox := (s.client b).inbox.deliver } rfl rfl rfl ?_ rfl
    apply Inbox.received_deliver
  | network b net => exact hset b { s.client b with net } rfl rfl rfl rfl rfl
  | close b =>
    rw [System.step, (hs.kept b).closeSession]
    exact hset b { s.client b with good := false, connected := false } rfl rfl rfl rfl rfl
  | connect net time =>
    rw [System.step]
    split
    · apply hs.connect
    · exact ⟨hs, fun d k => .refl⟩

/-! ### Runs -/

variable {maxInflightMessages : Bool → ℕ} {retryInterval : Bool → ℤ} {answers : Bool → List Bool}
  {net : Bool → σ} {inputs : List (Input σ)}

theorem invariant_init (maxInflightMessages : Bool → ℕ) (retryInterval : Bool → ℤ)
    (answers : Bool → List Bool) (net : Bool → σ) :
  (init maxInflightMessages retryInterval answers net).Invariant
  := by
  refine ⟨?_, fun b => Nat.le_refl 0⟩
  intro b
  refine ⟨List.nodup_nil, ?_, List.nodup_nil, ?_, fun _ => List.not_mem_nil, rfl⟩
  · intro m hm
    contradiction
  · intro m hm
    contradiction

theorem invariant_run (hs : s.Invariant) (inputs : List (Input σ)) :
  (inputs.foldl (step N L) s).Invariant
  := by
  induction inputs generalizing s with
  | nil => exact hs
  | cons i inputs ih => exact ih (hs.step i).1

/-- In every run, the exchanges are handshakes. -/
theorem run_reaches (hs : s.Invariant) (inputs : List (Input σ)) (b : Bool) (k : ℕ) :
  Reaches (s.view b (!b) k) ((inputs.foldl (step N L) s).view b (!b) k)
  := by
  induction inputs generalizing s with
  | nil => exact .refl
  | cons i inputs ih =>
    obtain ⟨hinvariant, hreaches⟩ := hs.step i
    exact (hreaches b k).trans (ih hinvariant)

theorem safe_run (maxInflightMessages : Bool → ℕ) (retryInterval : Bool → ℤ)
    (answers : Bool → List Bool) (net : Bool → σ) (inputs : List (Input σ)) (b : Bool) (k : ℕ) :
  Safe ((inputs.foldl (step N L)
    (init maxInflightMessages retryInterval answers net)).view b (!b) k)
  := by
  have hinit := invariant_init maxInflightMessages retryInterval answers net
  apply Safe.reaches safe_init (run_reaches hinit inputs b k)

/-- The messages of quality of service 2 that are received with some message id are the first that
the other client has published with it, each of them once; and they are all of them when the other
client keeps none of this id. -/
theorem run_delivered (maxInflightMessages : Bool → ℕ) (retryInterval : Bool → ℤ)
    (answers : Bool → List Bool) (net : Bool → σ) (inputs : List (Input σ)) (b : Bool) (k : ℕ) :
  let s := inputs.foldl (step N L) (init maxInflightMessages retryInterval answers net)
  exchanged 2 k (s.client !b).inbox.received <+: publishedIn 2 k (s.published b)
    ∧ (find Messages.msgid k (s.client b).outboundMsgs = none →
        exchanged 2 k (s.client !b).inbox.received = publishedIn 2 k (s.published b))
  := by
  intro s
  have hsafe : Safe (s.view b (!b) k) :=
    safe_run maxInflightMessages retryInterval answers net inputs b k
  refine ⟨hsafe.delivered_begins.1, ?_⟩
  intro hnone
  apply hsafe.delivered_eq_of_idle
  apply Client.stage_of_find_none hnone

/-- A connection that takes everything. -/
def steady : Net Unit where
  noPendingWrites _ := true
  send _ _ := (.complete, ())

/-- Two new clients of it. -/
def pair : System Unit :=
  init (fun _ => 10) (fun _ => 0) (fun _ => [true]) fun _ => ()

/-- One of each library. -/
def libraries (b : Bool) : Library :=
  if b then .mqttAsync else .mqttClient

/-- The first packet of an exchange is lost, and it is sent again on the next connection. -/
def resent : List (Input Unit) :=
  [.connect (fun _ => ()) 0, .publish false ⟨[97], [98]⟩ 2 false 1, .close false, .close true,
    .connect (fun _ => ()) 5, .receive true [0] 6, .receive false [] 7, .receive true [] 8,
    .receive false [] 9]

example :
    let s := resent.foldl (step steady libraries) pair
    exchanged 2 1 (s.client true).inbox.received = [([97], [98], false)]
      ∧ (s.client true).inbox.taken.length = 1 := by
  decide

/-- The last packet of the exchange is lost. -/
def unanswered : List (Input Unit) :=
  [.connect (fun _ => ()) 0, .publish false ⟨[97], [98]⟩ 2 false 1, .receive true [] 2,
    .receive false [] 3, .receive true [] 4, .close true, .close false,
    .connect (fun _ => ()) 5]

end System

end Mqtt
