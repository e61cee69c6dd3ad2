import Mathlib.Data.List.Basic
import Mathlib.Data.List.Infix
import Mathlib.Logic.Relation
import Mathlib.Tactic.Common

/-!
# Handshakes

A sender hands messages to a receiver, one at a time, over two channels that keep the order of
what they carry and may lose any of it.  A message is sent until the receiver says that it has
received it, and then its release is sent until the receiver says that it is completed; the
receiver stores the message and delivers it at its release.  However often anything is sent again,
the messages that are delivered are the first of those that were published, and all of them when
the sender is idle (`delivered_begins`, `delivered_eq_of_idle`).

The receiver does not answer a release for which nothing is stored.  So an exchange whose last
answer is lost never ends (`Stuck.reaches`).
-/

namespace Handshake

variable {M : Type*}

/-- What the sender waits for. -/
inductive Stage (M : Type*) where
  | idle
  | waiting (m : M)
  | releasing (m : M)

/-- What the sender sends. -/
inductive Forth (M : Type*) where
  | data (m : M)
  | release

/-- What the receiver sends. -/
inductive Back where
  | received
  | completed
  deriving DecidableEq

/-- The sender, the receiver, the channels, and what has been published and delivered. -/
structure State (M : Type*) where
  stage : Stage M
  stored : Option M
  forth : List (Forth M)
  back : List Back
  published : List M
  delivered : List M

namespace State

def publish (s : State M) (m : M) : State M :=
  { s with
    stage := .waiting m, forth := s.forth ++ [.data m], published := s.published ++ [m] }

/-- What the sender is at is sent again. -/
def resend (s : State M) : State M :=
  match s.stage with
  | .idle => s
  | .waiting m => { s with forth := s.forth ++ [.data m] }
  | .releasing _ => { s with forth := s.forth ++ [.release] }

/-- The receiver takes what is next. -/
def receive (s : State M) : State M :=
  match s.forth, s.stored with
  | [], _ => s
  | .data m :: forth, _ => { s with forth, stored := some m, back := s.back ++ [.received] }
  | .release :: forth, none => { s with forth }
  | .release :: forth, some m =>
    { s with
      forth, stored := none, back := s.back ++ [.completed], delivered := s.delivered ++ [m] }

/-- The sender takes what is next. -/
def answer (s : State M) : State M :=
  match s.back, s.stage with
  | [], _ => s
  | .received :: back, .waiting m =>
    { s with back, stage := .releasing m, forth := s.forth ++ [.release] }
  | .completed :: back, .releasing _ => { s with back, stage := .idle }
  | _ :: back, _ => { s with back }

/-- Nothing has been published. -/
def init : State M :=
  ⟨.idle, none, [], [], [], []⟩

end State

inductive Step : State M → State M → Prop where
  | publish {s : State M} (m : M) (h : s.stage = .idle) : Step s (s.publish m)
  | resend (s : State M) : Step s s.resend
  | receive (s : State M) : Step s s.receive
  | answer (s : State M) : Step s s.answer
  | lose {s : State M} {forth : List (Forth M)} {back : List Back}
      (hforth : forth.Sublist s.forth) (hback : back.Sublist s.back) :
      Step s { s with forth, back }

/-- Any number of steps. -/
def Reaches : State M → State M → Prop :=
  Relation.ReflTransGen Step

open List (replicate)

/-- The states there can be. -/
inductive Safe : State M → Prop where
  | idle (p : List M) (a : ℕ) :
      Safe ⟨.idle, none, replicate a .release, [], p, p⟩
  /-- the receiver has not got the message yet -/
  | waiting (p : List M) (m : M) (a b : ℕ) :
      Safe ⟨.waiting m, none, replicate a .release ++ replicate b (.data m), [], p ++ [m], p⟩
  | stored (p : List M) (m : M) (b c : ℕ) :
      Safe ⟨.waiting m, some m, replicate b (.data m), replicate c .received, p ++ [m], p⟩
  | releasing (p : List M) (m : M) (a b c : ℕ) :
      Safe ⟨.releasing m, some m, replicate b (.data m) ++ replicate a .release,
        replicate c .received, p ++ [m], p⟩
  /-- the sender does not know that the message is delivered -/
  | delivered (p : List M) (m : M) (a c d : ℕ) (hd : d ≤ 1) :
      Safe ⟨.releasing m, none, replicate a .release,
        replicate c .received ++ replicate d .completed, p, p⟩

/-! ### Losing -/

section Replicate

variable {α : Type*} {l : List α} {x y : α} {m n : ℕ}

theorem exists_replicate (h : l.Sublist (replicate n x)) :
  ∃ k ≤ n, l = replicate k x
  :=
  List.sublist_replicate_iff.mp h

theorem exists_replicate_append (h : l.Sublist (replicate m x ++ replicate n y)) :
  ∃ i ≤ m, ∃ j ≤ n, l = replicate i x ++ replicate j y
  := by
  obtain ⟨l₁, l₂, rfl, h₁, h₂⟩ := List.sublist_append_iff.mp h
  obtain ⟨i, hi, rfl⟩ := exists_replicate h₁
  obtain ⟨j, hj, rfl⟩ := exists_replicate h₂
  exact ⟨i, hi, j, hj, rfl⟩

theorem replicate_concat (n : ℕ) (x : α) :
  replicate n x ++ [x] = replicate (n + 1) x
  :=
  List.replicate_succ'.symm

end Replicate

variable {s s' : State M}

/-- Packets that are lost do not matter. -/
theorem Safe.lose (h : Safe s) {forth : List (Forth M)} {back : List Back}
    (hforth : forth.Sublist s.forth) (hback : back.Sublist s.back) :
  Safe { s with forth, back }
  := by
  cases h with
  | idle p a =>
    obtain ⟨a, -, rfl⟩ := exists_replicate hforth
    obtain rfl := List.sublist_nil.mp hback
    apply Safe.idle
  | waiting p m a b =>
    obtain ⟨a, -, b, -, rfl⟩ := exists_replicate_append hforth
    obtain rfl := List.sublist_nil.mp hback
    apply Safe.waiting
  | stored p m b c =>
    obtain ⟨b, -, rfl⟩ := exists_replicate hforth
    obtain ⟨c, -, rfl⟩ := exists_replicate hback
    apply Safe.stored
  | releasing p m a b c =>
    obtain ⟨b, -, a, -, rfl⟩ := exists_replicate_append hforth
    obtain ⟨c, -, rfl⟩ := exists_replicate hback
    apply Safe.releasing
  | delivered p m a c d hd =>
    obtain ⟨a, -, rfl⟩ := exists_replicate hforth
    obtain ⟨c, -, d', hd', rfl⟩ := exists_replicate_append hback
    apply Safe.delivered _ _ _ _ _ (hd'.trans hd)

/-! ### Sending and receiving -/

/-- A sender that is idle may publish. -/
theorem Safe.publish (h : Safe s) (m : M) (hidle : s.stage = .idle) :
  Safe (s.publish m)
  := by
  cases h with
  | idle p a =>
    have hone : [Forth.data m] = replicate 1 (.data m) := rfl
    rw [State.publish, hone]
    apply Safe.waiting
  | waiting => contradiction
  | stored => contradiction
  | releasing => contradiction
  | delivered => contradiction

/-- A sender may send again. -/
theorem Safe.resend (h : Safe s) :
  Safe s.resend
  := by
  cases h with
  | idle p a => apply Safe.idle
  | waiting p m a b =>
    rw [State.resend]
    simp only [List.append_assoc, replicate_concat]
    apply Safe.waiting
  | stored p m b c =>
    rw [State.resend]
    simp only [replicate_concat]
    apply Safe.stored
  | releasing p m a b c =>
    rw [State.resend]
    simp only [List.append_assoc, replicate_concat]
    apply Safe.releasing
  | delivered p m a c d hd =>
    rw [State.resend]
    simp only [replicate_concat]
    apply Safe.delivered _ _ _ _ _ hd

/-- A receiver may take the next packet. -/
theorem Safe.receive (h : Safe s) :
  Safe s.receive
  := by
  cases h with
  | idle p a =>
    cases a with
    | zero => apply Safe.idle
    | succ a => apply Safe.idle
  | waiting p m a b =>
    cases a with
    | zero =>
      cases b with
      | zero => apply Safe.waiting p m 0 0
      | succ b => apply Safe.stored p m b 1
    | succ a => apply Safe.waiting p m a b
  | stored p m b c =>
    cases b with
    | zero => apply Safe.stored p m 0 c
    | succ b =>
      have hback : replicate c Back.received ++ [.received] = replicate (c + 1) .received :=
        replicate_concat c _
      rw [List.replicate_succ, State.receive]
      simp only [hback]
      apply Safe.stored
  | releasing p m a b c =>
    cases b with
    | zero =>
      cases a with
      | zero => apply Safe.releasing p m 0 0 c
      | succ a => apply Safe.delivered (p ++ [m]) m a c 1 le_rfl
    | succ b =>
      have hback : replicate c Back.received ++ [.received] = replicate (c + 1) .received :=
        replicate_concat c _
      rw [List.replicate_succ, List.cons_append, State.receive]
      simp only [hback]
      apply Safe.releasing
  | delivered p m a c d hd =>
    cases a with
    | zero => apply Safe.delivered p m 0 c d hd
    | succ a => apply Safe.delivered p m a c d hd

/-- A sender may take the next answer. -/
theorem Safe.answer (h : Safe s) :
  Safe s.answer
  := by
  cases h with
  | idle p a => apply Safe.idle
  | waiting p m a b => apply Safe.waiting
  | stored p m b c =>
    cases c with
    | zero => apply Safe.stored p m b 0
    | succ c => apply Safe.releasing p m 1 b c
  | releasing p m a b c =>
    cases c with
    | zero => apply Safe.releasing p m a b 0
    | succ c => apply Safe.releasing p m a b c
  | delivered p m a c d hd =>
    cases c with
    | zero =>
      cases d with
      | zero => apply Safe.delivered p m a 0 0 hd
      | succ d =>
        obtain rfl : d = 0 := by omega
        apply Safe.idle p a
    | succ c => apply Safe.delivered p m a c d hd

/-- Each step is safe. -/
theorem Safe.step (h : Safe s) (hstep : Step s s') :
  Safe s'
  := by
  cases hstep with
  | publish m hidle => apply h.publish m hidle
  | resend => apply h.resend
  | receive => apply h.receive
  | answer => apply h.answer
  | lose hforth hback => apply h.lose hforth hback

theorem safe_init :
  Safe (State.init : State M)
  :=
  Safe.idle [] 0

/-- And so is each run. -/
theorem Safe.reaches (h : Safe s) (hreaches : Reaches s s') :
  Safe s'
  := by
  induction hreaches with
  | refl => apply h
  | tail _ hstep ih => apply ih.step hstep

/-! ### What the parties do

A party takes what is next, if that is meant for it, or drops it; what it sends may be lost. -/

/-- What the receiver stores and delivers, and what it sends. -/
inductive Receives : Option (Forth M) → Option M → List M → List Back → Option M → List M → Prop
  where
  | nothing (f : Option (Forth M)) (stored : Option M) (delivered : List M) :
      Receives f stored delivered [] stored delivered
  | data (m : M) (stored : Option M) (delivered : List M) {out : List Back}
      (hout : out.Sublist [.received]) :
      Receives (some (.data m)) stored delivered out (some m) delivered
  | release (m : M) (delivered : List M) {out : List Back} (hout : out.Sublist [.completed]) :
      Receives (some .release) (some m) delivered out none (delivered ++ [m])

/-- What the sender is at next, and what it sends. -/
inductive Answers : Option Back → Stage M → List (Forth M) → Stage M → Prop where
  | nothing (b : Option Back) (stage : Stage M) : Answers b stage [] stage
  | received (m : M) {out : List (Forth M)} (hout : out.Sublist [.release]) :
      Answers (some .received) (.waiting m) out (.releasing m)
  | completed (m : M) : Answers (some .completed) (.releasing m) [] .idle

/-- What the sender may do by itself: what it publishes, and what it sends. -/
inductive Sends : Stage M → List M → List (Forth M) → Stage M → Prop where
  | nothing (stage : Stage M) : Sends stage [] [] stage
  | publish (m : M) {out : List (Forth M)} (hout : out.Sublist [.data m]) :
      Sends .idle [m] out (.waiting m)
  | data (m : M) {out : List (Forth M)} (hout : out.Sublist [.data m]) :
      Sends (.waiting m) [] out (.waiting m)
  | release (m : M) {out : List (Forth M)} (hout : out.Sublist [.release]) :
      Sends (.releasing m) [] out (.releasing m)

theorem Receives.reaches {f : Option (Forth M)} {stored' : Option M} {delivered' : List M}
    {out : List Back} {rest : List (Forth M)}
    (h : Receives f s.stored s.delivered out stored' delivered')
    (hforth : s.forth = f.toList ++ rest) :
  Reaches s { s with
    forth := rest, stored := stored', delivered := delivered', back := s.back ++ out }
  := by
  obtain ⟨stage, stored, forth, back, published, delivered⟩ := s
  simp only at h hforth ⊢
  subst hforth
  cases h with
  | nothing =>
    rw [List.append_nil]
    exact .single (.lose (List.sublist_append_right _ _) (List.Sublist.refl _))
  | data m _ _ hout =>
    apply Relation.ReflTransGen.tail (.single (.receive _))
    apply Step.lose (List.Sublist.refl _) (hout.append_left back)
  | release m _ hout =>
    apply Relation.ReflTransGen.tail (.single (.receive _))
    apply Step.lose (List.Sublist.refl _) (hout.append_left back)

theorem Answers.reaches {b : Option Back} {stage' : Stage M} {out : List (Forth M)}
    {rest : List Back} (h : Answers b s.stage out stage') (hback : s.back = b.toList ++ rest) :
  Reaches s { s with stage := stage', back := rest, forth := s.forth ++ out }
  := by
  obtain ⟨stage, stored, forth, back, published, delivered⟩ := s
  simp only at h hback ⊢
  subst hback
  cases h with
  | nothing =>
    rw [List.append_nil]
    exact .single (.lose (List.Sublist.refl _) (List.sublist_append_right _ _))
  | received m hout =>
    apply Relation.ReflTransGen.tail (.single (.answer _))
    apply Step.lose (hout.append_left forth) (List.Sublist.refl _)
  | completed m =>
    rw [List.append_nil]
    exact .single (.answer _)

theorem Sends.reaches {new : List M} {out : List (Forth M)} {stage' : Stage M}
    (h : Sends s.stage new out stage') :
  Reaches s { s with
    stage := stage', forth := s.forth ++ out, published := s.published ++ new }
  := by
  obtain ⟨stage, stored, forth, back, published, delivered⟩ := s
  simp only at h ⊢
  cases h with
  | nothing =>
    rw [List.append_nil, List.append_nil]
    exact .refl
  | publish m hout =>
    apply Relation.ReflTransGen.tail (.single (.publish m rfl))
    apply Step.lose (hout.append_left forth) (List.Sublist.refl _)
  | data m hout =>
    rw [List.append_nil]
    apply Relation.ReflTransGen.tail (.single (.resend _))
    apply Step.lose (hout.append_left forth) (List.Sublist.refl _)
  | release m hout =>
    rw [List.append_nil]
    apply Relation.ReflTransGen.tail (.single (.resend _))
    apply Step.lose (hout.append_left forth) (List.Sublist.refl _)

/-- All that is on the way is lost. -/
theorem reaches_break (s : State M) :
  Reaches s { s with forth := [], back := [] }
  :=
  .single (.lose (List.nil_sublist _) (List.nil_sublist _))

/-! ### What is delivered -/

/-- The messages that are delivered are the first that were published, each of them once; at most
one is missing. -/
theorem Safe.delivered_begins (h : Safe s) :
  s.delivered <+: s.published ∧ s.published.length ≤ s.delivered.length + 1
  := by
  cases h with
  | idle p a => exact ⟨List.prefix_rfl, Nat.le_succ _⟩
  | waiting p m a b => exact ⟨List.prefix_append p [m], List.length_append.le⟩
  | stored p m b c => exact ⟨List.prefix_append p [m], List.length_append.le⟩
  | releasing p m a b c => exact ⟨List.prefix_append p [m], List.length_append.le⟩
  | delivered p m a c d hd => exact ⟨List.prefix_rfl, Nat.le_succ _⟩

/-- When the sender is idle, all messages are delivered. -/
theorem Safe.delivered_eq_of_idle (h : Safe s) (hidle : s.stage = .idle) :
  s.delivered = s.published
  := by
  cases h with
  | idle p a => rfl
  | waiting => contradiction
  | stored => contradiction
  | releasing => contradiction
  | delivered => contradiction

/-! ### Exchanges that never end -/

/-- The message is delivered, and there is no answer to its release on the way. -/
inductive Stuck (m : M) : State M → Prop where
  | mk (p q : List M) (a c : ℕ) :
      Stuck m ⟨.releasing m, none, replicate a .release, replicate c .received, p, q⟩

variable {m : M}

/-- A sender whose release nobody knows of is stuck. -/
theorem Safe.stuck (h : Safe s) (hstage : s.stage = .releasing m) (hstored : s.stored = none)
    (hback : .completed ∉ s.back) :
  Stuck m s
  := by
  cases h with
  | idle => contradiction
  | waiting => contradiction
  | stored => contradiction
  | releasing => contradiction
  | delivered p m' a c d hd =>
    obtain rfl := Stage.releasing.inj hstage
    cases d with
    | zero =>
      rw [List.replicate_zero, List.append_nil]
      apply Stuck.mk
    | succ d =>
      apply absurd _ hback
      apply List.mem_append_right
      apply List.mem_cons_self

theorem Stuck.step (h : Stuck m s) (hstep : Step s s') :
  Stuck m s'
  := by
  obtain ⟨p, q, a, c⟩ := h
  cases hstep with
  | publish n hidle => contradiction
  | resend =>
    rw [State.resend]
    simp only [replicate_concat]
    apply Stuck.mk
  | receive =>
    cases a with
    | zero => apply Stuck.mk p q 0 c
    | succ a => apply Stuck.mk p q a c
  | answer =>
    cases c with
    | zero => apply Stuck.mk p q a 0
    | succ c => apply Stuck.mk p q a c
  | lose hforth hback =>
    obtain ⟨a, -, rfl⟩ := exists_replicate hforth
    obtain ⟨c, -, rfl⟩ := exists_replicate hback
    apply Stuck.mk

/-- Whatever happens, the sender goes on releasing the message. -/
theorem Stuck.reaches (h : Stuck m s) (hreaches : Reaches s s') :
  s'.stage = .releasing m
  := by
  have hstuck : Stuck m s' := by
    induction hreaches with
    | refl => apply h
    | tail _ hstep ih => apply ih.step hstep
  obtain ⟨p, q, a, c⟩ := hstuck
  rfl

end Handshake
