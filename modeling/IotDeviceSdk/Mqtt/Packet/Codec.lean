import IotDeviceSdk.Foundation.Framing
import IotDeviceSdk.Mqtt.Packet
import Mathlib.Data.List.GetD

/-!
# Packets as frames

A packet on the wire is a frame: a header byte, the length of the rest, and the rest
(`packetFormat`).  The buffers that a `send` function hands to the socket make one frame, unless
they are longer than four digits can tell (`next_sends`), and what was written for a publication
is read back (`publish_sendPublish`).
-/

namespace Mqtt

open CString

/-! ### Header bytes -/

theorem Header.toNat_byte (header : Header) :
  header.byte.toNat
    = header.type * 16 + header.dup.toNat * 8 + header.qos * 2 + header.retain.toNat
  := by
  have htype := header.type.isLt
  have hqos := header.qos.isLt
  have hdup := header.dup.toNat_le
  have hretain := header.retain.toNat_le
  rw [Header.byte, UInt8.toNat_ofNat']
  omega

/-- The bits of a byte that was made of bits. -/
@[simp]
theorem Header.ofByte_byte (header : Header) :
  Header.ofByte header.byte = header
  := by
  obtain ⟨type, dup, qos, retain⟩ := header
  rw [Header.ofByte, Header.toNat_byte]
  dsimp only
  have htype := type.isLt
  have hqos := qos.isLt
  have hdup := dup.toNat_le
  have hretain := retain.toNat_le
  congr 1
  · apply Fin.ext
    rw [Fin.val_ofNat]
    omega
  · cases dup <;> simp only [Bool.toNat_false, Bool.toNat_true, decide_eq_true_eq,
      decide_eq_false_iff_not] <;> omega
  · apply Fin.ext
    rw [Fin.val_ofNat]
    omega
  · cases retain <;> simp only [Bool.toNat_false, Bool.toNat_true, decide_eq_true_eq,
      decide_eq_false_iff_not] <;> omega

/-! ### Remaining lengths -/

/-- Setting the top bit of a digit. -/
theorem or_top {d : ℕ} (h : d < 128) :
  d.toUInt8 ||| 0x80 = (d + 128).toUInt8
  := by
  have htop : (0x80 : UInt8).toNat = 2 ^ 7 * 1 := rfl
  apply UInt8.toNat_inj.mp
  rw [UInt8.toNat_or, Varint.toNat_digit (by omega), Varint.toNat_digit (by omega), htop,
    Nat.or_comm, ← Nat.two_pow_add_eq_or_of_lt h, Nat.add_comm]

theorem encode_eq_digits (n : ℕ) :
  encode n = Varint.digits n
  := by
  induction n using Nat.strongRecOn with
  | ind n ih =>
    rw [encode]
    split
    · have hn : 128 ≤ n := by omega
      rw [or_top (Nat.mod_lt n (by decide)), ih (n / 128) (by omega), ← Varint.digits_of_le hn]
    · rw [Varint.digits_of_lt (by omega), Nat.mod_eq_of_lt (by omega)]

/-! ### Frames -/

/-- A packet on the wire: its header byte and the rest. -/
structure Frame where
  header : UInt8
  body : List UInt8
  deriving DecidableEq

/-- The packet at the front of a text. -/
def next : List UInt8 → Framing.Front UInt8 Frame
  | [] => .more
  | header :: s =>
    match Varint.read 4 s with
    | .more => .more
    | .bad => .bad
    | .done n rest =>
      if rest.length < n then .more else .frame ⟨header, rest.take n⟩ (rest.drop n)

theorem next_done {header : UInt8} {s rest : List UInt8} {n : ℕ}
    (h : Varint.read 4 s = .done n rest) :
  next (header :: s)
    = if rest.length < n then .more else .frame ⟨header, rest.take n⟩ (rest.drop n)
  := by
  simp only [next, h]

theorem next_frame {s rest : List UInt8} {f : Frame} (h : next s = .frame f rest) :
  ∃ header t n tail, s = header :: t ∧ Varint.read 4 t = .done n tail ∧ n ≤ tail.length
    ∧ f = ⟨header, tail.take n⟩ ∧ rest = tail.drop n
  := by
  cases s with
  | nil => contradiction
  | cons header t =>
    cases hr : Varint.read 4 t with
    | more => simp only [next, hr] at h; contradiction
    | bad => simp only [next, hr] at h; contradiction
    | done n tail =>
      rw [next_done hr] at h
      split at h
      · contradiction
      · rename_i hn
        obtain ⟨rfl, rfl⟩ := Framing.Front.frame.inj h
        refine ⟨header, t, n, tail, rfl, hr, Nat.not_lt.mp hn, rfl, rfl⟩

/-- The format of packets. -/
def packetFormat : Framing.Format UInt8 Frame where
  next := next
  next_append {s f rest} u h := by
    obtain ⟨header, t, n, tail, rfl, hr, hn, rfl, rfl⟩ := next_frame h
    rw [List.cons_append, next_done (Varint.read_append u hr), List.length_append,
      if_neg (by omega), List.take_append_of_le_length hn, List.drop_append_of_le_length hn]
  bad_append {s} u h := by
    cases s with
    | nil => contradiction
    | cons header t =>
      cases hr : Varint.read 4 t with
      | more => simp only [next, hr] at h; contradiction
      | bad => simp only [List.cons_append, next, Varint.read_append_bad u hr]
      | done n tail =>
        rw [next_done hr] at h
        split at h <;> contradiction
  shorter {s f rest} h := by
    obtain ⟨header, t, n, tail, rfl, hr, hn, rfl, rfl⟩ := next_frame h
    have hlt := Varint.length_le_of_read hr
    rw [List.length_drop, List.length_cons]
    omega

/-- What is handed to the socket makes one frame. -/
theorem next_sends {header : Header} {buffers : List (List UInt8)}
    (h : buffers.flatten.length < 2 ^ 28) (t : List UInt8) :
  next ((sends header buffers).flatten ++ t) = .frame ⟨header.byte, buffers.flatten⟩ t
  := by
  have hsum : (buffers.map List.length).sum = buffers.flatten.length := List.length_flatten.symm
  rw [sends, List.flatten_cons, encode_eq_digits, hsum, List.cons_append, List.cons_append,
    List.append_assoc, next_done (Varint.read_digits (by decide) (by omega) _),
    if_neg (by rw [List.length_append]; omega), List.take_left, List.drop_left]

/-! ### Reading back -/

@[simp]
theorem length_writeInt (n : ℕ) :
  (writeInt n).length = 2
  := rfl

theorem readInt_append (s t : List UInt8) :
  readInt (s ++ t) s.length = readInt t 0
  := by
  have hdrop : ∀ k, (s ++ t).getD (s.length + k) 0 = t.getD k 0 := by
    intro k
    rw [List.getD_append_right s t 0 _ (Nat.le_add_right _ _), Nat.add_sub_cancel_left]
  rw [readInt, readInt, readChar, readChar, ← Nat.add_zero s.length, hdrop 0, Nat.add_zero,
    hdrop 1]
  rfl

/-- The number written is read back. -/
theorem readInt_writeInt {n : ℕ} (h : n < 65536) (t : List UInt8) :
  readInt (writeInt n ++ t) 0 = n
  := by
  have h0 : readChar (writeInt n ++ t) 0 = (n / 256).toUInt8 := rfl
  have h1 : readChar (writeInt n ++ t) (0 + 1) = (n % 256).toUInt8 := rfl
  rw [readInt, h0, h1, Varint.toNat_digit (by omega), Varint.toNat_digit (by omega)]
  omega

/-- The string written is read back, unless it reaches beyond the end. -/
theorem readUTFlen_writeInt {topic : List UInt8} (htopic : topic.length < 65536)
    {enddata : ℕ} (hend : 2 + topic.length ≤ enddata) (t : List UInt8) :
  readUTFlen (writeInt topic.length ++ (topic ++ t)) 0 enddata
    = some (topic, topic.length, 2 + topic.length)
  := by
  have hdrop : (writeInt topic.length ++ (topic ++ t)).drop (0 + 2) = topic ++ t := rfl
  rw [readUTFlen, if_pos (by omega), readInt_writeInt htopic]
  simp only
  rw [if_pos (by omega), hdrop, List.take_left, Nat.zero_add]

/-- What is read of a publish packet that begins with a topic. -/
theorem publish_topic (header : Header) {topic : List UInt8} (htopic : topic.length < 65536)
    {datalen : ℕ} (hend : 2 + topic.length ≤ datalen) (t : List UInt8) :
  publish header.byte (writeInt topic.length ++ (topic ++ t)) datalen
    = some ⟨header, topic, topic.length, if 0 < header.qos then readInt t 0 else 0,
        if 0 < header.qos then t.drop 2 else t,
        datalen - (2 + topic.length + if 0 < header.qos then 2 else 0 : ℕ)⟩
  := by
  have hassoc : writeInt topic.length ++ (topic ++ t) = (writeInt topic.length ++ topic) ++ t :=
    (List.append_assoc _ _ _).symm
  have hpre : 2 + topic.length = (writeInt topic.length ++ topic).length := by
    rw [List.length_append, length_writeInt]
  have hint : readInt (writeInt topic.length ++ (topic ++ t)) (2 + topic.length) = readInt t 0 := by
    rw [hassoc, hpre, readInt_append]
  have hdrop : (writeInt topic.length ++ (topic ++ t)).drop (2 + topic.length) = t := by
    rw [hassoc, hpre, List.drop_left]
  rw [publish, readUTFlen_writeInt htopic hend]
  simp only [Header.ofByte_byte, hint]
  split
  · rw [← List.drop_drop, hdrop]
  · rw [hdrop, Nat.add_zero]

/-- A publication that fits its packet is read back as it was written, whatever stands in the
memory after the packet. -/
theorem publish_sendPublish {p : Publication} {msgId : ℕ} (htopic : (cstr p.topic).length < 65536)
    (hmsgId : msgId < 65536) (dup : Bool) (qos : Fin 4) (retained : Bool) (beyond : List UInt8) :
  ∃ body, sendPublish p msgId dup qos retained
      = sends ⟨MsgType.publish.toFin, dup, qos, retained⟩ body
    ∧ publish (Header.byte ⟨MsgType.publish.toFin, dup, qos, retained⟩)
        (body.flatten ++ beyond) body.flatten.length
      = some ⟨⟨MsgType.publish.toFin, dup, qos, retained⟩, cstr p.topic, (cstr p.topic).length,
          if 0 < qos then msgId else 0, p.payload ++ beyond, p.payload.length⟩
  := by
  rw [sendPublish]
  by_cases hqos : 0 < qos
  · rw [if_pos hqos]
    refine ⟨_, rfl, ?_⟩
    have hbody : [writeInt (cstr p.topic).length, cstr p.topic, writeInt msgId, p.payload].flatten
          ++ beyond
        = writeInt (cstr p.topic).length
          ++ (cstr p.topic ++ (writeInt msgId ++ (p.payload ++ beyond))) := by
      simp
    have hlength : [writeInt (cstr p.topic).length, cstr p.topic, writeInt msgId,
        p.payload].flatten.length = 2 + (cstr p.topic).length + 2 + p.payload.length := by
      simp
      omega
    have hdrop : (writeInt msgId ++ (p.payload ++ beyond)).drop 2 = p.payload ++ beyond := rfl
    have hpayload : ((2 + (cstr p.topic).length + 2 + p.payload.length : ℕ) : ℤ)
        - (2 + (cstr p.topic).length + 2 : ℕ) = p.payload.length := by
      omega
    rw [hbody, hlength, publish_topic _ htopic (by omega), if_pos hqos, if_pos hqos, if_pos hqos,
      if_pos hqos, readInt_writeInt hmsgId, hdrop, hpayload]
  · rw [if_neg hqos]
    refine ⟨_, rfl, ?_⟩
    have hbody : [writeInt (cstr p.topic).length, cstr p.topic, p.payload].flatten ++ beyond
        = writeInt (cstr p.topic).length ++ (cstr p.topic ++ (p.payload ++ beyond)) := by
      simp
    have hlength : [writeInt (cstr p.topic).length, cstr p.topic, p.payload].flatten.length
        = 2 + (cstr p.topic).length + p.payload.length := by
      simp
      omega
    have hpayload : ((2 + (cstr p.topic).length + p.payload.length : ℕ) : ℤ)
        - (2 + (cstr p.topic).length + 0 : ℕ) = p.payload.length := by
      omega
    rw [hbody, hlength, publish_topic _ htopic (by omega), if_neg hqos, if_neg hqos, if_neg hqos,
      if_neg hqos, hpayload]

end Mqtt
