import IotDeviceSdk.IotDevice.Mgr

/-!
# The topics of a device

Every identity with a device secret that the crypto library can take gives a manager, and
the topics of that manager are those of the identity.  No post topic is a set topic, whatever
the identities and the letter case: `fold_postTopic_ne_fold_setTopic`.
-/

namespace IotDevice

open CString

/-- The identity of a device. -/
structure IotDeviceIdentity where
  productKey : List UInt8
  deviceName : List UInt8
  deviceSecret : List UInt8
  isProVersion : Bool

/-- The product key and the device name have no NUL bytes. -/
def IotDeviceIdentity.NulFree (i : IotDeviceIdentity) : Prop :=
  0 ∉ i.productKey ∧ 0 ∉ i.deviceName

instance (i : IotDeviceIdentity) : Decidable i.NulFree :=
  inferInstanceAs (Decidable (_ ∧ _))

namespace Mgr

/-- The manager was constructed with the identity `i`, at some time. -/
def BuiltFrom (m : Mgr) (i : IotDeviceIdentity) : Prop :=
  ∃ hmac time,
    construct hmac time i.productKey i.deviceName i.deviceSecret i.isProVersion = some m

/-- A manager can be constructed when the length of the device secret fits an `int`. -/
theorem exists_builtFrom (i : IotDeviceIdentity) (h : i.deviceSecret.length < 2147483648) :
  ∃ m : Mgr, m.BuiltFrom i
  := by
  have hengine : CryptoUtil.engine (ascii "sha1") = some .sha1 := by decide
  have hlen : (cstr i.deviceSecret).length ≤ i.deviceSecret.length :=
    (List.takeWhile_prefix _).length_le
  have hnonneg : 0 ≤ Int32.ofNat (cstr i.deviceSecret).length := by
    rw [Int32.le_iff_toInt_le, Int32.toInt_ofNat_of_lt (by omega)]
    apply Int.natCast_nonneg
  have hconstruct : (construct (fun _ _ _ => []) 0 i.productKey i.deviceName i.deviceSecret
      i.isProVersion).isSome := by
    rw [construct, initMqttInfo]
    simp only [CryptoUtil.hmacEncode_of_engine _ _ _ _ _ hengine, strlen_append_zero,
      Option.bind_some, if_pos hnonneg]
    rfl
  obtain ⟨m, hm⟩ := Option.isSome_iff_exists.mp hconstruct
  use m, fun _ _ _ => [], 0

theorem topics_of_builtFrom {m : Mgr} {i : IotDeviceIdentity} (h : m.BuiltFrom i) :
  (m.strSetTopic, m.strPostTopic) = topics i.productKey i.deviceName i.isProVersion
  := by
  obtain ⟨hmac, time, h⟩ := h
  obtain ⟨info, -, hm⟩ := Option.bind_eq_some_iff.mp h
  rw [← Option.some.inj hm]

theorem strSetTopic_of_builtFrom {m : Mgr} {i : IotDeviceIdentity} (h : m.BuiltFrom i) :
  m.strSetTopic = (topics i.productKey i.deviceName i.isProVersion).1
  := congrArg Prod.fst (topics_of_builtFrom h)

theorem strPostTopic_of_builtFrom {m : Mgr} {i : IotDeviceIdentity} (h : m.BuiltFrom i) :
  m.strPostTopic = (topics i.productKey i.deviceName i.isProVersion).2
  := congrArg Prod.snd (topics_of_builtFrom h)

/-- The topics of an identity without NUL bytes have none. -/
theorem zero_notMem_topics
    {i : IotDeviceIdentity} (h : i.NulFree) :
  0 ∉ (topics i.productKey i.deviceName i.isProVersion).1
    ∧ 0 ∉ (topics i.productKey i.deviceName i.isProVersion).2
  := by
  obtain ⟨hkey, hname⟩ := h
  rw [topics]
  split
  · simp only [List.mem_append, hkey, hname, or_false]
    decide
  · simp only [List.mem_append, hkey, hname, or_false]
    decide

/-! ### Post topics and set topics -/

/-- Folding the letters of a string folds those at its end. -/
theorem suffix_fold_append {s t u v : List UInt8} (h : fold t = u ++ v) :
  v <:+ fold (s ++ t)
  := by
  rw [fold_append, h, ← List.append_assoc]
  apply List.suffix_append

/-- The last four letters of a set topic. -/
theorem suffix_fold_setTopic (p d : List UInt8) (isPro : Bool) :
  ascii "/set" <:+ fold (topics p d isPro).1 ∨ ascii "/get" <:+ fold (topics p d isPro).1
  := by
  cases isPro with
  | true =>
    left
    apply suffix_fold_append (u := ascii "/thing/service/property")
    decide
  | false =>
    right
    apply suffix_fold_append (u := [])
    decide

/-- The last four letters of a post topic. -/
theorem suffix_fold_postTopic (p d : List UInt8) (isPro : Bool) :
  ascii "post" <:+ fold (topics p d isPro).2 ∨ ascii "date" <:+ fold (topics p d isPro).2
  := by
  cases isPro with
  | true =>
    left
    apply suffix_fold_append (u := ascii "/thing/event/property/")
    decide
  | false =>
    right
    apply suffix_fold_append (u := ascii "/up")
    decide

/-- No post topic is a set topic, even up to letter case: they end differently. -/
theorem fold_postTopic_ne_fold_setTopic (p d p' d' : List UInt8) (isPro isPro' : Bool) :
  fold (topics p d isPro).2 ≠ fold (topics p' d' isPro').1
  := by
  intro h
  have heq : ∀ u v : List UInt8, u.length = v.length → u <:+ fold (topics p d isPro).2 →
      v <:+ fold (topics p' d' isPro').1 → u = v := by
    intro u v hlen hu hv
    rw [← h] at hv
    apply (List.suffix_of_suffix_length_le hu hv hlen.le).eq_of_length hlen
  rcases suffix_fold_postTopic p d isPro with hpost | hpost
  all_goals
    rcases suffix_fold_setTopic p' d' isPro' with hset | hset
    all_goals
      apply absurd (heq _ _ (by decide) hpost hset)
      decide

end Mgr

end IotDevice
