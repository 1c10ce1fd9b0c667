import Jzf407.Logic.ConfigRecord

/-!
# A configuration record that was overwritten in part

A save that fails has stored the first `n` bytes of the new record over the old one. What is read
from the result is a matter of single bytes, and this module says which: `TornValid` has the checks
of `fromBytes`, each of them on bytes that are perhaps half new and half old (`tornByte`), and
`FieldsKept` says that no byte that is read has changed. A field of fixed length is read whole
(`BytesKept`), a text up to its first NUL (`TextKept`), and a credential not at all when its text
is not valid UTF-8 (`CredentialKept`).

`TearKeeps` puts these together, for a record that passes the checks or stands for the default
configuration before, and passes them or does so afterwards. It is exact
(`getD_fromBytes_torn_eq_iff`).
-/

namespace Jzf407

open Foundation

/-! ### Bytes, old and new -/

/-- A byte of the torn record: a new one if it was stored, and otherwise an old one. -/
def tornByte (old new : List UInt8) (n k : ℕ) : UInt8 :=
  if k < n then new.getD k 0 else old.getD k 0

/-- The bytes of the torn record from an offset on. -/
def tornSlot (old new : List UInt8) (n i len : ℕ) : List UInt8 :=
  (List.range len).map fun k => tornByte old new n (i + k)

/-- **The torn record passes the checks**: the magic, the prefix length, the port and the client
id, each of them perhaps half new and half old. -/
structure TornValid (old new : List UInt8) (n : ℕ) : Prop where
  magic : ∀ k < 4, tornByte old new n k = configMagic.getD k 0
  prefix_pos : 1 ≤ tornByte old new n 8
  prefix_le : tornByte old new n 8 ≤ 32
  port_ne : tornByte old new n 20 ≠ 0 ∨ tornByte old new n 21 ≠ 0
  clientId : ValidUtf8 (beforeNul (tornSlot old new n 23 24))

/-! ### What is read -/

/-- The bytes that are stored agree with the old ones from `i` up to `j`. -/
def BytesKept (old new : List UInt8) (n i j : ℕ) : Prop :=
  ∀ k, i ≤ k → k < j → k < n → new.getD k 0 = old.getD k 0

/-- The bytes that are stored agree with the text in the old slot from `i` up to `j`: with the
bytes up to its first NUL. -/
def TextKept (old new : List UInt8) (n i j : ℕ) : Prop :=
  ∀ k, i ≤ k → k < j → k < n → (∀ m, i ≤ m → m < k → old.getD m 0 ≠ 0) →
    new.getD k 0 = old.getD k 0

/-- A credential slot that is read as the empty text. -/
def ReadsEmpty (slot : List UInt8) : Prop :=
  beforeNul slot = [] ∨ ¬ ValidUtf8 (beforeNul slot)

/-- The text in the credential slot from `i` on is kept, or read as empty before and after. -/
def CredentialKept (old new : List UInt8) (n i : ℕ) : Prop :=
  TextKept old new n i (i + 32) ∨
    ReadsEmpty (tornSlot old new n i 32) ∧ ReadsEmpty (slice old i (i + 32))

/-- **The bytes that are stored change no field.** -/
structure FieldsKept (old new : List UInt8) (n : ℕ) : Prop where
  ip : BytesKept old new n 4 8
  prefixLen : BytesKept old new n 8 9
  gateway : BytesKept old new n 12 16
  brokerIp : BytesKept old new n 16 20
  brokerPort : BytesKept old new n 20 22
  clientId : TextKept old new n 23 47
  mqttUser : CredentialKept old new n 47
  mqttPass : CredentialKept old new n 79
  webUser : CredentialKept old new n 111
  webPass : CredentialKept old new n 143

/-- **The stored bytes keep the configuration.** Where both records pass the checks, the bytes
change no field. A record that is refused stands for the default configuration, so the other one
may then differ in no field from the record of that. -/
structure TearKeeps (old new : List UInt8) (n : ℕ) : Prop where
  accepted : ValidRecord old → TornValid old new n → FieldsKept old new n
  refused : ValidRecord old → ¬ TornValid old new n →
    FieldsKept NetworkConfig.default.toBytes old configLen
  mended : ¬ ValidRecord old → TornValid old new n →
    FieldsKept NetworkConfig.default.toBytes (new.take n ++ old.drop n) configLen

/-! ### The torn record, byte by byte -/

variable {old new : List UInt8} {n : ℕ}

theorem length_tornRecord (hold : old.length = configLen) (hnew : new.length = configLen)
    (hn : n ≤ configLen) : (new.take n ++ old.drop n).length = configLen := by
  rw [List.length_append, List.length_take, List.length_drop]
  omega

theorem slice_tornRecord (hold : old.length = configLen) (hnew : new.length = configLen)
    (hn : n ≤ configLen) {i len : ℕ} (hi : i + len ≤ configLen) :
    slice (new.take n ++ old.drop n) i (i + len) = tornSlot old new n i len := by
  rw [slice_eq_map_getD (hi.trans (length_tornRecord hold hnew hn).ge), tornSlot]
  exact List.map_congr_left fun k _ => getD_torn (hn.trans hnew.ge) (i + k)

/-- **The checks of the torn record.** -/
theorem validRecord_torn_iff (hold : old.length = configLen) (hnew : new.length = configLen)
    (hn : n ≤ configLen) : ValidRecord (new.take n ++ old.drop n) ↔ TornValid old new n := by
  have hbyte : ∀ k, (new.take n ++ old.drop n).getD k 0 = tornByte old new n k :=
    getD_torn (hn.trans hnew.ge)
  have hmagic : slice (new.take n ++ old.drop n) 0 4 = configMagic ↔
      ∀ k < 4, tornByte old new n k = configMagic.getD k 0 := by
    have hbytes : configMagic = (List.range 4).map fun k => configMagic.getD k 0 := rfl
    have hslot := slice_tornRecord (i := 0) hold hnew hn (show 0 + 4 ≤ configLen by decide)
    rw [Nat.zero_add] at hslot
    rw [hslot, hbytes, tornSlot, List.map_inj_left]
    simp only [List.mem_range, Nat.zero_add, ← hbytes]
  have hport : 256 * (tornByte old new n 20).toNat + (tornByte old new n 21).toNat ≠ 0 ↔
      tornByte old new n 20 ≠ 0 ∨ tornByte old new n 21 ≠ 0 := by
    have hzero : ∀ b : UInt8, b ≠ 0 ↔ b.toNat ≠ 0 := fun b => not_congr UInt8.toNat_inj.symm
    rw [hzero, hzero]
    omega
  have hid := slice_tornRecord (i := 23) hold hnew hn (show 23 + 24 ≤ configLen by decide)
  rw [validRecord_iff, and_iff_right (length_tornRecord hold hnew hn).ge, hmagic, hbyte, hbyte,
    hbyte, hport, hid]
  exact ⟨fun ⟨h₁, h₂, h₃, h₄, h₅⟩ => ⟨h₁, h₂, h₃, h₄, h₅⟩, fun h => ⟨h.1, h.2, h.3, h.4, h.5⟩⟩

/-- A byte of the torn record is the old one exactly when no other was stored there. -/
theorem tornByte_eq_iff {k : ℕ} :
    tornByte old new n k = old.getD k 0 ↔ (k < n → new.getD k 0 = old.getD k 0) := by
  unfold tornByte
  split
  · next hk => rw [forall_prop_of_true hk]
  · next hk => exact iff_of_true rfl fun h => absurd h hk

theorem slice_torn_eq_iff (hold : old.length = configLen) (hnew : new.length = configLen)
    (hn : n ≤ configLen) {i len : ℕ} (hi : i + len ≤ configLen) :
    slice (new.take n ++ old.drop n) i (i + len) = slice old i (i + len) ↔
      BytesKept old new n i (i + len) := by
  rw [slice_tornRecord hold hnew hn hi, slice_eq_map_getD (hi.trans hold.ge), tornSlot,
    List.map_inj_left]
  simp only [List.mem_range, tornByte_eq_iff]
  constructor
  · intro h k hik hkj
    obtain ⟨k, rfl⟩ := Nat.exists_eq_add_of_le hik
    exact h k (by omega)
  · exact fun h k hk => h (i + k) (Nat.le_add_right i k) (by omega)

theorem text_torn_eq_iff (hold : old.length = configLen) (hnew : new.length = configLen)
    (hn : n ≤ configLen) {i j : ℕ} (hj : j ≤ configLen) :
    beforeNul (slice (new.take n ++ old.drop n) i j) = beforeNul (slice old i j) ↔
      TextKept old new n i j := by
  rw [beforeNul_slice_eq_iff (hj.trans (length_tornRecord hold hnew hn).ge) (hj.trans hold.ge)]
  refine forall_congr' fun k => forall_congr' fun _ => forall_congr' fun _ => ?_
  rw [getD_torn (hn.trans hnew.ge)]
  change (_ → tornByte old new n k = old.getD k 0) ↔ _
  rw [tornByte_eq_iff]
  exact ⟨fun h hk hbefore => h hbefore hk, fun h hbefore hk => h hk hbefore⟩

/-- A credential is that of another slot exactly when the texts are equal or both are read as
empty. -/
theorem credential_eq_iff {a b : List UInt8} :
    credential a = credential b ↔ beforeNul a = beforeNul b ∨ ReadsEmpty a ∧ ReadsEmpty b := by
  have hempty : ∀ slot, credential slot = [] ↔ ReadsEmpty slot := by
    intro slot
    unfold credential ReadsEmpty
    split
    · next hvalid => rw [or_iff_left (not_not_intro hvalid)]
    · next hno => exact iff_of_true rfl (.inr hno)
  constructor
  · intro h
    by_cases ha : ValidUtf8 (beforeNul a)
    · by_cases hb : ValidUtf8 (beforeNul b)
      · left
        rwa [credential, if_pos ha, credential, if_pos hb] at h
      · have hb' := (hempty b).mpr (.inr hb)
        exact .inr ⟨(hempty a).mp (h.trans hb'), .inr hb⟩
    · have ha' := (hempty a).mpr (.inr ha)
      exact .inr ⟨.inr ha, (hempty b).mp (h.symm.trans ha')⟩
  · rintro (h | ⟨ha, hb⟩)
    · rw [credential, credential, h]
    · rw [(hempty a).mpr ha, (hempty b).mpr hb]

theorem credential_torn_eq_iff (hold : old.length = configLen) (hnew : new.length = configLen)
    (hn : n ≤ configLen) {i : ℕ} (hi : i + 32 ≤ configLen) :
    credential (slice (new.take n ++ old.drop n) i (i + 32)) =
        credential (slice old i (i + 32)) ↔ CredentialKept old new n i := by
  rw [credential_eq_iff, text_torn_eq_iff hold hnew hn hi, slice_tornRecord hold hnew hn hi]
  rfl

/-- **Read field by field**, the torn record is the old one exactly when the bytes that are
stored change no field. -/
theorem forall_value_torn_iff (hold : old.length = configLen) (hnew : new.length = configLen)
    (hn : n ≤ configLen) :
    (∀ f, RecordField.value (new.take n ++ old.drop n) f = RecordField.value old f) ↔
      FieldsKept old new n := by
  have hslice (i len : ℕ) (hi : i + len ≤ configLen) := slice_torn_eq_iff hold hnew hn hi
  have hcredential {i : ℕ} (hi : i + 32 ≤ configLen) := credential_torn_eq_iff hold hnew hn hi
  have htext := text_torn_eq_iff hold hnew hn (i := 23) (show 47 ≤ configLen by decide)
  constructor
  · intro h
    exact {
      ip := (hslice 4 4 (by decide)).mp (h .ip)
      prefixLen := (hslice 8 1 (by decide)).mp (h .prefixLen)
      gateway := (hslice 12 4 (by decide)).mp (h .gateway)
      brokerIp := (hslice 16 4 (by decide)).mp (h .brokerIp)
      brokerPort := (hslice 20 2 (by decide)).mp (h .brokerPort)
      clientId := htext.mp (h .clientId)
      mqttUser := (hcredential (by decide)).mp (h .mqttUser)
      mqttPass := (hcredential (by decide)).mp (h .mqttPass)
      webUser := (hcredential (by decide)).mp (h .webUser)
      webPass := (hcredential (by decide)).mp (h .webPass) }
  · intro h f
    cases f with
    | ip => exact (hslice 4 4 (by decide)).mpr h.ip
    | prefixLen => exact (hslice 8 1 (by decide)).mpr h.prefixLen
    | gateway => exact (hslice 12 4 (by decide)).mpr h.gateway
    | brokerIp => exact (hslice 16 4 (by decide)).mpr h.brokerIp
    | brokerPort => exact (hslice 20 2 (by decide)).mpr h.brokerPort
    | clientId => exact htext.mpr h.clientId
    | mqttUser => exact (hcredential (by decide)).mpr h.mqttUser
    | mqttPass => exact (hcredential (by decide)).mpr h.mqttPass
    | webUser => exact (hcredential (by decide)).mpr h.webUser
    | webPass => exact (hcredential (by decide)).mpr h.webPass

/-- A record is read as the default configuration exactly when it changes no field of the record
of that. -/
theorem forall_value_default_iff {b : List UInt8} (hb : b.length = configLen) :
    (∀ f, RecordField.value b f = RecordField.stored NetworkConfig.default f) ↔
      FieldsKept NetworkConfig.default.toBytes b configLen := by
  have hlen : NetworkConfig.default.toBytes.length = configLen :=
    NetworkConfig.default.length_toBytes
  have hstored := (validRecord_of_fromBytes
    (NetworkConfig.fromBytes_toBytes NetworkConfig.wellFormed_default)).2
  have hall : b.take configLen ++ NetworkConfig.default.toBytes.drop configLen = b := by
    rw [← hb, List.take_length, hb, ← hlen, List.drop_length, List.append_nil]
  rw [← forall_value_torn_iff hlen hb le_rfl, hall]
  exact forall_congr' fun f => by rw [hstored f]

/-- **When a torn record is read as the old one**, the default configuration standing for a record
that is refused. -/
theorem getD_fromBytes_torn_eq_iff (hold : old.length = configLen) (hnew : new.length = configLen)
    (hn : n ≤ configLen) :
    (NetworkConfig.fromBytes (new.take n ++ old.drop n)).getD NetworkConfig.default =
        (NetworkConfig.fromBytes old).getD NetworkConfig.default ↔ TearKeeps old new n := by
  rw [getD_fromBytes_eq_iff]
  have htorn := validRecord_torn_iff hold hnew hn
  have hvalues := forall_value_torn_iff hold hnew hn
  have hdefault := forall_value_default_iff hold
  have htornDefault := forall_value_default_iff (length_tornRecord hold hnew hn)
  by_cases hvalid : ValidRecord old
  · rw [if_pos hvalid]
    by_cases hpasses : ValidRecord (new.take n ++ old.drop n)
    · -- both records are read as they are
      rw [if_pos hpasses, hvalues]
      have hyes := htorn.mp hpasses
      refine ⟨fun h => ?_, fun h => h.accepted hvalid hyes⟩
      exact {
        accepted := fun _ _ => h
        refused := fun _ hno => absurd hyes hno
        mended := fun hno => absurd hvalid hno }
    · -- the save has spoilt the record
      rw [if_neg hpasses, hdefault]
      have hno := mt htorn.mpr hpasses
      refine ⟨fun h => ?_, fun h => h.refused hvalid hno⟩
      exact {
        accepted := fun _ hyes => absurd hyes hno
        refused := fun _ _ => h
        mended := fun hno => absurd hvalid hno }
  · rw [if_neg hvalid, htorn, htornDefault]
    refine ⟨fun h => ?_, fun h => h.mended hvalid⟩
    exact {
      accepted := fun hyes => absurd hyes hvalid
      refused := fun hyes => absurd hyes hvalid
      mended := fun _ => h }

end Jzf407
