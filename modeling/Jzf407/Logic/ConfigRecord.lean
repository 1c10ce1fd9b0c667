import Jzf407.Logic.NetworkConfig

/-!
# What a configuration record holds

A byte image is read as a configuration when it passes the checks of `fromBytes`
(`ValidRecord`), and then field by field (`RecordField`): addresses, prefix length and port as they
stand, the client id up to its first NUL, and a credential up to its first NUL if that is valid
UTF-8, empty otherwise (`credential`). `fromBytes_eq_some_iff` says so for every image, whatever it
holds: `RecordField.value` is what the image has for a field, and `RecordField.stored` what the
configuration has.

Two consequences. A configuration is given by the bytes of its fields (`ext_stored`), so two
images that agree field by field are read alike; `getD_fromBytes_eq_iff` has the cases in which one
of them or both are refused and stand for a default. And the configurations that survive a round
trip through a record are the well-formed ones, and no others (`fromBytes_toBytes_iff`): what is
read always passes the checks again, and has no NUL in a text.

Bytes are compared here, and texts only through their bytes. The client id must decode, a credential
need not, and that is the whole of the difference between the five text slots.
-/

namespace Jzf407

open Foundation

/-! ### Valid records -/

/-- **The images that are read as a configuration.** The credentials are not looked at. -/
structure ValidRecord (b : List UInt8) : Prop where
  length : configLen ≤ b.length
  magic : slice b 0 4 = configMagic
  prefix_pos : 1 ≤ b.getD 8 0
  prefix_le : b.getD 8 0 ≤ 32
  port_ne : 256 * (b.getD 20 0).toNat + (b.getD 21 0).toNat ≠ 0
  clientId : ValidUtf8 (beforeNul (slice b 23 47))

theorem validRecord_iff {b : List UInt8} :
    ValidRecord b ↔ configLen ≤ b.length ∧ slice b 0 4 = configMagic ∧ 1 ≤ b.getD 8 0 ∧
      b.getD 8 0 ≤ 32 ∧ 256 * (b.getD 20 0).toNat + (b.getD 21 0).toNat ≠ 0 ∧
        ValidUtf8 (beforeNul (slice b 23 47)) :=
  ⟨fun h => ⟨h.1, h.2, h.3, h.4, h.5, h.6⟩, fun ⟨h₁, h₂, h₃, h₄, h₅, h₆⟩ =>
    ⟨h₁, h₂, h₃, h₄, h₅, h₆⟩⟩

instance (b : List UInt8) : Decidable (ValidRecord b) := decidable_of_iff _ validRecord_iff.symm

/-! ### Fields -/

/-- The fields of a record. -/
inductive RecordField
  | ip
  | prefixLen
  | gateway
  | brokerIp
  | brokerPort
  | clientId
  | mqttUser
  | mqttPass
  | webUser
  | webPass
  deriving DecidableEq, Repr

/-- The content of a credential slot: empty unless it is valid UTF-8. -/
def credential (slot : List UInt8) : List UInt8 :=
  if ValidUtf8 (beforeNul slot) then beforeNul slot else []

namespace RecordField

/-- The bytes that an image holds for a field. -/
def value (b : List UInt8) : RecordField → List UInt8
  | ip => slice b 4 8
  | prefixLen => slice b 8 9
  | gateway => slice b 12 16
  | brokerIp => slice b 16 20
  | brokerPort => slice b 20 22
  | clientId => beforeNul (slice b 23 47)
  | mqttUser => credential (slice b 47 79)
  | mqttPass => credential (slice b 79 111)
  | webUser => credential (slice b 111 143)
  | webPass => credential (slice b 143 175)

/-- The bytes of a field of a configuration. -/
def stored (c : NetworkConfig) : RecordField → List UInt8
  | ip => c.ip.octets
  | prefixLen => [c.prefixLen]
  | gateway => c.gateway.octets
  | brokerIp => c.brokerIp.octets
  | brokerPort => [(c.brokerPort >>> 8).toUInt8, c.brokerPort.toUInt8]
  | clientId => c.clientId.asBytes
  | mqttUser => c.mqttUser.asBytes
  | mqttPass => c.mqttPass.asBytes
  | webUser => c.webUser.asBytes
  | webPass => c.webPass.asBytes

end RecordField

theorem octets_injective {x y : Ipv4} (h : x.octets = y.octets) : x = y := by
  obtain ⟨a, b, c, d⟩ := x
  obtain ⟨a', b', c', d'⟩ := y
  simpa [Ipv4.octets] using h

/-- **A configuration is given by the bytes of its fields.** -/
theorem ext_stored {c d : NetworkConfig}
    (h : ∀ f, RecordField.stored c f = RecordField.stored d f) :
    c = d := by
  have hport : c.brokerPort = d.brokerPort := by
    obtain ⟨hhi, hlo⟩ : (c.brokerPort >>> 8).toUInt8 = (d.brokerPort >>> 8).toUInt8 ∧
        c.brokerPort.toUInt8 = d.brokerPort.toUInt8 := by
      simpa [RecordField.stored] using h .brokerPort
    rw [← recordPort_toBytes c.brokerPort, hhi, hlo, recordPort_toBytes]
  have hprefix : c.prefixLen = d.prefixLen := by
    simpa [RecordField.stored] using h .prefixLen
  have hip := octets_injective (h .ip)
  have hgateway := octets_injective (h .gateway)
  have hbroker := octets_injective (h .brokerIp)
  have hid := HString.asBytes_injective (h .clientId)
  have hmu := HString.asBytes_injective (h .mqttUser)
  have hmp := HString.asBytes_injective (h .mqttPass)
  have hwu := HString.asBytes_injective (h .webUser)
  have hwp := HString.asBytes_injective (h .webPass)
  cases c
  cases d
  simp only [NetworkConfig.mk.injEq]
  exact ⟨hip, hprefix, hgateway, hbroker, hport, hid, hmu, hmp, hwu, hwp⟩

/-! ### Reading, field by field -/

theorem toNat_recordPort (hi lo : UInt8) :
    (recordPort hi lo).toNat = 256 * hi.toNat + lo.toNat := by
  have hhi := hi.toNat_lt
  have hlo := lo.toNat_lt
  have hdisj := Nat.shiftLeft_add_eq_or_of_lt (b := lo.toNat) (i := 8) (by omega) hi.toNat
  simp only [recordPort, UInt16.toNat_or, UInt16.toNat_shiftLeft, UInt8.toNat_toUInt16,
    UInt16.reduceToNat, Nat.reduceMod]
  rw [Nat.mod_eq_of_lt (by rw [Nat.shiftLeft_eq]; omega), ← hdisj, Nat.shiftLeft_eq]
  omega

/-- The port of a record has the bytes of the record. -/
theorem bytes_recordPort (hi lo : UInt8) :
    (recordPort hi lo >>> 8).toUInt8 = hi ∧ (recordPort hi lo).toUInt8 = lo := by
  have hhi := hi.toNat_lt
  have hlo := lo.toNat_lt
  have hport := toNat_recordPort hi lo
  constructor
  · apply UInt8.toNat_inj.mp
    simp only [UInt16.toNat_toUInt8, UInt16.toNat_shiftRight, UInt16.reduceToNat, Nat.reduceMod,
      Nat.shiftRight_eq_div_pow, Nat.reducePow]
    omega
  · apply UInt8.toNat_inj.mp
    rw [UInt16.toNat_toUInt8]
    omega

/-- A credential slot of 32 bytes is read as its content. -/
theorem asBytes_readStr {slot : List UInt8} (hslot : slot.length ≤ credMax) :
    (readStr credMax slot).asBytes = credential slot := by
  have hfits : (beforeNul slot).length ≤ credMax :=
    (List.length_take_le' _ _).trans hslot
  unfold readStr credential
  split
  · next s hs =>
    have hbytes := fromUtf8_eq_some_iff.mp hs
    have hlen : byteLen s ≤ credMax := by rwa [← length_asBytes, hbytes]
    rw [if_pos ⟨s, hbytes⟩, HString.tryFrom, dif_pos hlen]
    exact hbytes
  · next hs =>
    rw [if_neg (by rw [validUtf8_iff, hs]; simp)]
    rfl

/-- What is read from an image passes the checks, and has the fields of the image. -/
theorem validRecord_of_fromBytes {b : List UInt8} {c : NetworkConfig}
    (h : NetworkConfig.fromBytes b = some c) :
    ValidRecord b ∧ ∀ f, RecordField.value b f = RecordField.stored c f := by
  obtain ⟨hlen, hmagic, hpos, hle, hport, id, clientId, hid, hclient, rfl⟩ :=
    NetworkConfig.checks_of_fromBytes h
  have hlen' : 175 ≤ b.length := hlen
  have hidBytes := fromUtf8_eq_some_iff.mp hid
  refine ⟨⟨hlen', hmagic, hpos, hle, ?_, ⟨id, hidBytes⟩⟩, fun f => ?_⟩
  · rw [← toNat_recordPort]
    exact fun h => hport (UInt16.toNat_inj.mp h)
  · cases f with
    | ip | gateway | brokerIp => exact slice_eq_map_getD (n := 4) (by omega)
    | prefixLen => exact slice_eq_map_getD (n := 1) (by omega)
    | brokerPort =>
      have hbytes := bytes_recordPort (b.getD 20 0) (b.getD 21 0)
      rw [RecordField.stored, hbytes.1, hbytes.2]
      exact slice_eq_map_getD (n := 2) (by omega)
    | clientId =>
      rw [RecordField.stored, HString.asBytes, HString.tryFrom_eq_some_iff.mp hclient]
      exact hidBytes.symm
    | mqttUser | mqttPass | webUser | webPass =>
      refine (asBytes_readStr ?_).symm
      rw [length_slice, credMax]
      omega

/-- An image that passes the checks is read. -/
theorem ValidRecord.isSome_fromBytes {b : List UInt8} (h : ValidRecord b) :
    (NetworkConfig.fromBytes b).isSome := by
  obtain ⟨id, hid⟩ := h.clientId
  have hidLen : byteLen id ≤ 24 := by
    have hslot : (slice b 23 47).length ≤ 24 := by
      rw [length_slice]
      omega
    rw [← length_asBytes, hid]
    exact (List.length_take_le' _ _).trans hslot
  have hport : recordPort (b.getD 20 0) (b.getD 21 0) ≠ 0 := by
    intro hzero
    refine h.port_ne ?_
    rw [← toNat_recordPort, hzero]
    rfl
  rw [NetworkConfig.fromBytes, if_neg (Nat.not_lt.mpr h.length), if_neg (by simp [h.magic])]
  dsimp only
  rw [if_neg (not_not.mpr ⟨h.prefix_pos, h.prefix_le⟩), if_neg hport,
    fromUtf8_eq_some_iff.mpr hid]
  simp [HString.tryFrom, hidLen]

/-- **What is read from an image**: `fromBytes` accepts exactly the valid records, and the
configuration it returns has the fields of the record. -/
theorem fromBytes_eq_some_iff {b : List UInt8} {c : NetworkConfig} :
    NetworkConfig.fromBytes b = some c ↔
      ValidRecord b ∧ ∀ f, RecordField.value b f = RecordField.stored c f := by
  refine ⟨validRecord_of_fromBytes, fun ⟨hvalid, hfields⟩ => ?_⟩
  obtain ⟨d, hd⟩ := Option.isSome_iff_exists.mp hvalid.isSome_fromBytes
  have hsame : c = d := ext_stored fun f =>
    (hfields f).symm.trans ((validRecord_of_fromBytes hd).2 f)
  rw [hsame, hd]

/-- **The round trip**: a configuration is read back from its record, equal in all its fields,
exactly when it is well formed. -/
theorem fromBytes_toBytes_iff (c : NetworkConfig) :
    NetworkConfig.fromBytes c.toBytes = some c ↔
      (1 ≤ c.prefixLen ∧ c.prefixLen ≤ 32) ∧ c.brokerPort ≠ 0 ∧
        ∀ s ∈ [c.clientId.chars, c.mqttUser.chars, c.mqttPass.chars, c.webUser.chars,
          c.webPass.chars], (0 : UInt8) ∉ asBytes s := by
  constructor
  · intro h
    have hwf := NetworkConfig.wellFormed_of_fromBytes h
    refine ⟨⟨hwf.prefix_pos, hwf.prefix_le⟩, hwf.port_ne, ?_⟩
    simp only [List.forall_mem_cons, List.not_mem_nil, false_implies, implies_true, and_true]
    exact ⟨hwf.clientId, hwf.mqttUser, hwf.mqttPass, hwf.webUser, hwf.webPass⟩
  · rintro ⟨⟨hpos, hle⟩, hport, htexts⟩
    simp only [List.forall_mem_cons, List.not_mem_nil, false_implies, implies_true, and_true]
      at htexts
    obtain ⟨hid, hmu, hmp, hwu, hwp⟩ := htexts
    exact NetworkConfig.fromBytes_toBytes ⟨hpos, hle, hport, hid, hmu, hmp, hwu, hwp⟩

/-! ### Images that are read alike -/

/-- What two images that are both read have in their fields decides whether they are read
alike; an image that is not read stands for the default configuration. -/
theorem getD_fromBytes_eq_iff {a b : List UInt8} :
    (NetworkConfig.fromBytes a).getD NetworkConfig.default =
        (NetworkConfig.fromBytes b).getD NetworkConfig.default ↔
      if ValidRecord b then
        if ValidRecord a then ∀ f, RecordField.value a f = RecordField.value b f
        else ∀ f, RecordField.value b f = RecordField.stored NetworkConfig.default f
      else
        ValidRecord a →
          ∀ f, RecordField.value a f = RecordField.stored NetworkConfig.default f := by
  have hnone : ∀ {x}, ¬ ValidRecord x → NetworkConfig.fromBytes x = none := by
    intro x hx
    rw [Option.eq_none_iff_forall_ne_some]
    exact fun c hc => hx (fromBytes_eq_some_iff.mp hc).1
  have hsome : ∀ {x}, ValidRecord x → ∃ c, NetworkConfig.fromBytes x = some c ∧
      ∀ f, RecordField.value x f = RecordField.stored c f := by
    intro x hx
    obtain ⟨c, hc⟩ := Option.isSome_iff_exists.mp hx.isSome_fromBytes
    exact ⟨c, hc, (fromBytes_eq_some_iff.mp hc).2⟩
  have hext : ∀ {c d : NetworkConfig},
      c = d ↔ ∀ f, RecordField.stored c f = RecordField.stored d f :=
    ⟨fun h _ => by rw [h], ext_stored⟩
  -- one case for each of the two being read or refused
  by_cases hb : ValidRecord b
  · obtain ⟨d, hd, hdf⟩ := hsome hb
    by_cases ha : ValidRecord a
    · obtain ⟨c, hc, hcf⟩ := hsome ha
      simp only [hb, ha, if_true, hc, hd, Option.getD_some, hcf, hdf, hext]
    · simp only [hb, ha, if_true, if_false, hnone ha, hd, Option.getD_none, Option.getD_some, hdf,
        hext]
      exact forall_congr' fun f => eq_comm
  · by_cases ha : ValidRecord a
    · obtain ⟨c, hc, hcf⟩ := hsome ha
      simp only [hb, ha, if_false, hnone hb, hc, Option.getD_none, Option.getD_some, hcf, hext,
        forall_const]
    · simp only [hb, ha, if_false, hnone hb, hnone ha, false_implies]

end Jzf407
