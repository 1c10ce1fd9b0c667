import Jzf407.Foundation.Buffer
import Jzf407.Foundation.Record
import Jzf407.Foundation.Scan

/-!
# The network configuration and its EEPROM record

`NetworkConfig` of `config.rs`, the 175-byte record it is stored in, and the two address
parsers (`parseIpv4`, `parsePort`). The record is written field by field into a zeroed buffer
(`NetworkConfig.toBytes`) and read back with the checks of the source: magic, prefix length in
`1..=32`, nonzero port, UTF-8 client id; the four credential slots are read leniently, by `readStr`
(`NetworkConfig.fromBytes`).

`NetworkConfig.toBytes_eq_layout` gives the record as the concatenation of its fields, each text
padded to its slot, and `NetworkConfig.fromBytes_layout` what is read from any such concatenation.
Both follow the offsets of the source once; no later proof mentions an offset of a write again.

Together they are the round trip `NetworkConfig.fromBytes_toBytes` for well-formed configurations
(`NetworkConfig.WellFormed`): those that pass the record's own checks and whose texts contain no
NUL. A configuration with a NUL in a text is stored, too, but cut when it is read. What is read is
always well formed (`NetworkConfig.wellFormed_of_fromBytes`), and so is the configuration of a blank
device.
-/

namespace Jzf407

open Foundation

/-- An IPv4 address as its four octets. -/
structure Ipv4 where
  a : UInt8
  b : UInt8
  c : UInt8
  d : UInt8
  deriving DecidableEq, Repr

/-- The octets in order. -/
def Ipv4.octets (ip : Ipv4) : List UInt8 := [ip.a, ip.b, ip.c, ip.d]

/-! ### The configuration -/

def defaultIp : Ipv4 := ⟨192, 168, 137, 2⟩
def defaultGw : Ipv4 := ⟨192, 168, 137, 1⟩
def defaultBroker : Ipv4 := ⟨192, 168, 137, 1⟩
def defaultPort : UInt16 := 1883
def defaultPrefix : UInt8 := 24
def defaultId : Str := "stm32-jzf407".toList

/-- The magic of the configuration record. -/
def configMagic : List UInt8 := [0xC0, 0x4F, 0x19, 0x1E]

/-- The length of the record. -/
def configLen : ℕ := 175

/-- The capacity of a credential. -/
def credMax : ℕ := 32

/-- The network configuration. -/
structure NetworkConfig where
  ip : Ipv4
  prefixLen : UInt8
  gateway : Ipv4
  brokerIp : Ipv4
  brokerPort : UInt16
  clientId : HString 24
  mqttUser : HString credMax
  mqttPass : HString credMax
  webUser : HString credMax
  webPass : HString credMax
  deriving DecidableEq

/-- The configuration of a blank device. -/
def NetworkConfig.default : NetworkConfig where
  ip := defaultIp
  prefixLen := defaultPrefix
  gateway := defaultGw
  brokerIp := defaultBroker
  brokerPort := defaultPort
  clientId := (HString.tryFrom defaultId).getD HString.empty
  mqttUser := HString.empty
  mqttPass := HString.empty
  webUser := HString.empty
  webPass := HString.empty

/-- A text without NUL, which a NUL-terminated slot can hold whole. -/
def NulFree (s : Str) : Prop := (0 : UInt8) ∉ asBytes s

instance (s : Str) : Decidable (NulFree s) := inferInstanceAs (Decidable (_ ∉ _))

/-- **Well-formed configurations**: the prefix length and port pass the checks made when a
record is read, and no text contains a NUL. -/
structure NetworkConfig.WellFormed (c : NetworkConfig) : Prop where
  prefix_pos : 1 ≤ c.prefixLen
  prefix_le : c.prefixLen ≤ 32
  port_ne : c.brokerPort ≠ 0
  clientId : NulFree c.clientId.chars
  mqttUser : NulFree c.mqttUser.chars
  mqttPass : NulFree c.mqttPass.chars
  webUser : NulFree c.webUser.chars
  webPass : NulFree c.webPass.chars

theorem NetworkConfig.wellFormed_default : NetworkConfig.default.WellFormed where
  prefix_pos := by decide
  prefix_le := by decide
  port_ne := by decide
  clientId := by decide
  mqttUser := by decide
  mqttPass := by decide
  webUser := by decide
  webPass := by decide

/-! ### Writing the record -/

/-- Copy a text into the slot from offset `i` up to `j`, as much of it as the slot holds. -/
def writeStr (b : List UInt8) (i j : ℕ) (s : List UInt8) : List UInt8 :=
  copyAt b i (s.take (min s.length (j - i)))

/-- The record of a configuration. -/
def NetworkConfig.toBytes (c : NetworkConfig) : List UInt8 :=
  let b := zeros configLen
  let b := copyAt b 0 configMagic
  let b := copyAt b 4 c.ip.octets
  let b := copyAt b 8 [c.prefixLen]
  let b := copyAt b 12 c.gateway.octets
  let b := copyAt b 16 c.brokerIp.octets
  let b := copyAt b 20 [(c.brokerPort >>> 8).toUInt8]
  let b := copyAt b 21 [c.brokerPort.toUInt8]
  let id := c.clientId.asBytes
  let n := min id.length 24
  let b := copyAt b 23 (id.take n)
  let b := writeStr b 47 79 c.mqttUser.asBytes
  let b := writeStr b 79 111 c.mqttPass.asBytes
  let b := writeStr b 111 143 c.webUser.asBytes
  writeStr b 143 175 c.webPass.asBytes

/-! ### Reading a record -/

/-- Read a credential slot: invalid UTF-8 reads as the empty text. -/
def readStr (N : ℕ) (slot : List UInt8) : HString N :=
  match fromUtf8 (beforeNul slot) with
  | some s => (HString.tryFrom s).getD HString.empty
  | none => HString.empty

/-- The big-endian port of a record. -/
def recordPort (hi lo : UInt8) : UInt16 := (hi.toUInt16 <<< 8) ||| lo.toUInt16

/-- Read a configuration from a record. -/
def NetworkConfig.fromBytes (b : List UInt8) : Option NetworkConfig :=
  if b.length < configLen then none
  else if slice b 0 4 ≠ configMagic then none
  else
    let prefixLen := b.getD 8 0
    if ¬ (1 ≤ prefixLen ∧ prefixLen ≤ 32) then none
    else
      let port := recordPort (b.getD 20 0) (b.getD 21 0)
      if port = 0 then none
      else do
        let id ← fromUtf8 (beforeNul (slice b 23 47))
        let clientId ← HString.tryFrom id
        return {
          ip := ⟨b.getD 4 0, b.getD 5 0, b.getD 6 0, b.getD 7 0⟩
          prefixLen := prefixLen
          gateway := ⟨b.getD 12 0, b.getD 13 0, b.getD 14 0, b.getD 15 0⟩
          brokerIp := ⟨b.getD 16 0, b.getD 17 0, b.getD 18 0, b.getD 19 0⟩
          brokerPort := port
          clientId := clientId
          mqttUser := readStr credMax (slice b 47 79)
          mqttPass := readStr credMax (slice b 79 111)
          webUser := readStr credMax (slice b 111 143)
          webPass := readStr credMax (slice b 143 175) }

/-! ### Round trip -/

/-- The 23 bytes before the text slots. -/
def recordHead (magic : List UInt8) (ip gateway broker : Ipv4) (prefixLen hi lo : UInt8)
    (pad : List UInt8) (reserved : UInt8) : List UInt8 :=
  magic ++ ip.octets ++ [prefixLen] ++ pad ++ gateway.octets ++ broker.octets ++
    [hi, lo, reserved]

private theorem head_writes (magic : List UInt8) (hmagic : magic.length = 4)
    (ip gateway broker : Ipv4) (prefixLen hi lo : UInt8) :
    copyAt (copyAt (copyAt (copyAt (copyAt (copyAt (copyAt (zeros configLen) 0 magic)
      4 ip.octets) 8 [prefixLen]) 12 gateway.octets) 16 broker.octets) 20 [hi]) 21 [lo] =
      recordHead magic ip gateway broker prefixLen hi lo (zeros 3) 0 ++ zeros 152 := by
  have hoct : ∀ ip : Ipv4, ip.octets.length = 4 := fun _ => rfl
  have hlen : configLen = 175 := rfl
  rw [← List.nil_append (zeros configLen),
    copyAt_append_zeros [] magic 0 171 (by simp) (by omega),
    copyAt_append_zeros _ ip.octets 0 167 (by simp [hmagic]) (by simp [hoct]),
    copyAt_append_zeros _ [prefixLen] 0 166 (by simp [hmagic, hoct]) (by simp),
    copyAt_append_zeros _ gateway.octets 3 159 (by simp [hmagic, hoct]) (by simp [hoct]),
    copyAt_append_zeros _ broker.octets 0 155 (by simp [hmagic, hoct]) (by simp [hoct]),
    copyAt_append_zeros _ [hi] 0 154 (by simp [hmagic, hoct]) (by simp),
    copyAt_append_zeros _ [lo] 0 153 (by simp [hmagic, hoct]) (by simp)]
  simp [recordHead, zeros, List.replicate_succ]

private theorem length_recordHead {magic pad : List UInt8} (hmagic : magic.length = 4)
    (hpad : pad.length = 3) (ip gateway broker : Ipv4) (prefixLen hi lo reserved : UInt8) :
    (recordHead magic ip gateway broker prefixLen hi lo pad reserved).length = 23 := by
  simp [recordHead, Ipv4.octets, hmagic, hpad]

/-- Writing the five text slots after a finished head. -/
private theorem slot_writes {head id mu mp wu wp : List UInt8} (hhead : head.length = 23)
    (hid : id.length ≤ 24) (hmu : mu.length ≤ 32) (hmp : mp.length ≤ 32) (hwu : wu.length ≤ 32)
    (hwp : wp.length ≤ 32) :
    writeStr (writeStr (writeStr (writeStr (copyAt (head ++ zeros 152) 23
      (id.take (min id.length 24))) 47 79 mu) 79 111 mp) 111 143 wu) 143 175 wp =
      head ++ (slot 24 id ++ (slot 32 mu ++ (slot 32 mp ++ (slot 32 wu ++ slot 32 wp)))) := by
  have htake : ∀ {s : List UInt8} {n : ℕ}, s.length ≤ n → s.take (min s.length n) = s :=
    fun h => List.take_of_length_le (by omega)
  simp only [writeStr, Nat.reduceSub, htake hid, htake hmu, htake hmp, htake hwu, htake hwp]
  rw [copyAt_append_zeros head id 0 (152 - id.length) (by omega) (by omega),
    copyAt_append_zeros _ mu (24 - id.length) (128 - mu.length)
      (by simp only [List.length_append, length_zeros]; omega) (by omega),
    copyAt_append_zeros _ mp (32 - mu.length) (96 - mp.length)
      (by simp only [List.length_append, length_zeros]; omega) (by omega),
    copyAt_append_zeros _ wu (32 - mp.length) (64 - wu.length)
      (by simp only [List.length_append, length_zeros]; omega) (by omega),
    copyAt_append_zeros _ wp (32 - wu.length) (32 - wp.length)
      (by simp only [List.length_append, length_zeros]; omega) (by omega)]
  simp [slot, zeros]

/-- **The record is the concatenation of its fields**, each text padded to its slot. -/
theorem NetworkConfig.toBytes_eq_layout (c : NetworkConfig) :
    c.toBytes =
      recordHead configMagic c.ip c.gateway c.brokerIp c.prefixLen
          (c.brokerPort >>> 8).toUInt8 c.brokerPort.toUInt8 (zeros 3) 0 ++
        (slot 24 c.clientId.asBytes ++ (slot 32 c.mqttUser.asBytes ++
          (slot 32 c.mqttPass.asBytes ++ (slot 32 c.webUser.asBytes ++
            slot 32 c.webPass.asBytes)))) := by
  have hfit : ∀ {N : ℕ} (t : HString N), t.asBytes.length ≤ N := fun t =>
    (length_asBytes t.chars).trans_le t.fits
  unfold NetworkConfig.toBytes
  simp only []
  rw [head_writes configMagic rfl]
  exact slot_writes (length_recordHead rfl rfl _ _ _ _ _ _ _) (hfit c.clientId)
    (hfit c.mqttUser) (hfit c.mqttPass) (hfit c.webUser) (hfit c.webPass)

theorem length_slot_asBytes {N : ℕ} (t : HString N) : (slot N t.asBytes).length = N :=
  length_slot ((length_asBytes t.chars).trans_le t.fits)

/-- A record is 175 bytes long. -/
theorem NetworkConfig.length_toBytes (c : NetworkConfig) : c.toBytes.length = configLen := by
  have hid := length_slot_asBytes c.clientId
  have hcred : ∀ t : HString credMax, (slot 32 t.asBytes).length = 32 := length_slot_asBytes
  rw [toBytes_eq_layout, List.length_append, length_recordHead rfl (length_zeros 3)]
  simp only [List.length_append, hid, hcred]
  rfl

/-- **What is read from a record laid out field by field.** -/
theorem NetworkConfig.fromBytes_layout {ip gateway broker : Ipv4}
    {prefixLen hi lo reserved : UInt8} {pad id mu mp wu wp : List UInt8}
    (hpad : pad.length = 3) (hid : id.length = 24) (hmu : mu.length = 32)
    (hmp : mp.length = 32) (hwu : wu.length = 32) (hwp : wp.length = 32)
    (hbits : 1 ≤ prefixLen ∧ prefixLen ≤ 32) (hport : recordPort hi lo ≠ 0) :
    fromBytes (recordHead configMagic ip gateway broker prefixLen hi lo pad reserved ++
        (id ++ (mu ++ (mp ++ (wu ++ wp))))) =
      (do
        let id ← fromUtf8 (beforeNul id)
        let clientId ← HString.tryFrom id
        return {
          ip := ip, prefixLen := prefixLen, gateway := gateway, brokerIp := broker
          brokerPort := recordPort hi lo, clientId := clientId
          mqttUser := readStr credMax mu, mqttPass := readStr credMax mp
          webUser := readStr credMax wu, webPass := readStr credMax wp }) := by
  obtain ⟨p0, p1, p2, rfl⟩ : ∃ p0 p1 p2, pad = [p0, p1, p2] := by
    match pad, hpad with
    | [p0, p1, p2], _ => exact ⟨p0, p1, p2, rfl⟩
  set head := recordHead configMagic ip gateway broker prefixLen hi lo [p0, p1, p2] reserved
    with hhead
  have hheadLen : head.length = 23 := length_recordHead rfl rfl _ _ _ _ _ _ _
  set b := head ++ (id ++ (mu ++ (mp ++ (wu ++ wp)))) with hb
  have hlen : b.length = 175 := by simp [hb, hheadLen, hid, hmu, hmp, hwu, hwp]
  -- the five slots, each at the offset of what precedes it
  have hidSlice : slice b 23 47 = id := by
    have h := slice_append head id (mu ++ (mp ++ (wu ++ wp)))
    rwa [hheadLen, hid] at h
  have hmuSlice : slice b 47 79 = mu := by
    have h := slice_append (head ++ id) mu (mp ++ (wu ++ wp))
    rwa [List.length_append, hheadLen, hid, hmu, List.append_assoc] at h
  have hmpSlice : slice b 79 111 = mp := by
    have h := slice_append (head ++ id ++ mu) mp (wu ++ wp)
    simpa [hheadLen, hid, hmu, hmp] using h
  have hwuSlice : slice b 111 143 = wu := by
    have h := slice_append (head ++ id ++ mu ++ mp) wu wp
    simpa [hheadLen, hid, hmu, hmp, hwu] using h
  have hwpSlice : slice b 143 175 = wp := by
    have h := slice_append (head ++ id ++ mu ++ mp ++ wu) wp []
    simpa [hheadLen, hid, hmu, hmp, hwu, hwp] using h
  have hmagic : slice b 0 4 = configMagic := rfl
  have hprefixByte : b.getD 8 0 = prefixLen := rfl
  have hportByte : recordPort (b.getD 20 0) (b.getD 21 0) = recordPort hi lo := rfl
  rw [fromBytes, if_neg (by rw [hlen]; decide), if_neg (by rw [hmagic]; simp)]
  simp only [hprefixByte, hportByte, hidSlice, hmuSlice, hmpSlice, hwuSlice, hwpSlice]
  rw [if_neg (by simpa using hbits), if_neg hport]
  rfl

theorem recordPort_toBytes (port : UInt16) :
    recordPort (port >>> 8).toUInt8 port.toUInt8 = port := by
  have hp := port.toNat_lt
  have hdisj := Nat.shiftLeft_add_eq_or_of_lt (b := port.toNat % 256) (i := 8) (by omega)
    (port.toNat / 256)
  apply UInt16.toNat_inj.mp
  simp only [recordPort, UInt16.toNat_or, UInt16.toNat_shiftLeft, UInt8.toNat_toUInt16,
    UInt16.toNat_toUInt8, UInt16.toNat_shiftRight, UInt16.reduceToNat, Nat.reduceMod,
    Nat.shiftRight_eq_div_pow, Nat.reducePow]
  rw [Nat.mod_eq_of_lt (show port.toNat / 256 < 256 by omega),
    Nat.mod_eq_of_lt (by rw [Nat.shiftLeft_eq]; omega), ← hdisj, Nat.shiftLeft_eq]
  omega

/-- A NUL-free credential is read back from its slot. -/
theorem readStr_slot {t : HString credMax} (h : NulFree t.chars) :
    readStr credMax (slot 32 t.asBytes) = t := by
  rw [readStr, beforeNul_slot (show (0 : UInt8) ∉ t.asBytes from h), HString.asBytes,
    fromUtf8_asBytes]
  simp

/-- **Round trip**: a well-formed configuration is read back from its record. -/
theorem NetworkConfig.fromBytes_toBytes {c : NetworkConfig} (h : c.WellFormed) :
    fromBytes c.toBytes = some c := by
  have hid := length_slot_asBytes c.clientId
  have hcred : ∀ t : HString credMax, (slot 32 t.asBytes).length = 32 := length_slot_asBytes
  rw [toBytes_eq_layout, fromBytes_layout (length_zeros 3) hid (hcred c.mqttUser)
    (hcred c.mqttPass) (hcred c.webUser) (hcred c.webPass)
    ⟨h.prefix_pos, h.prefix_le⟩ (by rw [recordPort_toBytes]; exact h.port_ne),
    beforeNul_slot (show (0 : UInt8) ∉ c.clientId.asBytes from h.clientId),
    readStr_slot h.mqttUser, readStr_slot h.mqttPass, readStr_slot h.webUser,
    readStr_slot h.webPass, recordPort_toBytes, HString.asBytes, fromUtf8_asBytes]
  simp

/-! ### What is read is well formed -/

theorem nulFree_of_fromUtf8 {b : List UInt8} {s : Str} (h : fromUtf8 (beforeNul b) = some s) :
    NulFree s := by
  rw [NulFree, fromUtf8_eq_some_iff.mp h]
  exact nul_notMem_beforeNul b

theorem nulFree_readStr {N : ℕ} (b : List UInt8) : NulFree (readStr N b).chars := by
  unfold readStr
  cases h : fromUtf8 (beforeNul b) with
  | none => simp [NulFree]
  | some s =>
    dsimp only
    cases ht : (HString.tryFrom s : Option (HString N)) with
    | none => simp [NulFree]
    | some t =>
      rw [Option.getD_some, HString.tryFrom_eq_some_iff.mp ht]
      exact nulFree_of_fromUtf8 h

/-- The checks that an image passes which is read, and what is read. -/
theorem NetworkConfig.checks_of_fromBytes {b : List UInt8} {c : NetworkConfig}
    (h : fromBytes b = some c) :
    configLen ≤ b.length ∧ slice b 0 4 = configMagic ∧ 1 ≤ b.getD 8 0 ∧ b.getD 8 0 ≤ 32 ∧
      recordPort (b.getD 20 0) (b.getD 21 0) ≠ 0 ∧
      ∃ id clientId, fromUtf8 (beforeNul (slice b 23 47)) = some id ∧
        HString.tryFrom id = some clientId ∧
        c = {
          ip := ⟨b.getD 4 0, b.getD 5 0, b.getD 6 0, b.getD 7 0⟩
          prefixLen := b.getD 8 0
          gateway := ⟨b.getD 12 0, b.getD 13 0, b.getD 14 0, b.getD 15 0⟩
          brokerIp := ⟨b.getD 16 0, b.getD 17 0, b.getD 18 0, b.getD 19 0⟩
          brokerPort := recordPort (b.getD 20 0) (b.getD 21 0)
          clientId := clientId
          mqttUser := readStr credMax (slice b 47 79)
          mqttPass := readStr credMax (slice b 79 111)
          webUser := readStr credMax (slice b 111 143)
          webPass := readStr credMax (slice b 143 175) } := by
  -- one split for each check of the source, in its order; a check that fails returns nothing
  unfold fromBytes at h
  split at h
  · cases h
  next hlen =>
  split at h
  · cases h
  next hmagic =>
  dsimp only at h
  split at h
  · cases h
  next hbits =>
  split at h
  · cases h
  next hport =>
  obtain ⟨id, hid, h⟩ := Option.bind_eq_some_iff.mp h
  obtain ⟨clientId, hclient, h⟩ := Option.bind_eq_some_iff.mp h
  obtain ⟨hpos, hle⟩ := not_not.mp hbits
  exact ⟨Nat.not_lt.mp hlen, not_not.mp hmagic, hpos, hle, hport, id, clientId, hid, hclient,
    (Option.some.inj h).symm⟩

/-- **Only well-formed configurations are read.** -/
theorem NetworkConfig.wellFormed_of_fromBytes {b : List UInt8} {c : NetworkConfig}
    (h : fromBytes b = some c) : c.WellFormed := by
  obtain ⟨-, -, hpos, hle, hport, id, clientId, hid, hclient, rfl⟩ := checks_of_fromBytes h
  exact {
    prefix_pos := hpos
    prefix_le := hle
    port_ne := hport
    clientId := by
      rw [HString.tryFrom_eq_some_iff.mp hclient]
      exact nulFree_of_fromUtf8 hid
    mqttUser := nulFree_readStr _
    mqttPass := nulFree_readStr _
    webUser := nulFree_readStr _
    webPass := nulFree_readStr _ }

/-! ### Parsing addresses and ports -/

/-- The next dotted part as an octet. -/
def nextOctet : List Str → Option (UInt8 × List Str)
  | [] => none
  | part :: parts => (parseU8 part).map fun o => (o, parts)

/-- Parse a dotted IPv4 address: exactly four octets. -/
def parseIpv4 (s : Str) : Option Ipv4 := do
  let (a, parts) ← nextOctet (s.splitOn '.')
  let (b, parts) ← nextOctet parts
  let (c, parts) ← nextOctet parts
  let (d, parts) ← nextOctet parts
  if parts.isEmpty then some ⟨a, b, c, d⟩ else none

/-- Parse a nonzero port. -/
def parsePort (s : Str) : Option UInt16 := do
  let p ← parseU16 (trim s)
  if p = 0 then none else some p

theorem parsePort_ne_zero {s : Str} {p : UInt16} (h : parsePort s = some p) : p ≠ 0 := by
  obtain ⟨q, -, hq⟩ := Option.bind_eq_some_iff.mp h
  split at hq
  · cases hq
  · next hne => rwa [← Option.some.inj hq]

end Jzf407
