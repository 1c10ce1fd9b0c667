import Jzf407.Web.Form

/-!
# The configuration form, rendered and submitted

The dashboard writes the configuration into the value attributes of a form: addresses and
numbers in decimal (`fmtIpv4`, `fmtU8`, `fmtU16`), texts escaped for HTML (`writeAttr`), passwords
not at all. `formFields` is their order on the page. A browser resolves the escapes
(`decodeEntities`), encodes each value (`formEncode`) and sends the pairs back.

Submitted unedited, the form asks for the configuration that is stored
(`dashboardBody_unchanged`): every pair stores the value that its field has already.

Three ways there and back make this up, each with its own lemma. What is written into an attribute
is read from it as it was (`decodeEntities_writeAttr`), since no escape of a stored text exceeds the
buffer. What is encoded is decoded to the same bytes (`decodeBytes_formEncode`). And what a field is
shown as is parsed to the same value: `parseIpv4_fmtIpv4` for addresses, and for the rest
`setField_shown`, with an empty text for the passwords, which keeps what is stored.

So the pair of a field changes nothing (`applyPair_submittedPair`), and neither do the pairs of any
fields in any order (`parseForm_submittedPairs`).
-/

namespace Jzf407

open Foundation

/-! ### What the dashboard writes -/

/-- Append a number in decimal; what does not fit is dropped as a whole. -/
def pushDec {N : ℕ} (n : ℕ) (buf : HString N) : HString N :=
  keep (HString.pushStr (decimal n)) buf

/-- An address in dotted form. -/
def fmtIpv4 (addr : Ipv4) : HString 16 :=
  let s := HString.empty
  let s := pushDec addr.a.toNat s
  let s := keep (HString.push '.') s
  let s := pushDec addr.b.toNat s
  let s := keep (HString.push '.') s
  let s := pushDec addr.c.toNat s
  let s := keep (HString.push '.') s
  pushDec addr.d.toNat s

/-- An 8-bit number in decimal. -/
def fmtU8 (v : UInt8) : HString 4 := pushDec v.toNat HString.empty

/-- A 16-bit number in decimal. -/
def fmtU16 (v : UInt16) : HString 6 := pushDec v.toNat HString.empty

/-- The text of an attribute: nothing at all when the escaped text exceeds 256 bytes. -/
def writeAttr (s : Str) : Str :=
  match htmlEscapeAttr 256 s with
  | .ok escaped => escaped.chars
  | .error _ => []

/-- The value attribute of a field of the form. -/
def valueAttr (cfg : NetworkConfig) : FormKey → Str
  | .ip => (fmtIpv4 cfg.ip).chars
  | .prefixLen => (fmtU8 cfg.prefixLen).chars
  | .gateway => (fmtIpv4 cfg.gateway).chars
  | .brokerIp => (fmtIpv4 cfg.brokerIp).chars
  | .brokerPort => (fmtU16 cfg.brokerPort).chars
  | .clientId => writeAttr cfg.clientId.chars
  | .mqttUser => writeAttr cfg.mqttUser.chars
  | .mqttPass => []
  | .webUser => writeAttr cfg.webUser.chars
  | .webPass => []

/-- The fields in the order of the page. -/
def formFields : List FormKey :=
  [.ip, .prefixLen, .gateway, .brokerIp, .brokerPort, .clientId, .mqttUser, .mqttPass, .webUser,
    .webPass]

/-! ### What a browser sends -/

/-- An attribute value as a browser reads it: the five escapes of the page resolved. -/
def decodeEntities : Str → Str
  | [] => []
  | '&' :: 'a' :: 'm' :: 'p' :: ';' :: s => '&' :: decodeEntities s
  | '&' :: 'l' :: 't' :: ';' :: s => '<' :: decodeEntities s
  | '&' :: 'g' :: 't' :: ';' :: s => '>' :: decodeEntities s
  | '&' :: 'q' :: 'u' :: 'o' :: 't' :: ';' :: s => '"' :: decodeEntities s
  | '&' :: '#' :: '3' :: '9' :: ';' :: s => '\'' :: decodeEntities s
  | c :: s => c :: decodeEntities s

/-- The bytes that form encoding leaves as they are: letters, digits and `*-._`. -/
def isFormSafe (b : UInt8) : Bool :=
  (0x61 ≤ b && b ≤ 0x7a) || (0x41 ≤ b && b ≤ 0x5a) || (0x30 ≤ b && b ≤ 0x39) ||
    b == '*'.toUInt8 || b == '-'.toUInt8 || b == '.'.toUInt8 || b == '_'.toUInt8

/-- An upper-case hexadecimal digit. -/
def hexUpper (n : UInt8) : Char := "0123456789ABCDEF".toList.getD n.toNat '0'

/-- The form encoding of a byte. -/
def encodeByte (b : UInt8) : Str :=
  if b = ' '.toUInt8 then ['+']
  else if isFormSafe b then [Char.ofUInt8 b]
  else ['%', hexUpper (b >>> 4), hexUpper (b &&& 0x0f)]

/-- The form encoding of a value. -/
def formEncode (s : Str) : Str := (asBytes s).flatMap encodeByte

/-- The pair that is sent for a field, its value unedited. -/
def submittedPair (cfg : NetworkConfig) (field : FormKey) : Str :=
  field.name ++ '=' :: formEncode (decodeEntities (valueAttr cfg field))

/-- **The body of the form, submitted unedited.** -/
def dashboardBody (cfg : NetworkConfig) : Str :=
  ['&'].intercalate (formFields.map (submittedPair cfg))

/-! ### Every encoder is undone -/

theorem chars_pushDec {N k n : ℕ} {buf : HString N} (hk : 0 < k) (hn : n < 10 ^ k)
    (hroom : byteLen buf.chars + k ≤ N) :
    (pushDec n buf).chars = buf.chars ++ decimal n := by
  have hlen := byteLen_decimal_le hk hn
  refine HString.chars_keep_pushStr ?_
  rw [byteLen_append]
  omega

/-- The digits of an octet and the dot after it. -/
private theorem chars_pushOctetDot {N : ℕ} (buf : HString N) (o : UInt8)
    (hroom : byteLen buf.chars + 4 ≤ N) :
    (keep (HString.push '.') (pushDec o.toNat buf)).chars =
      buf.chars ++ (decimal o.toNat ++ ['.']) := by
  have ho : o.toNat < 10 ^ 3 := o.toNat_lt.trans (by decide)
  have hlen := byteLen_decimal_le (by omega) ho
  have hdot : '.'.utf8Size = 1 := rfl
  rw [HString.chars_keep_push, chars_pushDec (by omega) ho (by omega), if_pos,
    List.append_assoc]
  rw [byteLen_append, byteLen_append, byteLen_cons, byteLen_nil]
  omega

theorem byteLen_decimal_octet (o : UInt8) : byteLen (decimal o.toNat) ≤ 3 :=
  byteLen_decimal_le (by omega) (o.toNat_lt.trans (by decide))

/-- The dotted form of an address. -/
theorem chars_fmtIpv4 (ip : Ipv4) :
    (fmtIpv4 ip).chars = decimal ip.a.toNat ++ '.' :: (decimal ip.b.toNat ++ '.' ::
      (decimal ip.c.toNat ++ '.' :: decimal ip.d.toNat)) := by
  have ha := byteLen_decimal_octet ip.a
  have hb := byteLen_decimal_octet ip.b
  have hc := byteLen_decimal_octet ip.c
  have hdot : '.'.utf8Size = 1 := rfl
  let first : HString 16 := keep (HString.push '.') (pushDec ip.a.toNat HString.empty)
  let second := keep (HString.push '.') (pushDec ip.b.toNat first)
  let third := keep (HString.push '.') (pushDec ip.c.toNat second)
  have hfirst : first.chars = decimal ip.a.toNat ++ ['.'] :=
    chars_pushOctetDot HString.empty ip.a (by simp)
  have hsecond : second.chars = first.chars ++ (decimal ip.b.toNat ++ ['.']) := by
    refine chars_pushOctetDot first ip.b ?_
    simp only [hfirst, byteLen_append, byteLen_cons, byteLen_nil, hdot]
    omega
  have hthird : third.chars = second.chars ++ (decimal ip.c.toNat ++ ['.']) := by
    refine chars_pushOctetDot second ip.c ?_
    simp only [hsecond, hfirst, byteLen_append, byteLen_cons, byteLen_nil, hdot]
    omega
  have hlast : (pushDec ip.d.toNat third).chars = third.chars ++ decimal ip.d.toNat := by
    refine chars_pushDec (k := 3) (by omega) (ip.d.toNat_lt.trans (by decide)) ?_
    simp only [hthird, hsecond, hfirst, byteLen_append, byteLen_cons, byteLen_nil, hdot]
    omega
  calc (fmtIpv4 ip).chars = (pushDec ip.d.toNat third).chars := rfl
    _ = _ := by
      rw [hlast, hthird, hsecond, hfirst]
      simp only [List.append_assoc, List.cons_append, List.nil_append]

/-- An address is parsed back from its dotted form. -/
theorem parseIpv4_fmtIpv4 (ip : Ipv4) : parseIpv4 (fmtIpv4 ip).chars = some ip := by
  have hdot : ∀ n, '.' ∉ decimal n := fun n => notMem_decimal n (by decide)
  have hsplit : (fmtIpv4 ip).chars.splitOn '.' =
      [decimal ip.a.toNat, decimal ip.b.toNat, decimal ip.c.toNat, decimal ip.d.toNat] := by
    rw [chars_fmtIpv4, List.splitOn_append_cons_self_of_not_mem (hdot _),
      List.splitOn_append_cons_self_of_not_mem (hdot _),
      List.splitOn_append_cons_self_of_not_mem (hdot _), List.splitOn_eq_singleton (hdot _)]
  rw [parseIpv4, hsplit]
  simp [nextOctet, parseU8_decimal]

/-- The browser reads the escape of a character as the character. -/
theorem decodeEntities_escapeChar (ch : Char) (s : Str) :
    decodeEntities (escapeChar ch ++ s) = ch :: decodeEntities s := by
  unfold escapeChar
  split
  · next h => rw [h]; rfl
  split
  · next h => rw [h]; rfl
  split
  · next h => rw [h]; rfl
  split
  · next h => rw [h]; rfl
  split
  · next h => rw [h]; rfl
  · next hamp _ _ _ _ =>
    -- a character that is not escaped begins no escape
    rw [List.singleton_append, decodeEntities.eq_def]
    split <;> simp_all

/-- The browser reads an escaped text as the text. -/
theorem decodeEntities_flatMap_escapeChar (s : Str) :
    decodeEntities (s.flatMap escapeChar) = s := by
  induction s with
  | nil => rfl
  | cons ch s ih => rw [List.flatMap_cons, decodeEntities_escapeChar, ih]

/-- An attribute is read as the text that was escaped. -/
theorem decodeEntities_writeAttr {s : Str} (h : 6 * byteLen s ≤ 256) :
    decodeEntities (writeAttr s) = s := by
  obtain ⟨t, ht, hchars⟩ := htmlEscapeAttr_eq_ok h
  rw [writeAttr, ht]
  dsimp only
  rw [hchars, decodeEntities_flatMap_escapeChar]

/-- A text without escapes is read as it stands. -/
theorem decodeEntities_of_notMem {s : Str} (h : '&' ∉ s) : decodeEntities s = s := by
  induction s with
  | nil => rfl
  | cons ch s ih =>
    rw [List.mem_cons, not_or] at h
    rw [decodeEntities.eq_def]
    split <;> simp_all

/-- A byte that stands for itself is encoded as its character. -/
private theorem asBytes_safe : ∀ b : UInt8, isFormSafe b = true →
    asBytes [Char.ofUInt8 b] = [b] ∧ b ≠ '+'.toUInt8 ∧ b ≠ '%'.toUInt8 :=
  forall_byte (by decide +kernel)

/-- A percent escape consists of two digits, and these of the halves of the byte. -/
private theorem asBytes_escape : ∀ b : UInt8,
    asBytes ['%', hexUpper (b >>> 4), hexUpper (b &&& 0x0f)] =
        ['%'.toUInt8, (hexUpper (b >>> 4)).toUInt8, (hexUpper (b &&& 0x0f)).toUInt8] ∧
      hexDigit (hexUpper (b >>> 4)).toUInt8 = some (b >>> 4) ∧
      hexDigit (hexUpper (b &&& 0x0f)).toUInt8 = some (b &&& 0x0f) ∧
      (b >>> 4) <<< 4 ||| (b &&& 0x0f) = b :=
  forall_byte (by decide +kernel)

/-- No separator and no white space is sent for a byte. -/
private theorem encodeByte_clean (b : UInt8) :
    ∀ c ∈ encodeByte b, c ≠ '&' ∧ isWhitespace c = false := by
  have hall : ∀ b : UInt8, (encodeByte b).all (fun c => c != '&' && !isWhitespace c) = true :=
    forall_byte (by decide +kernel)
  have hb := hall b
  simpa using hb

theorem decodeBytes_encodeByte (b : UInt8) (rest : List UInt8) :
    decodeBytes (asBytes (encodeByte b) ++ rest) = (decodeBytes rest).map (b :: ·) := by
  unfold encodeByte
  by_cases hspace : b = ' '.toUInt8
  · have hplus : asBytes ['+'] = ['+'.toUInt8] := rfl
    rw [if_pos hspace, hspace, hplus, List.singleton_append, decodeBytes.eq_def]
    dsimp only
    rw [if_pos rfl]
  rw [if_neg hspace]
  by_cases hsafe : isFormSafe b = true
  · obtain ⟨hbytes, hplus, hpercent⟩ := asBytes_safe b hsafe
    rw [if_pos hsafe, hbytes, List.singleton_append, decodeBytes.eq_def]
    dsimp only
    rw [if_neg hplus, if_neg hpercent]
  · obtain ⟨hbytes, hhi, hlo, hjoin⟩ := asBytes_escape b
    rw [if_neg hsafe, hbytes, List.cons_append, List.cons_append, List.singleton_append,
      decodeBytes.eq_def]
    dsimp only
    rw [if_neg (by decide), if_pos rfl]
    simp only [hhi, hlo, hjoin]

/-- **Form encoding is undone** by decoding. -/
theorem decodeBytes_formEncode (s : Str) :
    decodeBytes (asBytes (formEncode s)) = some (asBytes s) := by
  have hbytes : ∀ bytes : List UInt8,
      decodeBytes (asBytes (bytes.flatMap encodeByte)) = some bytes := by
    intro bytes
    induction bytes with
    | nil => rfl
    | cons b bytes ih =>
      rw [List.flatMap_cons, asBytes_append, decodeBytes_encodeByte, ih, Option.map_some]
  exact hbytes (asBytes s)

theorem formEncode_clean {s : Str} {c : Char} (h : c ∈ formEncode s) :
    c ≠ '&' ∧ isWhitespace c = false := by
  obtain ⟨b, -, hc⟩ := List.mem_flatMap.mp h
  exact encodeByte_clean b c hc

/-! ### Submitting -/

/-- A pair whose value is form-encoded stores the value, if it contains no NUL. -/
theorem applyPair_formEncode {current cfg : NetworkConfig} {field : FormKey} {val : Str}
    (hfits : byteLen val ≤ 64) (hnul : NulFree val) :
    applyPair current cfg (field.name ++ '=' :: formEncode val) =
      setField current cfg val field := by
  have hname : '=' ∉ field.name ∧ trim field.name = field.name := by
    cases field <;> decide
  have hvalue : trim (formEncode val) = formEncode val :=
    trim_of_forall fun c hc => (formEncode_clean hc).2
  have hdecode : formUrlDecode 64 (formEncode val) = .ok ⟨val, hfits⟩ :=
    formUrlDecode_eq_ok_iff_decodeBytes.mpr ⟨decodeBytes_formEncode val, hnul⟩
  have hkey : FormKey.ofStr field.name = some field := FormKey.ofStr_eq_some_iff.mpr rfl
  rw [applyPair, keyValue, splitOnce_append hname.1, Option.getD_some, hname.2, hvalue, hdecode,
    hkey]
  rfl

/-- A text of digits and dots, as numbers and addresses are written. -/
def Numeric (s : Str) : Prop :=
  ∀ c ∈ s, c = '.' ∨ '0'.toNat ≤ c.toNat ∧ c.toNat ≤ '9'.toNat

theorem numeric_decimal (n : ℕ) : Numeric (decimal n) := fun _ hc => .inr (digit_of_mem_decimal hc)

theorem numeric_fmtIpv4 (ip : Ipv4) : Numeric (fmtIpv4 ip).chars := by
  intro c hc
  rw [chars_fmtIpv4] at hc
  simp only [List.mem_append, List.mem_cons] at hc
  rcases hc with hc | rfl | hc | rfl | hc | rfl | hc
  · exact numeric_decimal _ c hc
  · exact .inl rfl
  · exact numeric_decimal _ c hc
  · exact .inl rfl
  · exact numeric_decimal _ c hc
  · exact .inl rfl
  · exact numeric_decimal _ c hc

section Numeric

variable {s : Str}

/-- What holds of the dot and the ten digits holds of every character. -/
theorem Numeric.forall {P : Char → Prop} (h : Numeric s) (hdot : P '.')
    (hdigit : ∀ n < 58, 48 ≤ n → P (Char.ofNat n)) : ∀ c ∈ s, P c := by
  intro c hc
  rcases h c hc with rfl | ⟨hlo, hhi⟩
  · exact hdot
  · rw [← Char.ofNat_toNat c]
    exact hdigit c.toNat (Nat.lt_succ_of_le hhi) hlo

theorem Numeric.nulFree (h : Numeric s) : NulFree s := by
  have hbytes := h.forall (P := fun c => (0 : UInt8) ∉ String.utf8EncodeChar c) (by decide)
    (by decide +kernel)
  intro hmem
  obtain ⟨c, hc, hzero⟩ := List.mem_flatMap.mp hmem
  exact hbytes c hc hzero

theorem Numeric.decodeEntities (h : Numeric s) : decodeEntities s = s := by
  refine decodeEntities_of_notMem fun hamp => ?_
  exact h.forall (P := fun c => c ≠ '&') (by decide) (by decide) '&' hamp rfl

theorem Numeric.trim (h : Numeric s) : trim s = s :=
  trim_of_forall (h.forall (by decide) (by decide))

end Numeric

theorem chars_fmtU8 (v : UInt8) : (fmtU8 v).chars = decimal v.toNat :=
  chars_pushDec (k := 3) (by omega) (v.toNat_lt.trans (by decide)) (by decide)

theorem chars_fmtU16 (v : UInt16) : (fmtU16 v).chars = decimal v.toNat :=
  chars_pushDec (k := 5) (by omega) (v.toNat_lt.trans (by decide)) (by decide)

/-- An address is read and parsed back from its attribute. -/
private theorem shown_fmtIpv4 (ip : Ipv4) :
    byteLen (decodeEntities (fmtIpv4 ip).chars) ≤ 64 ∧
      NulFree (decodeEntities (fmtIpv4 ip).chars) ∧
      parseIpv4 (decodeEntities (fmtIpv4 ip).chars) = some ip := by
  have hnum := numeric_fmtIpv4 ip
  rw [hnum.decodeEntities]
  exact ⟨(fmtIpv4 ip).fits.trans (by decide), hnum.nulFree, parseIpv4_fmtIpv4 ip⟩

/-- A text of at most 32 bytes is read back from its attribute. -/
private theorem shown_text {N : ℕ} {t : HString N} (hN : N ≤ 32) (hnul : NulFree t.chars) :
    byteLen (decodeEntities (writeAttr t.chars)) ≤ 64 ∧
      NulFree (decodeEntities (writeAttr t.chars)) ∧
      HString.tryFrom (decodeEntities (writeAttr t.chars)) = some t := by
  have hfits := t.fits
  rw [decodeEntities_writeAttr (by omega)]
  exact ⟨by omega, hnul, HString.tryFrom_chars t⟩

/-- What is shown of a field fits the decoder, contains no NUL, and stores what the field has
already. -/
theorem setField_shown {cfg : NetworkConfig} (h : cfg.WellFormed) (field : FormKey) :
    byteLen (decodeEntities (valueAttr cfg field)) ≤ 64 ∧
      NulFree (decodeEntities (valueAttr cfg field)) ∧
      setField cfg cfg (decodeEntities (valueAttr cfg field)) field = some cfg := by
  cases field with
  | ip | gateway | brokerIp =>
    refine ⟨(shown_fmtIpv4 _).1, (shown_fmtIpv4 _).2.1, ?_⟩
    rw [setField, valueAttr, (shown_fmtIpv4 _).2.2, Option.map_some]
  | prefixLen =>
    have hnum := numeric_decimal cfg.prefixLen.toNat
    have hfits := (fmtU8 cfg.prefixLen).fits
    rw [chars_fmtU8] at hfits
    rw [valueAttr, chars_fmtU8, hnum.decodeEntities]
    refine ⟨hfits.trans (by decide), hnum.nulFree, ?_⟩
    rw [setField, parseU8_decimal, Option.bind_eq_bind, Option.bind_some,
      if_pos ⟨h.prefix_pos, h.prefix_le⟩]
  | brokerPort =>
    have hnum := numeric_decimal cfg.brokerPort.toNat
    have hfits := (fmtU16 cfg.brokerPort).fits
    rw [chars_fmtU16] at hfits
    rw [valueAttr, chars_fmtU16, hnum.decodeEntities]
    refine ⟨hfits.trans (by decide), hnum.nulFree, ?_⟩
    rw [setField, parsePort, hnum.trim, parseU16_decimal, Option.bind_eq_bind, Option.bind_some,
      if_neg h.port_ne, Option.map_some]
  | clientId =>
    obtain ⟨hfits, hnul, htext⟩ := shown_text (by decide) h.clientId
    refine ⟨hfits, hnul, ?_⟩
    rw [setField, valueAttr, htext, Option.map_some]
  | mqttUser =>
    obtain ⟨hfits, hnul, htext⟩ := shown_text (by decide) h.mqttUser
    refine ⟨hfits, hnul, ?_⟩
    rw [setField, valueAttr, htext, Option.map_some]
  | webUser =>
    obtain ⟨hfits, hnul, htext⟩ := shown_text (by decide) h.webUser
    refine ⟨hfits, hnul, ?_⟩
    rw [setField, valueAttr, htext, Option.map_some]
  | mqttPass | webPass =>
    -- a password is submitted empty, which keeps the stored one
    exact ⟨Nat.zero_le _, List.not_mem_nil, rfl⟩

/-- The pair of a field changes nothing. -/
theorem applyPair_submittedPair {cfg : NetworkConfig} (h : cfg.WellFormed) (field : FormKey) :
    applyPair cfg cfg (submittedPair cfg field) = some cfg := by
  obtain ⟨hfits, hnul, hset⟩ := setField_shown h field
  rw [submittedPair, applyPair_formEncode hfits hnul, hset]

/-- The pairs of any fields, in any order, change nothing. -/
theorem parseForm_submittedPairs {cfg : NetworkConfig} (h : cfg.WellFormed)
    {fields : List FormKey} (hne : fields ≠ []) :
    parseForm (['&'].intercalate (fields.map (submittedPair cfg))) cfg = some cfg := by
  have hamp : ∀ pair ∈ fields.map (submittedPair cfg), '&' ∉ pair := by
    intro pair hpair hmem
    obtain ⟨field, -, rfl⟩ := List.mem_map.mp hpair
    rw [submittedPair, List.mem_append, List.mem_cons] at hmem
    rcases hmem with hmem | hmem | hmem
    · have hname : '&' ∉ field.name := by cases field <;> decide
      exact hname hmem
    · exact absurd hmem (by decide)
    · exact (formEncode_clean hmem).1 rfl
  rw [parseForm, List.splitOn_intercalate _ hamp (by simpa using hne)]
  clear hamp hne
  induction fields with
  | nil => rfl
  | cons field fields ih =>
    rw [List.map_cons, List.foldlM_cons, applyPair_submittedPair h]
    exact ih

/-- **The form submitted unedited changes nothing**: the values that the dashboard renders for a
well-formed configuration, read and sent back by a browser, are accepted as the same
configuration. -/
theorem dashboardBody_unchanged {current : NetworkConfig} (h : current.WellFormed) :
    parseForm (dashboardBody current) current = some current :=
  parseForm_submittedPairs h (by decide)

/-- A client id and a user name that need every escape. -/
theorem dashboardBody_unchanged_escapes :
    let cfg : NetworkConfig := { NetworkConfig.default with
      clientId := ⟨"a & \"b\" 100% ü".toList, by decide⟩
      mqttUser := ⟨" <x>'&amp;+".toList, by decide⟩ }
    parseForm (dashboardBody cfg) cfg = some cfg := by
  refine dashboardBody_unchanged ?_
  exact { NetworkConfig.wellFormed_default with
    clientId := by decide +kernel
    mqttUser := by decide +kernel }

end Jzf407
