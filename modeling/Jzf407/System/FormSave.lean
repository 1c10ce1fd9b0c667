import Jzf407.Logic.FormDecoding
import Jzf407.System.Board

/-!
# What a submitted form asks for

A form is accepted when each of its pairs is (`PairAccepted`): the value of the pair decodes, and
passes the check of the field that the pair names, if it names one. Which pairs come before does not
matter. Each field of the result is then what the last pair naming the field gives, and a
field that no pair names is the current one (`parseForm_eq_some_iff`).

None of this mentions the parser. `PairValue` says what a value stands for, `Passes` and `Given`
have one line for each field, and `Result` reads the field off the last pair that names it
(`lastNaming`). Where the fields differ is there, too: an empty password gives the current one, any
other empty text is stored.

The step of the parser is compared with it once, for one pair (`exists_applyPair_iff`,
`result_of_applyPair`), and a form is a fold of such steps in which the last one wins.

So the order of the pairs matters only among pairs that name the same field
(`parseForm_congr`, `parseForm_swap`), and a form that is refused leaves the board as it is
(`parseForm_spec`).
-/

namespace Jzf407

open Foundation

/-! ### Pairs -/

/-- The pairs of a body. -/
def formPairs (body : Str) : List Str := body.splitOn '&'

/-- The trimmed key of a pair. -/
def pairKey (pair : Str) : Str := trim (keyValue pair).1

/-- **The trimmed value of a pair stands for a text** of at most 64 bytes without NUL. -/
def PairValue (pair v : Str) : Prop :=
  Decodes (asBytes (trim (keyValue pair).2)) (asBytes v) ∧ byteLen v ≤ 64 ∧ NulFree v

/-- The last pair of a body that names a field. -/
def lastNaming (key : FormKey) (body : Str) : Option Str :=
  ((formPairs body).filter fun pair => pairKey pair = key.name).getLast?

/-! ### Fields -/

namespace FormKey

/-- A value passes the check of the field. -/
def Passes : FormKey → Str → Prop
  | .ip, v | .gateway, v | .brokerIp, v => ∃ a, parseIpv4 v = some a
  | .prefixLen, v => ∃ p, parseU8 v = some p ∧ 1 ≤ p ∧ p ≤ 32
  | .brokerPort, v => ∃ p, parseU16 (trim v) = some p ∧ p ≠ 0
  | .clientId, v => byteLen v ≤ 24
  | .mqttUser, v | .mqttPass, v | .webUser, v | .webPass, v => byteLen v ≤ 32

/-- A value gives the field of a configuration. An empty password gives the current one. -/
def Given (current : NetworkConfig) (v : Str) (c : NetworkConfig) : FormKey → Prop
  | .ip => parseIpv4 v = some c.ip
  | .prefixLen => parseU8 v = some c.prefixLen
  | .gateway => parseIpv4 v = some c.gateway
  | .brokerIp => parseIpv4 v = some c.brokerIp
  | .brokerPort => parseU16 (trim v) = some c.brokerPort
  | .clientId => c.clientId.chars = v
  | .mqttUser => c.mqttUser.chars = v
  | .mqttPass => v = [] ∧ c.mqttPass = current.mqttPass ∨ v ≠ [] ∧ c.mqttPass.chars = v
  | .webUser => c.webUser.chars = v
  | .webPass => v = [] ∧ c.webPass = current.webPass ∨ v ≠ [] ∧ c.webPass.chars = v

/-- **What a field of the result is**: what the last pair naming it gives, or the current one. -/
def Result (current c : NetworkConfig) (key : FormKey) : Option Str → Prop
  | some pair => ∃ v, PairValue pair v ∧ key.Given current v c
  | none => key.Agree c current

theorem agree_refl (key : FormKey) (c : NetworkConfig) : key.Agree c c := by
  cases key <;> rfl

theorem Agree.trans {key : FormKey} {c d e : NetworkConfig} (h : key.Agree c d)
    (h' : key.Agree d e) : key.Agree c e := by
  cases key <;> exact Eq.trans h h'

end FormKey

/-- **A pair is accepted**: its value decodes, and passes the check of the field it names. -/
def PairAccepted (pair : Str) : Prop :=
  ∃ v, PairValue pair v ∧ ∀ key : FormKey, pairKey pair = key.name → key.Passes v

/-! ### One pair -/

theorem formUrlDecode_eq_ok_iff_pairValue {pair : Str} {v : HString 64} :
    formUrlDecode 64 (trim (keyValue pair).2) = .ok v ↔ PairValue pair v.chars := by
  rw [formUrlDecode_eq_ok_iff_decodeBytes, ← decodes_iff]
  exact ⟨fun h => ⟨h.1, v.fits, h.2⟩, fun h => ⟨h.1, h.2.2⟩⟩

theorem PairValue.unique {pair v w : Str} (hv : PairValue pair v) (hw : PairValue pair w) :
    v = w := asBytes_injective (hv.1.unique hw.1)

theorem parsePort_eq_some_iff {s : Str} {p : UInt16} :
    parsePort s = some p ↔ parseU16 (trim s) = some p ∧ p ≠ 0 := by
  unfold parsePort
  rw [Option.bind_eq_bind, Option.bind_eq_some_iff]
  constructor
  · rintro ⟨q, hq, hp⟩
    split at hp
    · cases hp
    · next hne =>
      obtain rfl := Option.some.inj hp
      exact ⟨hq, hne⟩
  · rintro ⟨hp, hne⟩
    exact ⟨p, hp, if_neg hne⟩

theorem exists_tryFrom_iff {N : ℕ} {v : Str} :
    (∃ t : HString N, HString.tryFrom v = some t) ↔ byteLen v ≤ N := by
  constructor
  · rintro ⟨t, ht⟩
    rw [← HString.tryFrom_eq_some_iff.mp ht]
    exact t.fits
  · exact fun h => ⟨⟨v, h⟩, HString.tryFrom_eq_some_iff.mpr rfl⟩

theorem exists_secretFromForm_iff {N : ℕ} {current : HString N} {v : Str} :
    (∃ t, (secretFromForm current v).toOption = some t) ↔ byteLen v ≤ N := by
  simp only [toOption_eq_some_iff, secretFromForm_eq_ok_iff]
  constructor
  · rintro ⟨t, ⟨rfl, -⟩ | ⟨-, rfl⟩⟩
    · exact Nat.zero_le N
    · exact t.fits
  · intro h
    by_cases hv : v = []
    · exact ⟨current, .inl ⟨hv, rfl⟩⟩
    · exact ⟨⟨v, h⟩, .inr ⟨hv, rfl⟩⟩

private theorem exists_map_eq_some_iff {α β : Type} {x : Option α} {f : α → β} :
    (∃ b, x.map f = some b) ↔ ∃ a, x = some a := by
  cases x <;> simp

/-- A value is stored exactly when it passes the check. -/
theorem exists_setField_iff (current cfg : NetworkConfig) {v : Str} (key : FormKey) :
    (∃ c, setField current cfg v key = some c) ↔ key.Passes v := by
  cases key with
  | ip | gateway | brokerIp => exact exists_map_eq_some_iff
  | brokerPort =>
    refine exists_map_eq_some_iff.trans (exists_congr fun p => ?_)
    exact parsePort_eq_some_iff
  | clientId | mqttUser | webUser => exact exists_map_eq_some_iff.trans exists_tryFrom_iff
  | mqttPass | webPass => exact exists_map_eq_some_iff.trans exists_secretFromForm_iff
  | prefixLen =>
    simp only [setField, Option.bind_eq_bind, Option.bind_eq_some_iff]
    constructor
    · rintro ⟨c, p, hp, hc⟩
      split at hc
      · next hrange => exact ⟨p, hp, hrange⟩
      · cases hc
    · rintro ⟨p, hp, hrange⟩
      exact ⟨_, p, hp, if_pos hrange⟩

/-- A value that is stored gives the field. -/
theorem given_of_setField {current cfg c : NetworkConfig} {v : Str} {key : FormKey}
    (h : setField current cfg v key = some c) : key.Given current v c := by
  cases key with
  | ip | gateway | brokerIp =>
    obtain ⟨a, ha, rfl⟩ := Option.map_eq_some_iff.mp h
    exact ha
  | brokerPort =>
    obtain ⟨p, hp, rfl⟩ := Option.map_eq_some_iff.mp h
    exact (parsePort_eq_some_iff.mp hp).1
  | clientId | mqttUser | webUser =>
    obtain ⟨t, ht, rfl⟩ := Option.map_eq_some_iff.mp h
    exact HString.tryFrom_eq_some_iff.mp ht
  | mqttPass | webPass =>
    obtain ⟨t, ht, rfl⟩ := Option.map_eq_some_iff.mp h
    exact secretFromForm_eq_ok_iff.mp (toOption_eq_some_iff.mp ht)
  | prefixLen =>
    obtain ⟨p, hp, hc⟩ := Option.bind_eq_some_iff.mp h
    split at hc
    · rw [← Option.some.inj hc]
      exact hp
    · cases hc

/-- A pair is applied exactly when it is accepted. -/
theorem exists_applyPair_iff (current cfg : NetworkConfig) (pair : Str) :
    (∃ c, applyPair current cfg pair = some c) ↔ PairAccepted pair := by
  simp only [applyPair_eq_some_iff, toOption_eq_some_iff, formUrlDecode_eq_ok_iff_pairValue]
  constructor
  · rintro ⟨c, v, hv, hkey⟩
    refine ⟨v.chars, hv, fun key hname => ?_⟩
    have hof : FormKey.ofStr (pairKey pair) = some key := FormKey.ofStr_eq_some_iff.mpr hname
    rcases hkey with ⟨hnone, -⟩ | ⟨key', hkey', hset⟩
    · exact absurd (hof.symm.trans hnone) (Option.some_ne_none key)
    · obtain rfl : key' = key := Option.some.inj (hkey'.symm.trans hof)
      exact (exists_setField_iff current cfg key').mp ⟨c, hset⟩
  · rintro ⟨v, hv, hpasses⟩
    cases hof : FormKey.ofStr (trim (keyValue pair).1) with
    | none => exact ⟨cfg, ⟨v, hv.2.1⟩, hv, .inl ⟨rfl, rfl⟩⟩
    | some key =>
      obtain ⟨c, hc⟩ := (exists_setField_iff current cfg key).mpr
        (hpasses key (FormKey.ofStr_eq_some_iff.mp hof))
      exact ⟨c, ⟨v, hv.2.1⟩, hv, .inr ⟨key, rfl, hc⟩⟩

/-- **What an applied pair does**: it gives the field that it names, and keeps the others. -/
theorem result_of_applyPair {current cfg c : NetworkConfig} {pair : Str}
    (h : applyPair current cfg pair = some c) (key : FormKey) :
    (pairKey pair = key.name → ∃ v, PairValue pair v ∧ key.Given current v c) ∧
      (pairKey pair ≠ key.name → key.Agree c cfg) := by
  obtain ⟨v, hv, hkey⟩ := applyPair_eq_some_iff.mp h
  rw [toOption_eq_some_iff, formUrlDecode_eq_ok_iff_pairValue] at hv
  have hof : FormKey.ofStr (trim (keyValue pair).1) = some key ↔ pairKey pair = key.name :=
    FormKey.ofStr_eq_some_iff
  rcases hkey with ⟨hnone, rfl⟩ | ⟨key', hkey', hset⟩
  · refine ⟨fun hname => absurd ((hof.mpr hname).symm.trans hnone) (Option.some_ne_none key), ?_⟩
    exact fun _ => key.agree_refl cfg
  · by_cases hname : pairKey pair = key.name
    · obtain rfl : key' = key := Option.some.inj (hkey'.symm.trans (hof.mpr hname))
      exact ⟨fun _ => ⟨v.chars, hv, given_of_setField hset⟩, fun hne => absurd hname hne⟩
    · refine ⟨fun h => absurd h hname, fun _ => setField_frame hset ?_⟩
      rintro rfl
      exact hname (hof.mp hkey')

/-! ### The whole form -/

namespace FormKey

/-- The field of a configuration decides what it was given. -/
theorem Given.of_agree {key : FormKey} {current c d : NetworkConfig} {v : Str}
    (h : key.Given current v d) (hagree : key.Agree c d) : key.Given current v c := by
  cases key with
  | _ =>
    unfold Agree at hagree
    unfold Given at h ⊢
    rwa [hagree]

/-- A value gives a field in one way only. -/
theorem Given.agree {key : FormKey} {current c d : NetworkConfig} {v : Str}
    (hc : key.Given current v c) (hd : key.Given current v d) : key.Agree c d := by
  cases key with
  | ip | prefixLen | gateway | brokerIp | brokerPort => exact Option.some.inj (hc.symm.trans hd)
  | clientId | mqttUser | webUser => exact HString.ext (hc.trans hd.symm)
  | mqttPass | webPass =>
    rcases hc with ⟨hv, hc⟩ | ⟨hv, hc⟩ <;> rcases hd with ⟨hv', hd⟩ | ⟨hv', hd⟩
    · exact hc.trans hd.symm
    · exact absurd hv hv'
    · exact absurd hv' hv
    · exact HString.ext (hc.trans hd.symm)

theorem Result.agree {key : FormKey} {current c d : NetworkConfig} {last : Option Str}
    (hc : key.Result current c last) (hd : key.Result current d last) : key.Agree c d := by
  cases last with
  | none =>
    unfold Result at hc hd
    cases key <;> exact Eq.trans hc (Eq.symm hd)
  | some pair =>
    obtain ⟨v, hv, hgivenc⟩ := hc
    obtain ⟨w, hw, hgivend⟩ := hd
    obtain rfl := hv.unique hw
    exact hgivenc.agree hgivend

end FormKey

/-- Configurations that agree in every field are equal. -/
theorem eq_of_agree {c d : NetworkConfig} (h : ∀ key : FormKey, key.Agree c d) : c = d := by
  cases c
  cases d
  have := h .ip
  have := h .prefixLen
  have := h .gateway
  have := h .brokerIp
  have := h .brokerPort
  have := h .clientId
  have := h .mqttUser
  have := h .mqttPass
  have := h .webUser
  have := h .webPass
  simp only [FormKey.Agree] at *
  simp_all

/-- Every field after an accepted form, by induction on the pairs from the last one. -/
theorem result_of_foldlM {current c : NetworkConfig} {l : List Str}
    (h : l.foldlM (applyPair current) current = some c) (key : FormKey) :
    key.Result current c (l.filter fun pair => pairKey pair = key.name).getLast? := by
  induction l using List.reverseRecOn generalizing c with
  | nil =>
    obtain rfl : current = c := Option.some.inj h
    exact key.agree_refl current
  | append_singleton l pair ih =>
    rw [List.foldlM_append] at h
    obtain ⟨d, hd, hpair⟩ := Option.bind_eq_some_iff.mp h
    have hpair : applyPair current d pair = some c := by simpa using hpair
    obtain ⟨hnamed, hother⟩ := result_of_applyPair hpair key
    rw [List.filter_append]
    by_cases hname : pairKey pair = key.name
    · have hsingle : [pair].filter (fun pair => pairKey pair = key.name) = [pair] := by
        simp [hname]
      rw [hsingle, List.getLast?_concat]
      exact hnamed hname
    · have hnone : [pair].filter (fun pair => pairKey pair = key.name) = [] := by
        simp [hname]
      rw [hnone, List.append_nil]
      have hbefore := ih hd
      revert hbefore
      cases (l.filter fun pair => pairKey pair = key.name).getLast? with
      | none => exact fun hbefore => (hother hname).trans hbefore
      | some last =>
        rintro ⟨v, hv, hgiven⟩
        exact ⟨v, hv, hgiven.of_agree (hother hname)⟩

theorem exists_parseForm_iff (body : Str) (current : NetworkConfig) :
    (∃ c, parseForm body current = some c) ↔ ∀ pair ∈ formPairs body, PairAccepted pair :=
  exists_foldlM_eq_some_iff (exists_applyPair_iff current)

/-- **What a form asks for**: its pairs are accepted, and each field is what the last pair naming
it gives, or the current one. -/
theorem parseForm_eq_some_iff {body : Str} {current c : NetworkConfig} :
    parseForm body current = some c ↔
      (∀ pair ∈ formPairs body, PairAccepted pair) ∧
        ∀ key : FormKey, key.Result current c (lastNaming key body) := by
  constructor
  · intro h
    exact ⟨(exists_parseForm_iff body current).mp ⟨c, h⟩, result_of_foldlM h⟩
  · rintro ⟨haccepted, hresult⟩
    obtain ⟨d, hd⟩ := (exists_parseForm_iff body current).mpr haccepted
    have hall := result_of_foldlM hd
    rw [hd, eq_of_agree fun key => (hall key).agree (hresult key)]

/-- **The order of the pairs** does not matter, except among pairs that name the same field. -/
theorem parseForm_congr {body body' : Str} (current : NetworkConfig)
    (hperm : (formPairs body).Perm (formPairs body'))
    (hfilter : ∀ key : FormKey, (formPairs body).filter (fun pair => pairKey pair = key.name) =
      (formPairs body').filter fun pair => pairKey pair = key.name) :
    parseForm body current = parseForm body' current := by
  refine Option.ext fun c => ?_
  rw [parseForm_eq_some_iff, parseForm_eq_some_iff]
  refine and_congr (forall_congr' fun pair => ?_) (forall_congr' fun key => ?_)
  · rw [hperm.mem_iff]
  · rw [lastNaming, hfilter key, lastNaming]

/-- Two neighbouring pairs with different keys can be exchanged. -/
theorem parseForm_swap {body body' : Str} (current : NetworkConfig) {ps qs : List Str} {p q : Str}
    (hne : pairKey p ≠ pairKey q) (hbody : formPairs body = ps ++ p :: q :: qs)
    (hbody' : formPairs body' = ps ++ q :: p :: qs) :
    parseForm body current = parseForm body' current := by
  refine parseForm_congr current ?_ fun key => ?_
  · rw [hbody, hbody']
    exact (List.Perm.swap q p qs).append_left ps
  · -- at most one of the two names the field
    have htail : (p :: q :: qs).filter (fun pair => pairKey pair = key.name) =
        (q :: p :: qs).filter fun pair => pairKey pair = key.name := by
      by_cases hp : pairKey p = key.name
      · have hq : pairKey q ≠ key.name := fun hq => hne (hp.trans hq.symm)
        simp [hp, hq]
      · simp [List.filter_cons, hp]
    rw [hbody, hbody', List.filter_append, List.filter_append, htail]

/-- **The configuration form.** A form is accepted when every pair decodes, pairs with unknown keys
included, and passes the check of the field that it names; each field is then what the last
pair naming it gives, or the current one. Pairs with different keys can be exchanged, and more
generally reordered as long as the pairs that name one field stay in order. A form that is
refused leaves the board as it is. -/
theorem parseForm_spec :
    (∀ body current, (∃ c, parseForm body current = some c) ↔
      ∀ pair ∈ formPairs body, ∃ v, PairValue pair v ∧
        ∀ key : FormKey, pairKey pair = key.name → key.Passes v) ∧
    (∀ body current c, parseForm body current = some c ↔
      (∀ pair ∈ formPairs body, ∃ v, PairValue pair v ∧
          ∀ key : FormKey, pairKey pair = key.name → key.Passes v) ∧
        ∀ key : FormKey, key.Result current c (lastNaming key body)) ∧
    (∀ body body' current (ps : List Str) p q qs, pairKey p ≠ pairKey q →
      formPairs body = ps ++ p :: q :: qs → formPairs body' = ps ++ q :: p :: qs →
        parseForm body current = parseForm body' current) ∧
    (∀ body body' current, (formPairs body).Perm (formPairs body') →
      (∀ key : FormKey, (formPairs body).filter (fun pair => pairKey pair = key.name) =
        (formPairs body').filter fun pair => pairKey pair = key.name) →
        parseForm body current = parseForm body' current) ∧
    ∀ (b : Board) k body, b.phase (.web k) = .idle → parseForm body b.cfg = none →
      b.step (.save k body) = some b := by
  refine ⟨exists_parseForm_iff, fun body current c => parseForm_eq_some_iff, ?_, ?_, ?_⟩
  · exact fun body body' current ps p q qs hne => parseForm_swap current hne
  · exact fun body body' current => parseForm_congr current
  · intro b k body hidle hrefused
    rw [Board.step, if_pos hidle, hrefused]

/-- Two pairs of different fields, exchanged, with a pair of an unknown key after them. -/
theorem parseForm_spec_swap :
    parseForm "ip=10.0.0.5&port=1884&x=%41".toList NetworkConfig.default =
      parseForm "port=1884&ip=10.0.0.5&x=%41".toList NetworkConfig.default :=
  parseForm_spec.2.2.1 _ _ _ [] "ip=10.0.0.5".toList "port=1884".toList ["x=%41".toList]
    (by decide) (by decide) (by decide)

end Jzf407
