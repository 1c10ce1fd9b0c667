import Jzf407.Foundation.LastWins
import Jzf407.Logic.NetworkConfig
import Jzf407.Logic.WebForm

/-!
# The two form parsers of the web server

`parseForm` reads a `/save` body against the current configuration: pairs between `&`, key
and value trimmed, the value decoded into 64 bytes, every known key checked, the first
refusal ending the parse. `parseLoginForm` reads a `/login` body: the same pairs, nothing
trimmed, a refused value leaving its field empty.

A pair is cut by `keyValue`, its key names a field of the form (`FormKey`) or none, and
`FormKey.setField` checks the value and stores it. The ten fields are ten cases of that one
function, with the checks of the source; that a field leaves the others alone is said once for all
of them (`setField_frame`). `applyPair` is the body of the loop.

The parse is a fold over the pairs, so the laws of `Foundation.LastWins` apply: a field of
the result is given by the last pair that names it (`proj_parseForm`, with `webUser_parseForm` and
`webPass_parseForm` for the two that the login needs), and well-formedness of the configuration is
kept (`wellFormed_parseForm`): whatever is accepted can be stored and read back whole.
-/

namespace Jzf407

open Foundation

/-! ### Pairs and keys -/

/-- The key and value of a pair: what precedes and follows its first `=`. -/
def keyValue (pair : Str) : Str × Str := (splitOnce '=' pair).getD (pair, [])

/-- The fields of the configuration form. -/
inductive FormKey
  | ip
  | prefixLen
  | gateway
  | brokerIp
  | brokerPort
  | clientId
  | mqttUser
  | mqttPass
  | webUser
  | webPass
  deriving DecidableEq, Repr

/-- The field a key names. -/
def FormKey.ofStr (key : Str) : Option FormKey :=
  if key = "ip".toList then some .ip
  else if key = "prefix".toList then some .prefixLen
  else if key = "gw".toList then some .gateway
  else if key = "broker".toList then some .brokerIp
  else if key = "port".toList then some .brokerPort
  else if key = "id".toList then some .clientId
  else if key = "muser".toList then some .mqttUser
  else if key = "mpass".toList then some .mqttPass
  else if key = "wuser".toList then some .webUser
  else if key = "wpass".toList then some .webPass
  else none

/-- The key of a field. -/
def FormKey.name : FormKey → Str
  | .ip => "ip".toList
  | .prefixLen => "prefix".toList
  | .gateway => "gw".toList
  | .brokerIp => "broker".toList
  | .brokerPort => "port".toList
  | .clientId => "id".toList
  | .mqttUser => "muser".toList
  | .mqttPass => "mpass".toList
  | .webUser => "wuser".toList
  | .webPass => "wpass".toList

/-- One test of the chain: it names its own field, or leaves the answer to the tests after it. -/
private theorem ofStr_link {c : Prop} [Decidable c] {key : Str} {field a : FormKey}
    {x : Option FormKey} (hname : c → key = a.name) (hrest : x = some field → key = field.name) :
    (if c then some a else x) = some field → key = field.name := by
  intro h
  split at h
  · next hkey => rw [← Option.some.inj h, hname hkey]
  · exact hrest h

theorem FormKey.ofStr_eq_some_iff {key : Str} {field : FormKey} :
    ofStr key = some field ↔ key = field.name := by
  constructor
  · unfold ofStr
    iterate 10 refine ofStr_link id ?_
    exact nofun
  · rintro rfl
    cases field <;> decide

/-! ### The configuration form -/

/-- Check a decoded value and store it in the field. -/
def setField (current cfg : NetworkConfig) (val : Str) : FormKey → Option NetworkConfig
  | .ip => (parseIpv4 val).map fun a => { cfg with ip := a }
  | .prefixLen => do
      let p ← parseU8 val
      if 1 ≤ p ∧ p ≤ 32 then some { cfg with prefixLen := p } else none
  | .gateway => (parseIpv4 val).map fun a => { cfg with gateway := a }
  | .brokerIp => (parseIpv4 val).map fun a => { cfg with brokerIp := a }
  | .brokerPort => (parsePort val).map fun p => { cfg with brokerPort := p }
  | .clientId => (HString.tryFrom val).map fun s => { cfg with clientId := s }
  | .mqttUser => (HString.tryFrom val).map fun s => { cfg with mqttUser := s }
  | .mqttPass =>
      (secretFromForm current.mqttPass val).toOption.map fun s => { cfg with mqttPass := s }
  | .webUser => (HString.tryFrom val).map fun s => { cfg with webUser := s }
  | .webPass =>
      (secretFromForm current.webPass val).toOption.map fun s => { cfg with webPass := s }

/-- Two configurations agree in the field. -/
def FormKey.Agree : FormKey → NetworkConfig → NetworkConfig → Prop
  | .ip, c, d => c.ip = d.ip
  | .prefixLen, c, d => c.prefixLen = d.prefixLen
  | .gateway, c, d => c.gateway = d.gateway
  | .brokerIp, c, d => c.brokerIp = d.brokerIp
  | .brokerPort, c, d => c.brokerPort = d.brokerPort
  | .clientId, c, d => c.clientId = d.clientId
  | .mqttUser, c, d => c.mqttUser = d.mqttUser
  | .mqttPass, c, d => c.mqttPass = d.mqttPass
  | .webUser, c, d => c.webUser = d.webUser
  | .webPass, c, d => c.webPass = d.webPass

/-- **Storing a value leaves the other fields as they are.** -/
theorem setField_frame {current cfg cfg' : NetworkConfig} {val : Str} {key other : FormKey}
    (h : setField current cfg val key = some cfg') (hne : other ≠ key) : other.Agree cfg' cfg := by
  cases key with
  | prefixLen =>
    obtain ⟨p, -, hp⟩ := Option.bind_eq_some_iff.mp h
    split at hp
    · rw [← Option.some.inj hp]
      cases other <;> first | rfl | exact absurd rfl hne
    · cases hp
  | _ =>
    obtain ⟨x, -, rfl⟩ := Option.map_eq_some_iff.mp h
    cases other <;> first | rfl | exact absurd rfl hne

/-- One pair of the form: decode its value, then store it if its key is known. -/
def applyPair (current cfg : NetworkConfig) (pair : Str) : Option NetworkConfig := do
  -- the value of an unknown key is decoded, too, and can end the parse
  let val ← (formUrlDecode 64 (trim (keyValue pair).2)).toOption
  match FormKey.ofStr (trim (keyValue pair).1) with
  | some key => setField current cfg val.chars key
  | none => some cfg

/-- **The configuration a `/save` body asks for**, `none` when it is refused. -/
def parseForm (body : Str) (current : NetworkConfig) : Option NetworkConfig :=
  (body.splitOn '&').foldlM (applyPair current) current

/-! ### The login form -/

/-- **The user name and password of a `/login` body.** -/
def parseLoginForm (body : Str) : Option (HString 64) × Option (HString 64) :=
  (body.splitOn '&').foldl
    (fun acc pair =>
      let (key, val) := keyValue pair
      -- a refused value overwrites an earlier one of the same key
      if key = "user".toList then ((formUrlDecode 64 val).toOption, acc.2)
      else if key = "pass".toList then (acc.1, (formUrlDecode 64 val).toOption)
      else acc)
    (none, none)

/-! ### What a pair does to one field -/

/-- The decoded value a pair submits for a field; `none` when it names another key. -/
def submittedValue (key : FormKey) (pair : Str) : Option (HString 64) :=
  if FormKey.ofStr (trim (keyValue pair).1) = some key then
    (formUrlDecode 64 (trim (keyValue pair).2)).toOption
  else none

/-- **The value a body submits for a field**: that of the last pair naming it. -/
def submitted (key : FormKey) (body : Str) : Option Str :=
  ((body.splitOn '&').filterMap (submittedValue key)).getLast?.map HString.chars

/-- A pair that is accepted decodes, and stores its value if it names a field. -/
theorem applyPair_eq_some_iff {current cfg cfg' : NetworkConfig} {pair : Str} :
    applyPair current cfg pair = some cfg' ↔
      ∃ val, (formUrlDecode 64 (trim (keyValue pair).2)).toOption = some val ∧
        (FormKey.ofStr (trim (keyValue pair).1) = none ∧ cfg = cfg' ∨
          ∃ key, FormKey.ofStr (trim (keyValue pair).1) = some key ∧
            setField current cfg val.chars key = some cfg') := by
  unfold applyPair
  rw [Option.bind_eq_bind, Option.bind_eq_some_iff]
  refine exists_congr fun val => and_congr_right fun _ => ?_
  cases FormKey.ofStr (trim (keyValue pair).1) <;> simp

/-- **A field after the parse.** If storing under `key` sets `proj` to `g` of the value and
storing under any other key keeps it, then after an accepted parse `proj` is `g` of the
value submitted last, or unchanged when none is submitted. -/
theorem proj_parseForm {γ : Type} {current : NetworkConfig} (key : FormKey)
    (proj : NetworkConfig → γ) (g : Str → γ)
    (hset : ∀ cfg val cfg', setField current cfg val key = some cfg' → proj cfg' = g val)
    (hframe : ∀ cfg val key' cfg', key' ≠ key → setField current cfg val key' = some cfg' →
      proj cfg' = proj cfg)
    {body : Str} {c : NetworkConfig} (h : parseForm body current = some c) :
    proj c = ((submitted key body).map g).getD (proj current) := by
  have hstep : ∀ cfg pair cfg', applyPair current cfg pair = some cfg' →
      proj cfg' = ((submittedValue key pair).map (g ∘ HString.chars)).getD (proj cfg) := by
    intro cfg pair cfg' hpair
    obtain ⟨val, hval, ⟨hnone, rfl⟩ | ⟨key', hkey, hstore⟩⟩ := applyPair_eq_some_iff.mp hpair
    · simp [submittedValue, hnone]
    · by_cases hk : key' = key
      · subst hk
        rw [submittedValue, if_pos hkey, hval]
        exact hset cfg val.chars cfg' hstore
      · rw [submittedValue, if_neg (by rw [hkey]; simpa using hk)]
        exact hframe cfg val.chars key' cfg' hk hstore
  rw [foldlM_last hstep h, submitted, Option.map_map]

/-! ### The web login fields -/

/-- The web user after an accepted parse: the value submitted last, blank or not. -/
theorem webUser_parseForm {body : Str} {current c : NetworkConfig}
    (h : parseForm body current = some c) :
    c.webUser.chars = (submitted .webUser body).getD current.webUser.chars := by
  have hproj := proj_parseForm .webUser (fun c => c.webUser.chars) id ?_ ?_ h
  · simpa using hproj
  · intro cfg val cfg' hset
    obtain ⟨s, hs, rfl⟩ := Option.map_eq_some_iff.mp hset
    exact HString.tryFrom_eq_some_iff.mp hs
  · intro cfg val key' cfg' hne hset
    exact congrArg HString.chars (setField_frame hset hne.symm)

/-- The web password after an accepted parse: the value submitted last, the stored one when
that is blank. -/
theorem webPass_parseForm {body : Str} {current c : NetworkConfig}
    (h : parseForm body current = some c) :
    c.webPass.chars =
      ((submitted .webPass body).map fun v => if v = [] then current.webPass.chars else v).getD
        current.webPass.chars := by
  refine proj_parseForm .webPass (fun c => c.webPass.chars) _ ?_ ?_ h
  · intro cfg val cfg' hset
    obtain ⟨s, hs, rfl⟩ := Option.map_eq_some_iff.mp hset
    obtain ⟨rfl, rfl⟩ | ⟨hne, hchars⟩ :=
      secretFromForm_eq_ok_iff.mp (toOption_eq_some_iff.mp hs)
    · simp
    · simpa [hne] using hchars
  · intro cfg val key' cfg' hne hset
    exact congrArg HString.chars (setField_frame hset hne.symm)

/-! ### Well-formedness -/

private theorem nulFree_of_tryFrom {N : ℕ} {val : Str} {s : HString N}
    (hs : HString.tryFrom val = some s) (hval : NulFree val) : NulFree s.chars := by
  rwa [HString.tryFrom_eq_some_iff.mp hs]

private theorem nulFree_of_secret {current s : HString credMax} {val : Str}
    (hs : (secretFromForm current val).toOption = some s) (hcur : NulFree current.chars)
    (hval : NulFree val) : NulFree s.chars := by
  obtain ⟨-, rfl⟩ | ⟨-, hchars⟩ := secretFromForm_eq_ok_iff.mp (toOption_eq_some_iff.mp hs)
  · exact hcur
  · rwa [hchars]

/-- Storing a checked NUL-free value keeps a configuration well formed. -/
theorem wellFormed_setField {current cfg cfg' : NetworkConfig} {val : Str} {key : FormKey}
    (h : setField current cfg val key = some cfg') (hcur : current.WellFormed)
    (hval : NulFree val) (hcfg : cfg.WellFormed) : cfg'.WellFormed := by
  cases key with
  | ip | gateway | brokerIp =>
    obtain ⟨a, -, rfl⟩ := Option.map_eq_some_iff.mp h
    exact { hcfg with }
  | prefixLen =>
    obtain ⟨p, -, hp⟩ := Option.bind_eq_some_iff.mp h
    split at hp
    · next hrange =>
      rw [← Option.some.inj hp]
      exact { hcfg with prefix_pos := hrange.1, prefix_le := hrange.2 }
    · cases hp
  | brokerPort =>
    obtain ⟨p, hp, rfl⟩ := Option.map_eq_some_iff.mp h
    exact { hcfg with port_ne := parsePort_ne_zero hp }
  | clientId =>
    obtain ⟨s, hs, rfl⟩ := Option.map_eq_some_iff.mp h
    exact { hcfg with clientId := nulFree_of_tryFrom hs hval }
  | mqttUser =>
    obtain ⟨s, hs, rfl⟩ := Option.map_eq_some_iff.mp h
    exact { hcfg with mqttUser := nulFree_of_tryFrom hs hval }
  | mqttPass =>
    obtain ⟨s, hs, rfl⟩ := Option.map_eq_some_iff.mp h
    exact { hcfg with mqttPass := nulFree_of_secret hs hcur.mqttPass hval }
  | webUser =>
    obtain ⟨s, hs, rfl⟩ := Option.map_eq_some_iff.mp h
    exact { hcfg with webUser := nulFree_of_tryFrom hs hval }
  | webPass =>
    obtain ⟨s, hs, rfl⟩ := Option.map_eq_some_iff.mp h
    exact { hcfg with webPass := nulFree_of_secret hs hcur.webPass hval }

/-- **The parse keeps well-formedness**: every configuration it returns can be stored and
read back whole. -/
theorem wellFormed_parseForm {body : Str} {current c : NetworkConfig}
    (h : parseForm body current = some c) (hcur : current.WellFormed) : c.WellFormed := by
  refine foldlM_invariant ?_ h hcur
  intro cfg pair cfg' hpair hcfg
  obtain ⟨val, hval, ⟨-, rfl⟩ | ⟨key, -, hstore⟩⟩ := applyPair_eq_some_iff.mp hpair
  · exact hcfg
  · exact wellFormed_setField hstore hcur
      (nul_notMem_formUrlDecode (toOption_eq_some_iff.mp hval)) hcfg

end Jzf407
