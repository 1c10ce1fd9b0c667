import Jzf407.Foundation.Markup
import Jzf407.System.FormSave
import Jzf407.Web.Attributes
import Jzf407.Web.Texts

/-!
# The dashboard page

The page is written piece by piece: fixed markup, and between it what the board shows and the
values of the configuration form (`PageHole`). `page` is the sequence of the pieces, over the way a
piece is written; so it is the page itself (`sendPage`), and the template of it, with a hole for
every value (`template`). What is fixed before and after the body, the style sheet and the script,
is left out.

The template is read once and for all (`sound_template`). What is said of every page follows from
it: the tags are the same whatever the configuration contains (`tags_sendPage`), the elements show
the board (`shown_sendPage`), and its form stores what was typed into it and nothing else
(`parseForm_sendPage`).

* `SoundTemplate` lists what is read of the template: no fault, two forms, of which the first is
  that of `/save` with its ten controls, and the elements of the pills, the address and the reset
  reason. It is decidable, and decided by evaluation.
* `PageHole.inert_text`: nothing that is written into a hole ends a text or a value. For texts of
  the configuration this is the escaping, for the rest it is seen from the characters.
* `tokens_sendPage` puts the two together; the results about the page read it in three ways.

What a user does to the form is `Form.submitted`: some controls are edited, and all are sent. The
device stores the pairs one after the other, and those that were not edited store what is there
already (`foldlM_saveEdit`).
-/

namespace Jzf407

open Foundation Foundation.Markup

/-! ### The page -/

/-- What the page shows as a pill. -/
inductive Pill
  | relay
  | led1
  | led2
  | link
  | mqtt
  deriving DecidableEq, Repr

namespace Pill

/-- Whether the pill is lit. -/
def isOn (s : Snapshot) : Pill → Bool
  | relay => s.relay
  | led1 => s.led1
  | led2 => s.led2
  | link => s.link
  | mqtt => s.mqtt

/-- The text of the pill. -/
def text (s : Snapshot) : Pill → Str
  | relay => if s.relay then "ON".toList else "OFF".toList
  | led1 => "LED1".toList
  | led2 => "LED2".toList
  | link => if s.link then "Up".toList else "Down".toList
  | mqtt => if s.mqtt then "Online".toList else "Offline".toList

/-- The id of the pill. -/
def id : Pill → Str
  | relay => "rp".toList
  | led1 => "l1".toList
  | led2 => "l2".toList
  | link => "lk".toList
  | mqtt => "mq".toList

end Pill

/-- The places of the page where something is written that is not fixed. -/
inductive PageHole
  | rst
  | pillState (p : Pill)
  | pillText (p : Pill)
  | ip
  | value (field : FormKey)
  | placeholder (pass : FormKey)
  deriving DecidableEq, Repr

/-- The placeholder of a password. -/
def keepHint (pass : HString credMax) : Str :=
  if pass.chars = [] then [] else "leave blank to keep".toList

/-- What is written there. -/
def PageHole.text (cfg : NetworkConfig) (s : Snapshot) (reset : ResetReason) : PageHole → Str
  | rst => reset.asStr
  | pillState p => if p.isOn s then "on".toList else "off".toList
  | pillText p => p.text s
  | ip => (fmtIpv4 cfg.ip).chars
  | value field => valueAttr cfg field
  | placeholder .mqttPass => keepHint cfg.mqttPass
  | placeholder .webPass => keepHint cfg.webPass
  | placeholder _ => []

section

variable {α : Type}

/-- A pill. -/
def pill (w : String → List α) (hole : PageHole → List α) (p : Pill) (id : String) : List α :=
  [w "<span class='pill ", hole (.pillState p), w "' id='", w id,
    w "'><span class='dot'></span>", hole (.pillText p), w "</span>"].flatten

/-- **The body of the page**, over the way in which a fixed piece and a hole are written. A long
piece is written in parts. -/
def page (w : String → List α) (hole : PageHole → List α) (linkUp : Bool) : List α :=
  [w "<div class='topbar'><div class='left'><span class='brand'>JZF407 // SIGNAL.EDGE</span>",
    w "<span>SEC \u25b8 STM32F407VET6</span></div>",
    w "<div class='brand' style='font-size:10px;letter-spacing:.4em'>\u2014 REV 2.2 \u2014</div>",
    w "<div class='right'><span>UPLINK ",
    (if linkUp then w "<span class='ok'>\u25cf</span> NOMINAL"
      else w "<span class='hot'>\u25cf</span> DOWN"),
    w "</span><span>BUS <span class='hot'>\u25cf</span> 168MHZ</span><span id='clk'>--:--:--",
    w "</span></div></div>",
    w "<main><span class='eyebrow'>Arm\u00ae Cortex\u00ae-M4F // Embassy async firmware</span>",
    w "<h1 class='title'>JZF<span class='slash'>/</span><span class='accent'>407</span></h1>",
    w "<p class='lede'>STM32F407VET6 on the Embassy async executor \u2014 <b>",
    w "real-time GPIO, Ethernet, and MQTT</b> over a smoltcp stack. Relay drives a ",
    w "<span class='pink'>2 s monostable pulse</span>, LEDs persist to EEPROM, and this page ",
    w "streams live state over <b>Server-Sent Events</b> \u2014 no polling, instant updates.</p>",
    w "<div class='specs bracketed'><span class='bk1'></span><span class='bk2'></span>",
    w "<div class='spec'><div class='k'>core</div><div class='v'>M4F<span class='u'>@168</span>",
    w "</div><div class='sub'>Cortex-M4 + FPU</div></div><div class='spec'><div class='k'>flash",
    w "</div><div class='v'>512<span class='u'>KB</span></div><div class='sub'>~28% used</div>",
    w "</div><div class='spec'><div class='k'>sram</div><div class='v'>128<span class='u'>KB",
    w "</span></div><div class='sub'>+64K CCM</div></div><div class='spec'><div class='k'>uptime",
    w "</div><div class='v' id='up' style='font-size:20px'>\u2014</div>",
    w "<div class='sub' id='rst'>",
    hole .rst,
    w "</div></div></div>",
    w "<div class='grid'><div>",
    w "<div class='section-num'><span>0X01</span><span class='bar'></span><span class='mg'>",
    w "// I/O STATE</span></div><div class='win'><span class='bk1'></span><span class='bk2'>",
    w "</span><div class='chrome'><span class='path'>gpio<span class='slash'>/</span>outputs",
    w "</span><span class='lights'><i></i><i></i><i></i></span></div><div class='wbody'>",
    w "<div class='io'><div class='lbl'>RELAY<small>MQTT stm32/relay \u2192 2s pulse</small>",
    w "</div>",
    pill w hole .relay "rp",
    w "</div><div class='io'><div class='lbl'>LED 1<small>stm32/led/1 \u00b7 persisted</small>",
    w "</div>",
    pill w hole .led1 "l1",
    w "</div><div class='io'><div class='lbl'>LED 2<small>stm32/led/2 \u00b7 persisted</small>",
    w "</div>",
    pill w hole .led2 "l2",
    w "</div></div></div>",
    w "<div class='section-num'><span>0X02</span><span class='bar'></span><span class='mg'>",
    w "// LINK</span></div><div class='win'><span class='bk1'></span><span class='bk2'></span>",
    w "<div class='chrome'><span class='path'>net<span class='slash'>/</span>status</span>",
    w "<span class='lights'><i></i><i></i><i></i></span></div><div class='wbody'>",
    w "<div class='kv'><span class='k'>Ethernet</span>",
    pill w hole .link "lk",
    w "</div><div class='kv'><span class='k'>MQTT Broker</span>",
    pill w hole .mqtt "mq",
    w "</div><div class='kv'><span class='k'>IP Address</span><span class='v' id='ip'>",
    hole .ip,
    w "</span></div></div></div></div>",
    w "<div><div class='section-num'><span>0X03</span><span class='bar'></span>",
    w "<span class='mg'>// CONFIG</span></div><div class='win'><span class='bk1'></span>",
    w "<span class='bk2'></span><div class='chrome'><span class='path'>etc<span class='slash'>/",
    w "</span>config.toml</span><span>EEPROM</span></div><div class='wbody'>",
    w "<form method='post' action='/save'><div class='sec first'>Network</div><label>IP address",
    w "</label><input type='text' name='ip' value='",
    hole (.value .ip),
    w "'><div class='row'><div><label>Prefix</label><input type='number' name='prefix' value='",
    hole (.value .prefixLen),
    w "'></div><div><label>Gateway</label><input type='text' name='gw' value='",
    hole (.value .gateway),
    w "'></div></div><div class='sec'>MQTT Broker</div><div class='row'><div><label>Broker IP",
    w "</label><input type='text' name='broker' value='",
    hole (.value .brokerIp),
    w "'></div><div><label>Port</label><input type='number' name='port' value='",
    hole (.value .brokerPort),
    w "'></div></div><label>Client ID</label><input type='text' name='id' value='",
    hole (.value .clientId),
    w "'><div class='sec'>MQTT Auth</div><div class='row'><div><label>Username</label><",
    w "input type='text' name='muser' value='",
    hole (.value .mqttUser),
    w "'></div><div><label>Password</label><input type='password' name='mpass' value='' ",
    w "placeholder='",
    hole (.placeholder .mqttPass),
    w "'></div></div><div class='sec'>Web Login</div><div class='row'><div><label>Username",
    w "</label><input type='text' name='wuser' value='",
    hole (.value .webUser),
    w "'></div><div><label>Password</label><input type='password' name='wpass' value='' ",
    w "placeholder='",
    hole (.placeholder .webPass),
    w "'></div></div><button class='btn save'>\u25b8 Save &amp; Reboot</button></form></div>",
    w "<div class='foot'><form method='post' action='/reboot' style='flex:1'>",
    w "<button class='btn reboot'>Reboot</button></form>",
    w "<button class='btn' style='flex:1' onclick='doLogout()'>Log Out</button></div></div>",
    w "</div></div></main>"].flatten

end

/-- **The body of the dashboard.** -/
def sendPage (cfg : NetworkConfig) (s : Snapshot) (reset : ResetReason) : Str :=
  page String.toList (PageHole.text cfg s reset) s.link

/-- The body with its holes open. -/
def template (linkUp : Bool) : List (Char ⊕ PageHole) :=
  page (fun piece => piece.toList.map .inl) (fun h => [.inr h]) linkUp

/-- The page is the template, filled. -/
theorem fill_template (cfg : NetworkConfig) (s : Snapshot) (reset : ResetReason) :
    fill (PageHole.text cfg s reset) (template s.link) = sendPage cfg s reset := by
  have hflatten : ∀ pieces : List (List (Char ⊕ PageHole)),
      fill (PageHole.text cfg s reset) pieces.flatten =
        (pieces.map (fill (PageHole.text cfg s reset))).flatten := by
    intro pieces
    induction pieces with
    | nil => rfl
    | cons piece pieces ih =>
      rw [List.flatten_cons, fill_append, ih, List.map_cons, List.flatten_cons]
  unfold template sendPage page pill
  cases s.link <;>
    simp only [hflatten, List.map_cons, List.map_nil, fill_map_inl, fill_inr, if_true,
      Bool.false_eq_true, if_false, -String.reduceToList]

/-! ### Reading the template -/

/-- The tokens of the template. -/
def templateTokens (linkUp : Bool) : List (Token (Char ⊕ PageHole)) :=
  tokens code (.data []) (template linkUp)

/-- The value attribute of a field in the template: passwords are not written. -/
def templateValue (field : FormKey) : List (Char ⊕ PageHole) :=
  if field = .mqttPass ∨ field = .webPass then [] else [.inr (.value field)]

/-- A token without its values. -/
def bare {α : Type} : Token α → Token Unit
  | .text _ => .text []
  | .start name attrs => .start name (attrs.map fun p => (p.1, []))
  | .close name => .close name
  | .bad => .bad

/-- What is read of the template. -/
structure SoundTemplate (ts : List (Token (Char ⊕ PageHole))) : Prop where
  notBad : .bad ∉ ts
  forms : (forms none ts).map (fun form => (attr "action".toList form.attrs, form.controls)) =
    [(some ("/save".toList.map .inl),
        formFields.map fun field => (field.name.map .inl, templateValue field)),
      (some ("/reboot".toList.map .inl), [])]
  ids : ∀ x ∈ ids ts, ∀ a ∈ x, a.isLeft = true
  pill : ∀ p ∈ [Pill.relay, .led1, .led2, .link, .mqtt],
    byId (p.id.map .inl) ts =
      some ([("class".toList, "pill ".toList.map .inl ++ [.inr (.pillState p)]),
        ("id".toList, p.id.map .inl)], [.inr (.pillText p)])
  ip : (byId ("ip".toList.map .inl) ts).map Prod.snd = some [.inr .ip]
  rst : (byId ("rst".toList.map .inl) ts).map Prod.snd = some [.inr .rst]

instance : DecidableEq (List (Char ⊕ PageHole)) := inferInstance

instance (ts : List (Token (Char ⊕ PageHole))) : Decidable (SoundTemplate ts) :=
  decidable_of_iff (.bad ∉ ts ∧ _ ∧ _ ∧ _ ∧ _ ∧ _)
    ⟨fun ⟨h₁, h₂, h₃, h₄, h₅, h₆⟩ => ⟨h₁, h₂, h₃, h₄, h₅, h₆⟩,
      fun ⟨h₁, h₂, h₃, h₄, h₅, h₆⟩ => ⟨h₁, h₂, h₃, h₄, h₅, h₆⟩⟩

/-- **The template is sound.** The fixed pieces are spelt out before they are read. -/
theorem sound_template (linkUp : Bool) : SoundTemplate (templateTokens linkUp) := by
  unfold templateTokens template page pill
  beta_reduce
  cases linkUp with
  | false =>
    rw [if_neg Bool.false_ne_true]
    repeat rw [String.toList_ofList]
    decide +kernel
  | true =>
    rw [if_pos rfl]
    repeat rw [String.toList_ofList]
    decide +kernel

/-- The link changes values and texts only. -/
theorem bare_template (linkUp : Bool) :
    (templateTokens linkUp).map bare = (templateTokens true).map bare := by
  cases linkUp with
  | true => rfl
  | false =>
    unfold templateTokens template page pill
    beta_reduce
    rw [if_neg Bool.false_ne_true, if_pos rfl]
    repeat rw [String.toList_ofList]
    decide +kernel

/-! ### What is written into the holes -/

theorem inert_nil : Inert [] := ⟨List.not_mem_nil, List.not_mem_nil⟩

theorem Numeric.inert {t : Str} (h : Numeric t) : Inert t := by
  constructor <;> intro hmem
  · exact h.forall (P := fun c => c ≠ '<') (by decide) (by decide) _ hmem rfl
  · exact h.forall (P := fun c => c ≠ '\'') (by decide) (by decide) _ hmem rfl

theorem inert_writeAttr (t : Str) : Inert (writeAttr t) := by
  unfold writeAttr
  split
  · next escaped hok =>
    rw [htmlEscapeAttr_eq_ok_iff.mp hok]
    obtain ⟨hlt, -, -, hquote⟩ := (AttributeSafe.of_flatMap_escapeChar t).notMem
    exact ⟨hlt, hquote⟩
  · exact inert_nil

theorem inert_valueAttr (cfg : NetworkConfig) (field : FormKey) : Inert (valueAttr cfg field) := by
  cases field with
  | ip | gateway | brokerIp => exact (numeric_fmtIpv4 _).inert
  | prefixLen =>
    rw [valueAttr, chars_fmtU8]
    exact (numeric_decimal _).inert
  | brokerPort =>
    rw [valueAttr, chars_fmtU16]
    exact (numeric_decimal _).inert
  | clientId | mqttUser | webUser => exact inert_writeAttr _
  | mqttPass | webPass => exact inert_nil

theorem inert_keepHint (pass : HString credMax) : Inert (keepHint pass) := by
  unfold keepHint
  split
  · exact inert_nil
  · decide

theorem Pill.inert_text (p : Pill) (s : Snapshot) : Inert (p.text s) := by
  unfold text
  cases p with
  | led1 => exact (by decide : Inert "LED1".toList)
  | led2 => exact (by decide : Inert "LED2".toList)
  | relay | link | mqtt =>
    dsimp only
    split <;> decide

/-- **Nothing that is written ends a text or a value.** -/
theorem PageHole.inert_text (cfg : NetworkConfig) (s : Snapshot) (reset : ResetReason)
    (h : PageHole) : Inert (h.text cfg s reset) := by
  cases h with
  | rst => exact (by cases reset <;> decide : Inert reset.asStr)
  | pillState p =>
    unfold PageHole.text
    dsimp only
    split <;> decide
  | pillText p => exact p.inert_text s
  | ip => exact inert_valueAttr cfg .ip
  | value field => exact inert_valueAttr cfg field
  | placeholder pass =>
    cases pass with
    | mqttPass => exact inert_keepHint cfg.mqttPass
    | webPass => exact inert_keepHint cfg.webPass
    | _ => exact inert_nil

/-- **What is read of the page** is what was read of the template, filled. -/
theorem tokens_sendPage (cfg : NetworkConfig) (s : Snapshot) (reset : ResetReason) :
    tokens some (.data []) (sendPage cfg s reset) =
      (templateTokens s.link).map (Token.fill (PageHole.text cfg s reset)) := by
  rw [← fill_template]
  exact tokens_fill _ (PageHole.inert_text cfg s reset) (m := .data [])
    (sound_template s.link).notBad

/-! ### What every page has in common, and what it shows -/

theorem bare_fill (v : PageHole → Str) (t : Token (Char ⊕ PageHole)) :
    bare (t.fill v) = bare t := by
  cases t with
  | start name attrs => simp [Token.fill, bare, fillAttrs]
  | text | close | bad => rfl

/-- **The tags of the page are fixed**: whatever the configuration contains and whatever the board
shows, the page is read without fault, with the same tags and attributes in the same order. -/
theorem tags_sendPage (cfg cfg' : NetworkConfig) (s s' : Snapshot) (reset reset' : ResetReason) :
    .bad ∉ tokens some (.data []) (sendPage cfg s reset) ∧
      (tokens some (.data []) (sendPage cfg s reset)).map bare =
        (tokens some (.data []) (sendPage cfg' s' reset')).map bare := by
  have hbare : ∀ (cfg : NetworkConfig) (s : Snapshot) (reset : ResetReason),
      (tokens some (.data []) (sendPage cfg s reset)).map bare =
        (templateTokens true).map bare := by
    intro cfg s reset
    calc (tokens some (.data []) (sendPage cfg s reset)).map bare
        = (templateTokens s.link).map fun t => bare (t.fill (PageHole.text cfg s reset)) := by
          rw [tokens_sendPage, List.map_map]
          rfl
      _ = (templateTokens s.link).map bare := List.map_congr_left fun t _ => bare_fill _ t
      _ = (templateTokens true).map bare := bare_template s.link
  refine ⟨fun hmem => ?_, (hbare cfg s reset).trans (hbare cfg' s' reset').symm⟩
  rw [tokens_sendPage] at hmem
  obtain ⟨t, ht, hfill⟩ := List.mem_map.mp hmem
  cases t with
  | bad => exact (sound_template s.link).notBad ht
  | text | start | close => cases hfill

/-- The text of the element with an id, on the page that is sent. -/
theorem byId_sendPage (cfg : NetworkConfig) (s : Snapshot) (reset : ResetReason) (id : Str) :
    byId id (tokens some (.data []) (sendPage cfg s reset)) =
      (byId (id.map .inl) (templateTokens s.link)).map fun p =>
        (fillAttrs (PageHole.text cfg s reset) p.1, fill (PageHole.text cfg s reset) p.2) := by
  rw [tokens_sendPage]
  exact byId_fill _ id (sound_template s.link).ids

/-- A hole that is all the text of an element. -/
theorem text_sendPage (cfg : NetworkConfig) (s : Snapshot) (reset : ResetReason) (id : Str)
    (hole : PageHole)
    (h : (byId (id.map .inl) (templateTokens s.link)).map Prod.snd = some [.inr hole]) :
    (byId id (tokens some (.data []) (sendPage cfg s reset))).map Prod.snd =
      some (hole.text cfg s reset) := by
  obtain ⟨q, hq, htext⟩ := Option.map_eq_some_iff.mp h
  rw [byId_sendPage, hq, Option.map_some, Option.map_some, htext, fill_inr]

/-- **What the page shows**: each pill is lit or not as the board is, and has its text; the address
and the reset reason are those of the device. -/
theorem shown_sendPage (cfg : NetworkConfig) (s : Snapshot) (reset : ResetReason) :
    (∀ p : Pill, byId p.id (tokens some (.data []) (sendPage cfg s reset)) =
      some ([("class".toList, if p.isOn s then "pill on".toList else "pill off".toList),
        ("id".toList, p.id)], p.text s)) ∧
    (byId "ip".toList (tokens some (.data []) (sendPage cfg s reset))).map Prod.snd =
      some (fmtIpv4 cfg.ip).chars ∧
    (byId "rst".toList (tokens some (.data []) (sendPage cfg s reset))).map Prod.snd =
      some reset.asStr := by
  have hsound := sound_template s.link
  refine ⟨fun p => ?_, text_sendPage cfg s reset _ .ip hsound.ip,
    text_sendPage cfg s reset _ .rst hsound.rst⟩
  have hp : p ∈ [Pill.relay, .led1, .led2, .link, .mqtt] := by cases p <;> decide
  have hclass : "pill ".toList ++ (PageHole.pillState p).text cfg s reset =
      if p.isOn s then "pill on".toList else "pill off".toList := by
    unfold PageHole.text
    dsimp only
    split <;> decide
  rw [byId_sendPage, hsound.pill p hp, Option.map_some, fillAttrs, List.map_cons, List.map_cons,
    List.map_nil, fill_append, fill_map_inl, fill_map_inl, fill_inr, fill_inr, hclass]
  rfl

/-! ### What the form sends -/

/-- What a browser sends for a form, some of whose controls have been edited. The browser is an
idealised one, in which a control keeps the text that it is given: real ones drop line breaks from
the value of a text input, so that a stored text with a line break would be sent back without it. -/
def Form.submitted (form : Form Char) (edits : Str → Option Str) : Str :=
  ['&'].intercalate (form.controls.map fun p =>
    formEncode (decodeEntities p.1) ++
      '=' :: formEncode ((edits (decodeEntities p.1)).getD (decodeEntities p.2)))

/-- What an edit asks for: a text that is too long or has a NUL is refused. -/
def saveEdit (current cfg : NetworkConfig) (field : FormKey) (typed : Str) : Option NetworkConfig :=
  if byteLen typed ≤ 64 ∧ NulFree typed then setField current cfg typed field else none

/-- A pair whose value is form-encoded. -/
theorem applyPair_encoded (current cfg : NetworkConfig) (field : FormKey) (val : Str) :
    applyPair current cfg (field.name ++ '=' :: formEncode val) =
      saveEdit current cfg field val := by
  unfold saveEdit
  split
  · next h => exact applyPair_formEncode h.1 h.2
  · next h =>
    have hname : '=' ∉ field.name ∧ trim field.name = field.name := by
      cases field <;> decide
    have hvalue : trim (formEncode val) = formEncode val :=
      trim_of_forall fun c hc => (formEncode_clean hc).2
    -- what is decoded would be the text itself
    have hdecode : (formUrlDecode 64 (formEncode val)).toOption = none := by
      refine Option.eq_none_iff_forall_ne_some.mpr fun t ht => h ?_
      obtain ⟨hbytes, hnul⟩ :=
        formUrlDecode_eq_ok_iff_decodeBytes.mp (toOption_eq_some_iff.mp ht)
      rw [decodeBytes_formEncode] at hbytes
      have hchars : t.chars = val := (asBytes_injective (Option.some.inj hbytes)).symm
      exact hchars ▸ ⟨t.fits, hnul⟩
    rw [applyPair, keyValue, splitOnce_append hname.1, Option.getD_some, hvalue, hdecode]
    rfl

/-- The pairs of any fields are stored one after the other. -/
theorem parseForm_encoded (cfg : NetworkConfig) (val : FormKey → Str) {fields : List FormKey}
    (hne : fields ≠ []) :
    parseForm (['&'].intercalate (fields.map fun k => k.name ++ '=' :: formEncode (val k))) cfg =
      fields.foldlM (fun c k => saveEdit cfg c k (val k)) cfg := by
  have hamp : ∀ pair ∈ fields.map fun k => k.name ++ '=' :: formEncode (val k), '&' ∉ pair := by
    intro pair hpair hmem
    obtain ⟨field, -, rfl⟩ := List.mem_map.mp hpair
    rw [List.mem_append, List.mem_cons] at hmem
    rcases hmem with hmem | hmem | hmem
    · have hname : '&' ∉ field.name := by cases field <;> decide
      exact hname hmem
    · exact absurd hmem (by decide)
    · exact (formEncode_clean hmem).1 rfl
  rw [parseForm, List.splitOn_intercalate _ hamp (by simpa using hne), List.foldlM_map]
  simp only [applyPair_encoded]

/-- A component is written that is there already. -/
private theorem map_put_eq_some {β : Type} (get : NetworkConfig → β)
    (put : NetworkConfig → β → NetworkConfig) (hget : ∀ c x, get (put c x) = x)
    (hput : ∀ c, put c (get c) = c) {o : Option β} {cfg c : NetworkConfig}
    (h : o.map (put cfg) = some cfg) (hagree : get c = get cfg) : o.map (put c) = some c := by
  obtain ⟨x, rfl, heq⟩ := Option.map_eq_some_iff.mp h
  have hx : x = get c := by rw [hagree, ← heq, hget]
  rw [Option.map_some, hx, hput]

/-- Storing what a field has already changes nothing, whatever the other fields are. -/
theorem setField_of_agree {cfg c : NetworkConfig} {val : Str} {k : FormKey}
    (h : setField cfg cfg val k = some cfg) (hagree : k.Agree c cfg) :
    setField cfg c val k = some c := by
  cases k with
  -- the prefix length is parsed and then checked; the other fields are one parse each
  | prefixLen =>
    obtain ⟨p, hp, hset⟩ := Option.bind_eq_some_iff.mp h
    split at hset
    · next hrange =>
      have hval : p = c.prefixLen :=
        (congrArg NetworkConfig.prefixLen (Option.some.inj hset)).trans hagree.symm
      subst hval
      rw [setField, hp, Option.bind_eq_bind, Option.bind_some, if_pos hrange]
    · cases hset
  | ip =>
    exact map_put_eq_some NetworkConfig.ip (fun c x => { c with ip := x })
      (fun _ _ => rfl) (fun _ => rfl) h hagree
  | gateway =>
    exact map_put_eq_some NetworkConfig.gateway (fun c x => { c with gateway := x })
      (fun _ _ => rfl) (fun _ => rfl) h hagree
  | brokerIp =>
    exact map_put_eq_some NetworkConfig.brokerIp (fun c x => { c with brokerIp := x })
      (fun _ _ => rfl) (fun _ => rfl) h hagree
  | brokerPort =>
    exact map_put_eq_some NetworkConfig.brokerPort (fun c x => { c with brokerPort := x })
      (fun _ _ => rfl) (fun _ => rfl) h hagree
  | clientId =>
    exact map_put_eq_some NetworkConfig.clientId (fun c x => { c with clientId := x })
      (fun _ _ => rfl) (fun _ => rfl) h hagree
  | mqttUser =>
    exact map_put_eq_some NetworkConfig.mqttUser (fun c x => { c with mqttUser := x })
      (fun _ _ => rfl) (fun _ => rfl) h hagree
  | mqttPass =>
    exact map_put_eq_some NetworkConfig.mqttPass (fun c x => { c with mqttPass := x })
      (fun _ _ => rfl) (fun _ => rfl) h hagree
  | webUser =>
    exact map_put_eq_some NetworkConfig.webUser (fun c x => { c with webUser := x })
      (fun _ _ => rfl) (fun _ => rfl) h hagree
  | webPass =>
    exact map_put_eq_some NetworkConfig.webPass (fun c x => { c with webPass := x })
      (fun _ _ => rfl) (fun _ => rfl) h hagree

/-- A field that is not edited is stored as it is. -/
theorem saveEdit_shown {cfg c : NetworkConfig} (h : cfg.WellFormed) {k : FormKey}
    (hagree : k.Agree c cfg) :
    saveEdit cfg c k (decodeEntities (valueAttr cfg k)) = some c := by
  obtain ⟨hfits, hnul, hset⟩ := setField_shown h k
  rw [saveEdit, if_pos ⟨hfits, hnul⟩, setField_of_agree hset hagree]

/-- **Only what is edited is stored.** -/
theorem foldlM_saveEdit {cfg : NetworkConfig} (h : cfg.WellFormed) (edits : Str → Option Str)
    {fields : List FormKey} (hnodup : fields.Nodup) {c : NetworkConfig}
    (hagree : ∀ k ∈ fields, k.Agree c cfg) :
    fields.foldlM (fun c k =>
        saveEdit cfg c k ((edits k.name).getD (decodeEntities (valueAttr cfg k)))) c =
      fields.foldlM (fun c k => (edits k.name).elim (some c) (saveEdit cfg c k)) c := by
  induction fields generalizing c with
  | nil => rfl
  | cons k fields ih =>
    obtain ⟨hk, hfields⟩ := List.forall_mem_cons.mp hagree
    obtain ⟨hnotMem, hrest⟩ := List.nodup_cons.mp hnodup
    rw [List.foldlM_cons, List.foldlM_cons]
    cases hedit : edits k.name with
    | none =>
      rw [Option.getD_none, saveEdit_shown h hk]
      exact ih hrest hfields
    | some typed =>
      rw [Option.getD_some, Option.elim_some]
      cases hsave : saveEdit cfg c k typed with
      | none => rfl
      | some c' =>
        -- the fields after this one are still as they were
        refine ih hrest fun other hother => ?_
        have hne : other ≠ k := fun heq => hnotMem (heq ▸ hother)
        unfold saveEdit at hsave
        split at hsave
        · exact (setField_frame hsave hne).trans (hfields other hother)
        · cases hsave

theorem fill_templateValue (cfg : NetworkConfig) (s : Snapshot) (reset : ResetReason)
    (field : FormKey) :
    fill (PageHole.text cfg s reset) (templateValue field) = valueAttr cfg field := by
  cases field with
  | mqttPass | webPass => rfl
  | _ => exact fill_inr _ _

/-- The names of the fields are sent as they are. -/
theorem encode_name (field : FormKey) :
    decodeEntities field.name = field.name ∧ formEncode field.name = field.name := by
  cases field <;> decide

/-- What is sent for a form with the controls of the template, filled. -/
theorem submitted_fill (cfg : NetworkConfig) (s : Snapshot) (reset : ResetReason)
    {form : Form (Char ⊕ PageHole)} (edits : Str → Option Str)
    (hcontrols : form.controls =
      formFields.map fun field => (field.name.map .inl, templateValue field)) :
    Form.submitted (form.fill (PageHole.text cfg s reset)) edits =
      ['&'].intercalate (formFields.map fun k => k.name ++
        '=' :: formEncode ((edits k.name).getD (decodeEntities (valueAttr cfg k)))) := by
  rw [Form.submitted, Form.controls_fill, hcontrols, List.map_map, List.map_map]
  refine congrArg _ (List.map_congr_left fun field _ => ?_)
  obtain ⟨hdecode, hencode⟩ := encode_name field
  simp only [Function.comp_apply, fill_map_inl, fill_templateValue, hdecode, hencode]

/-- **The form of the page stores what was typed into it** and nothing else. A browser that reads
the page finds one form for `/save`, and sends its controls, edited as the user likes; the body is
parsed as if each edited field were stored in the order of the page, and no other. -/
theorem parseForm_sendPage {cfg : NetworkConfig} (h : cfg.WellFormed) (s : Snapshot)
    (reset : ResetReason) (edits : Str → Option Str) :
    ∃ form, (forms none (tokens some (.data []) (sendPage cfg s reset))).filter
        (fun form => attr "action".toList form.attrs == some "/save".toList) = [form] ∧
      parseForm (Form.submitted form edits) cfg =
        formFields.foldlM (fun c k => (edits k.name).elim (some c) (saveEdit cfg c k)) cfg := by
  have hforms : forms none (tokens some (.data []) (sendPage cfg s reset)) =
      (forms none (templateTokens s.link)).map (Form.fill (PageHole.text cfg s reset)) := by
    rw [tokens_sendPage]
    exact forms_fill _ none _
  obtain ⟨save, reboots, htemplate, hsave, hreboots⟩ :=
    List.map_eq_cons_iff.mp (sound_template s.link).forms
  obtain ⟨reboot, rfl, hreboot⟩ := List.map_eq_singleton_iff.mp hreboots
  obtain ⟨haction, hcontrols⟩ := Prod.mk.inj hsave
  refine ⟨save.fill (PageHole.text cfg s reset), ?_, ?_⟩
  · -- the other form of the page is that for `/reboot`
    have hfilled : ∀ (form : Form (Char ⊕ PageHole)) (action : Str),
        attr "action".toList form.attrs = some (action.map .inl) →
          attr "action".toList (form.fill (PageHole.text cfg s reset)).attrs = some action := by
      intro form action haction
      rw [Form.fill, attr_fillAttrs, haction, Option.map_some, fill_map_inl]
    rw [hforms, htemplate, List.map_cons, List.map_singleton,
      List.filter_cons_of_pos (by rw [hfilled save _ haction]; exact beq_self_eq_true _),
      List.filter_cons_of_neg (by rw [hfilled reboot _ (Prod.mk.inj hreboot).1]; decide),
      List.filter_nil]
  · rw [submitted_fill cfg s reset edits hcontrols, parseForm_encoded cfg _ (by decide)]
    exact foldlM_saveEdit h edits (by decide) fun k _ => k.agree_refl cfg

/-- The default configuration, of which only the address of the broker is edited. -/
theorem parseForm_sendPage_broker :
    let edits : Str → Option Str :=
      fun name => if name = "broker".toList then some "10.0.0.9".toList else none
    ∃ form ∈ forms none
        (tokens some (.data []) (sendPage .default ⟨true, false, true, true, false⟩ .powerOn)),
      parseForm (Form.submitted form edits) .default =
        some { NetworkConfig.default with brokerIp := ⟨10, 0, 0, 9⟩ } := by
  intro edits
  obtain ⟨form, hfilter, hparse⟩ := parseForm_sendPage NetworkConfig.wellFormed_default
    ⟨true, false, true, true, false⟩ .powerOn edits
  have hmem : form ∈ [form] := List.mem_singleton_self form
  rw [← hfilter] at hmem
  exact ⟨form, (List.mem_filter.mp hmem).1, hparse.trans (by decide +kernel)⟩

end Jzf407
