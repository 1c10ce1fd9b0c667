import Jzf407.Foundation.EventFormat
import Jzf407.Foundation.Json
import Jzf407.Web.DottedAddress
import Jzf407.Web.HeaderCookie
import Jzf407.Web.StreamEvents

/-!
# The texts that are built in buffers

The event of a stream, the body of `/state` and the redirect after a login are written into buffers
of fixed size, and the verdicts of the writes are discarded. All of them fit, whatever the values:
`Snapshot.chars_writeEvent`, `Snapshot.chars_stateBody`, `chars_loginRedirect`. The longest values
are known: the reasons of a reset are a fixed list (`ResetReason`), numbers and addresses have a
greatest length.

What is written is read back. A page parses an event and a status as JSON, and gets the values that
were sampled (`readEvents_eventText_append`, `readState_stateText`). A browser takes a cookie from
the redirect (`issuedPair_redirectText`), and a request with it presents the token
(`presentedToken_of_firstCookie`, `texts_spec`), so it is accepted in the session of the login
(`validateSession_of_login`). A page that reads a whole stream sees the changes in the samples that
were taken for it (`readEvents_of_run`).

Each text has its format string (`eventLiterals`, `stateLiterals`, `redirectLiterals`) as in the
source, and next to it the text that it is meant to be: an event is one block of a stream whose
data is an object (`eventText_eq`), a status is an object (`stateText_eq`), and the redirect has one
line for the cookie (`redirectText_eq`). The readers are those of `Foundation`; nothing of the
device is known to them.
-/

namespace Jzf407

open Foundation

/-! ### Reset reasons -/

/-- Why the device was reset. -/
inductive ResetReason
  | powerOn
  | nrstPin
  | software
  | iwdgTimeout
  | brownOut
  | stackOverflow
  | mallocFailed
  | remoteReboot
  | unknown
  deriving DecidableEq, Repr

namespace ResetReason

/-- The text of a reason. -/
def asStr : ResetReason → Str
  | powerOn => "power_on".toList
  | nrstPin => "nrst_pin".toList
  | software => "software".toList
  | iwdgTimeout => "iwdg_timeout".toList
  | brownOut => "brown_out".toList
  | stackOverflow => "stack_overflow".toList
  | mallocFailed => "malloc_failed".toList
  | remoteReboot => "remote_reboot".toList
  | unknown => "unknown".toList

/-- All reasons. -/
def all : List ResetReason :=
  [powerOn, nrstPin, software, iwdgTimeout, brownOut, stackOverflow, mallocFailed, remoteReboot,
    unknown]

/-- The reason with that text. -/
def ofStr (s : Str) : Option ResetReason := all.find? fun r => r.asStr == s

@[simp]
theorem ofStr_asStr (r : ResetReason) : ofStr r.asStr = some r := by
  cases r <;> decide

theorem byteLen_asStr_le (r : ResetReason) : byteLen r.asStr ≤ 14 := by
  cases r <;> decide

theorem plain_asStr (r : ResetReason) : Plain r.asStr := by
  cases r <;> decide

end ResetReason

/-! ### What is written -/

namespace Snapshot

/-- The texts of the sampled values, and of the uptime second. -/
def args (s : Snapshot) (up : UInt64) : List Str :=
  [decimal s.relay.toNat, decimal s.led1.toNat, decimal s.led2.toNat, decimal s.link.toNat,
    decimal s.mqtt.toNat, decimal up.toNat]

/-- The format string of an event. -/
def eventLiterals : List Str :=
  ["data: \x7b\"relay\":".toList, ",\"led1\":".toList, ",\"led2\":".toList, ",\"link\":".toList,
    ",\"mqtt\":".toList, ",\"up\":".toList, "\x7d\n\n".toList]

/-- The text of an event. -/
def eventText (s : Snapshot) (up : UInt64) : Str :=
  (formatPieces eventLiterals (s.args up)).flatten

/-- Write an event into a buffer. -/
def writeEvent {N : ℕ} (s : Snapshot) (up : UInt64) (buf : HString N) : HString N :=
  buf.writeFmt (formatPieces eventLiterals (s.args up))

/-- The format string of a status. -/
def stateLiterals : List Str :=
  ["\x7b\"relay\":".toList, ",\"led1\":".toList, ",\"led2\":".toList, ",\"link\":".toList,
    ",\"mqtt\":".toList, ",\"up\":".toList, ",\"ip\":\"".toList, "\",\"rst\":\"".toList,
    "\"\x7d".toList]

/-- The arguments of a status. -/
def stateArgs (s : Snapshot) (up : UInt64) (ip : Ipv4) (reset : ResetReason) : List Str :=
  s.args up ++ [(fmtIpv4 ip).chars, reset.asStr]

/-- The text of a status. -/
def stateText (s : Snapshot) (up : UInt64) (ip : Ipv4) (reset : ResetReason) : Str :=
  (formatPieces stateLiterals (s.stateArgs up ip reset)).flatten

/-- The body that `send_state` builds. -/
def stateBody (s : Snapshot) (up : UInt64) (ip : Ipv4) (reset : ResetReason) : HString 160 :=
  HString.empty.writeFmt (formatPieces stateLiterals (s.stateArgs up ip reset))

end Snapshot

/-- The format string of the redirect after a login. -/
def redirectLiterals : List Str :=
  ["HTTP/1.1 303 See Other\r\nSet-Cookie: jzf_session=".toList,
    "; Path=/; Max-Age=1800; HttpOnly; SameSite=Strict\r\n".toList ++
      "Location: /\r\nConnection: close\r\n\r\n".toList]

/-- The text of the redirect. -/
def redirectText (token : UInt64) : Str :=
  (formatPieces redirectLiterals [decimal token.toNat]).flatten

/-- The redirect that `complete_login` builds. -/
def loginRedirect (token : UInt64) : HString 256 :=
  HString.empty.writeFmt (formatPieces redirectLiterals [decimal token.toNat])

/-! ### Everything fits -/

/-- The digits of a 64-bit number. -/
theorem byteLen_decimal_uint64_le (v : UInt64) : byteLen (decimal v.toNat) ≤ 20 :=
  byteLen_decimal_le (by decide) (v.toNat_lt.trans (by decide))

theorem Snapshot.byteLen_args_le (s : Snapshot) (up : UInt64) :
    byteLen (s.args up).flatten ≤ 25 := by
  have hflag : ∀ b : Bool, byteLen (decimal b.toNat) = 1 := by decide
  have hup := byteLen_decimal_uint64_le up
  simp only [args, List.flatten_cons, List.flatten_nil, byteLen_append, byteLen_nil, hflag]
  omega

theorem Snapshot.byteLen_eventText_le (s : Snapshot) (up : UInt64) :
    byteLen (s.eventText up) ≤ 128 := by
  have hpieces := byteLen_formatPieces_le eventLiterals (s.args up)
  have hargs := s.byteLen_args_le up
  have hliterals : byteLen eventLiterals.flatten = 56 := by decide
  rw [eventText]
  omega

theorem Snapshot.byteLen_stateText_le (s : Snapshot) (up : UInt64) (ip : Ipv4)
    (reset : ResetReason) : byteLen (s.stateText up ip reset) ≤ 160 := by
  have hpieces := byteLen_formatPieces_le stateLiterals (s.stateArgs up ip reset)
  have hargs := s.byteLen_args_le up
  have hip := (fmtIpv4 ip).fits
  have hreset := reset.byteLen_asStr_le
  have hliterals : byteLen stateLiterals.flatten = 65 := by decide
  rw [stateText]
  simp only [stateArgs, List.flatten_append, List.flatten_cons, List.flatten_nil, byteLen_append,
    byteLen_nil] at hpieces ⊢
  omega

theorem byteLen_redirectText_le (token : UInt64) : byteLen (redirectText token) ≤ 256 := by
  have hpieces := byteLen_formatPieces_le redirectLiterals [decimal token.toNat]
  have htoken := byteLen_decimal_uint64_le token
  have hliterals : byteLen redirectLiterals.flatten = 133 := by decide +kernel
  rw [redirectText]
  simp only [List.flatten_cons, List.flatten_nil, byteLen_append, byteLen_nil] at hpieces ⊢
  omega

/-- An event is whole. -/
theorem Snapshot.chars_writeEvent (s : Snapshot) (up : UInt64) :
    (s.writeEvent up (HString.empty : HString 128)).chars = s.eventText up :=
  HString.chars_writeFmt (s.byteLen_eventText_le up)

/-- A status is whole. -/
theorem Snapshot.chars_stateBody (s : Snapshot) (up : UInt64) (ip : Ipv4) (reset : ResetReason) :
    (s.stateBody up ip reset).chars = s.stateText up ip reset :=
  HString.chars_writeFmt (s.byteLen_stateText_le up ip reset)

/-- The redirect is whole. -/
theorem chars_loginRedirect (token : UInt64) :
    (loginRedirect token).chars = redirectText token :=
  HString.chars_writeFmt (byteLen_redirectText_le token)

/-! ### What a page reads -/

/-- A flag of an object. -/
def readFlag (o : JsonObject) (key : Str) : Option Bool :=
  match o.lookup key with
  | some (.number 0) => some false
  | some (.number 1) => some true
  | _ => none

/-- A 64-bit number of an object. -/
def readNumber64 (o : JsonObject) (key : Str) : Option UInt64 :=
  match o.lookup key with
  | some (.number n) => if n < 2 ^ 64 then some (UInt64.ofNat n) else none
  | _ => none

/-- A text of an object. -/
def readText (o : JsonObject) (key : Str) : Option Str :=
  match o.lookup key with
  | some (.string s) => some s
  | _ => none

/-- The sampled values of an object, and the uptime second. -/
def readSnapshot (o : JsonObject) : Option (Snapshot × UInt64) := do
  let relay ← readFlag o "relay".toList
  let led1 ← readFlag o "led1".toList
  let led2 ← readFlag o "led2".toList
  let link ← readFlag o "link".toList
  let mqtt ← readFlag o "mqtt".toList
  let up ← readNumber64 o "up".toList
  some (⟨relay, led1, led2, link, mqtt⟩, up)

/-- **What a page reads from a stream.** -/
def readEvents (s : Str) : List (Snapshot × UInt64) :=
  (eventData s).filterMap fun data => (readObject data).bind readSnapshot

/-- **What a page reads from a status.** -/
def readState (s : Str) : Option ((Snapshot × UInt64) × Ipv4 × ResetReason) := do
  let o ← readObject s
  let values ← readSnapshot o
  let ip ← (readText o "ip".toList).bind parseIpv4
  let reset ← (readText o "rst".toList).bind ResetReason.ofStr
  some (values, ip, reset)

namespace Snapshot

/-- The members that an event and a status have in common. -/
def members (s : Snapshot) (up : UInt64) : JsonObject :=
  [("relay".toList, .number s.relay.toNat), ("led1".toList, .number s.led1.toNat),
    ("led2".toList, .number s.led2.toNat), ("link".toList, .number s.link.toNat),
    ("mqtt".toList, .number s.mqtt.toNat), ("up".toList, .number up.toNat)]

/-- The members of a status. -/
def stateMembers (s : Snapshot) (up : UInt64) (ip : Ipv4) (reset : ResetReason) : JsonObject :=
  s.members up ++
    [("ip".toList, .string (fmtIpv4 ip).chars), ("rst".toList, .string reset.asStr)]

/-- An event is a block of a stream, with an object as its data. -/
theorem eventText_eq (s : Snapshot) (up : UInt64) :
    s.eventText up = (EventBlock.event (objectText (s.members up))).text := by
  simp [eventText, formatPieces, eventLiterals, args, members, objectText, memberText, quoted,
    JsonValue.text, EventBlock.text, List.intercalate_cons_cons]

/-- A status is an object. -/
theorem stateText_eq (s : Snapshot) (up : UInt64) (ip : Ipv4) (reset : ResetReason) :
    s.stateText up ip reset = objectText (s.stateMembers up ip reset) := by
  simp [stateText, formatPieces, stateLiterals, stateArgs, args, stateMembers, members, objectText,
    memberText, quoted, JsonValue.text, List.intercalate_cons_cons]

end Snapshot

theorem readFlag_of_lookup {o : JsonObject} {key : Str} {b : Bool}
    (h : o.lookup key = some (.number b.toNat)) : readFlag o key = some b := by
  rw [readFlag, h]
  cases b <;> rfl

theorem readNumber64_of_lookup {o : JsonObject} {key : Str} {v : UInt64}
    (h : o.lookup key = some (.number v.toNat)) : readNumber64 o key = some v := by
  rw [readNumber64, h]
  dsimp only
  rw [if_pos v.toNat_lt, UInt64.ofNat_toNat]

/-- The sampled values are read back from an object that begins with them. -/
theorem readSnapshot_members_append (s : Snapshot) (up : UInt64) (o : JsonObject) :
    readSnapshot (s.members up ++ o) = some (s, up) := by
  have hrelay := readFlag_of_lookup (rfl : (s.members up ++ o).lookup "relay".toList = _)
  have hled1 := readFlag_of_lookup (rfl : (s.members up ++ o).lookup "led1".toList = _)
  have hled2 := readFlag_of_lookup (rfl : (s.members up ++ o).lookup "led2".toList = _)
  have hlink := readFlag_of_lookup (rfl : (s.members up ++ o).lookup "link".toList = _)
  have hmqtt := readFlag_of_lookup (rfl : (s.members up ++ o).lookup "mqtt".toList = _)
  have hup := readNumber64_of_lookup (rfl : (s.members up ++ o).lookup "up".toList = _)
  simp only [readSnapshot, hrelay, hled1, hled2, hlink, hmqtt, hup, Option.bind_eq_bind,
    Option.bind_some]

theorem plain_fmtIpv4 (ip : Ipv4) : Plain (fmtIpv4 ip).chars :=
  (numeric_fmtIpv4 ip).forall (by decide) (by decide)

namespace Snapshot

theorem plain_members (s : Snapshot) (up : UInt64) :
    ∀ m ∈ s.members up, Plain m.1 ∧ m.2.Plain := by
  have hkeys : ∀ key ∈ (s.members up).map Prod.fst, Plain key := by
    simp only [members, List.map_cons, List.map_nil]
    decide
  intro m hm
  refine ⟨hkeys m.1 (List.mem_map_of_mem hm), ?_⟩
  simp only [members, List.mem_cons, List.not_mem_nil, or_false] at hm
  rcases hm with rfl | rfl | rfl | rfl | rfl | rfl <;> trivial

theorem plain_stateMembers (s : Snapshot) (up : UInt64) (ip : Ipv4) (reset : ResetReason) :
    ∀ m ∈ s.stateMembers up ip reset, Plain m.1 ∧ m.2.Plain := by
  intro m hm
  rcases List.mem_append.mp hm with hm | hm
  · exact s.plain_members up m hm
  simp only [List.mem_cons, List.not_mem_nil, or_false] at hm
  rcases hm with rfl | rfl
  · exact ⟨(by decide : Plain "ip".toList), plain_fmtIpv4 ip⟩
  · exact ⟨(by decide : Plain "rst".toList), reset.plain_asStr⟩

/-- An event is one block of one line. -/
theorem oneLine_event (s : Snapshot) (up : UInt64) :
    (EventBlock.event (objectText (s.members up))).OneLine := by
  have hfield : "data: ".toList.all (fun c => decide (0x20 ≤ c.toNat)) = true := by decide
  have hline : ∀ c ∈ (EventBlock.event (objectText (s.members up))).line, 0x20 ≤ c.toNat := by
    intro c hc
    rcases List.mem_append.mp hc with hc | hc
    · exact of_decide_eq_true (List.all_eq_true.mp hfield c hc)
    · exact printable_of_mem_objectText (s.plain_members up) hc
  constructor
  · exact fun hnewline => absurd (hline '\n' hnewline) (by decide)
  · exact fun hcr => absurd (hline '\r' hcr) (by decide)

/-- **An event is read back**, whatever follows it. -/
theorem readEvents_eventText_append (s : Snapshot) (up : UInt64) (rest : Str) :
    readEvents (s.eventText up ++ rest) = (s, up) :: readEvents rest := by
  have hobject : (readObject (objectText (s.members up))).bind readSnapshot = some (s, up) := by
    rw [readObject_objectText (s.plain_members up), Option.bind_some,
      ← List.append_nil (s.members up), readSnapshot_members_append]
  rw [readEvents, eventText_eq, eventData_text_append (s.oneLine_event up)]
  exact List.filterMap_cons_some hobject

/-- **A status is read back.** -/
theorem readState_stateText (s : Snapshot) (up : UInt64) (ip : Ipv4) (reset : ResetReason) :
    readState (s.stateText up ip reset) = some ((s, up), ip, reset) := by
  have hobject := readObject_objectText (s.plain_stateMembers up ip reset)
  have hip : readText (s.stateMembers up ip reset) "ip".toList = some (fmtIpv4 ip).chars := rfl
  have hreset : readText (s.stateMembers up ip reset) "rst".toList = some reset.asStr := rfl
  have hvalues : readSnapshot (s.stateMembers up ip reset) = some (s, up) :=
    readSnapshot_members_append s up _
  simp only [readState, stateText_eq, hobject, hip, hreset, hvalues, parseIpv4_fmtIpv4,
    ResetReason.ofStr_asStr, Option.bind_eq_bind, Option.bind_some]

end Snapshot

/-! ### The cookie of a session -/

/-- The name and the value of a session cookie. -/
def sessionPair (token : UInt64) : Str := sessionCookieName ++ '=' :: decimal token.toNat

/-- **What a browser takes from a response**: the first piece of its first `Set-Cookie` line. -/
def issuedPair (response : Str) : Option Str := do
  let header ← (lines response).findSome? (stripPrefix "Set-Cookie:".toList)
  (header.splitOn ';').head?.map trim

/-- The value of a cookie header; `none` when the line is no cookie header. -/
def cookieHeader (line : Str) : Option Str :=
  (splitAtByte line (byteLen cookiePrefix)).bind fun p =>
    if eqIgnoreAsciiCase p.1 cookiePrefix then some (trim p.2) else none

/-- The value of the first cookie header of a request. -/
def firstCookie (req : Str) : Option Str := (lines req).findSome? cookieHeader

theorem isWhitespace_of_mem_sessionPair {token : UInt64} {c : Char} (h : c ∈ sessionPair token) :
    isWhitespace c = false := by
  have hname : (sessionCookieName ++ ['=']).all (fun d => !isWhitespace d) = true := by decide
  have hdigits : ∀ d ∈ decimal token.toNat, isWhitespace d = false :=
    (numeric_decimal token.toNat).forall (by decide) (by decide)
  rw [sessionPair, ← List.singleton_append, ← List.append_assoc] at h
  rcases List.mem_append.mp h with h | h
  · rw [← Bool.not_eq_true']
    exact List.all_eq_true.mp hname c h
  · exact hdigits c h

theorem semicolon_notMem_sessionPair (token : UInt64) : ';' ∉ sessionPair token := by
  have hname : ';' ∉ sessionCookieName ++ ['='] := by decide
  rw [sessionPair, ← List.singleton_append, ← List.append_assoc, List.mem_append, not_or]
  refine ⟨hname, fun hmem => ?_⟩
  exact absurd (digit_of_mem_decimal hmem).2 (by decide)

/-- The attributes of the cookie. -/
def cookieAttributes : Str := " Path=/; Max-Age=1800; HttpOnly; SameSite=Strict".toList

/-- What the redirect says of the cookie. -/
def issuedHeader (token : UInt64) : Str := ' ' :: (sessionPair token ++ ';' :: cookieAttributes)

/-- The first two lines of the redirect. -/
theorem redirectText_eq (token : UInt64) :
    ∃ rest, redirectText token = "HTTP/1.1 303 See Other".toList ++ '\r' :: '\n' ::
      (("Set-Cookie:".toList ++ issuedHeader token) ++ '\r' :: '\n' :: rest) := by
  have hbefore : "HTTP/1.1 303 See Other\r\nSet-Cookie: jzf_session=".toList =
      "HTTP/1.1 303 See Other".toList ++ '\r' :: '\n' ::
        ("Set-Cookie:".toList ++ ' ' :: (sessionCookieName ++ ['='])) := by
    decide +kernel
  have hafter : "; Path=/; Max-Age=1800; HttpOnly; SameSite=Strict\r\n".toList =
      ';' :: (cookieAttributes ++ ['\r', '\n']) := by
    decide +kernel
  refine ⟨"Location: /\r\nConnection: close\r\n\r\n".toList, ?_⟩
  simp only [redirectText, redirectLiterals, formatPieces, hbefore, hafter, issuedHeader,
    sessionPair, List.flatten_cons, List.flatten_nil, List.append_nil, List.append_assoc,
    List.cons_append, List.nil_append]

/-- **The redirect issues the cookie of the token.** -/
theorem issuedPair_redirectText (token : UInt64) :
    issuedPair (redirectText token) = some (sessionPair token) := by
  have hpair : '\n' ∉ sessionPair token := fun hmem =>
    absurd (isWhitespace_of_mem_sessionPair hmem) (by decide)
  have hline : '\n' ∉ "Set-Cookie:".toList ++ issuedHeader token := by
    simp only [issuedHeader, List.mem_append, List.mem_cons, not_or]
    exact ⟨by decide, by decide, hpair, by decide, by decide⟩
  have hpieces : (issuedHeader token).splitOn ';' =
      (' ' :: sessionPair token) :: cookieAttributes.splitOn ';' := by
    have hpiece : ';' ∉ ' ' :: sessionPair token := by simp [semicolon_notMem_sessionPair]
    rw [issuedHeader, ← List.cons_append]
    exact List.splitOn_append_cons_self_of_not_mem hpiece _
  have htrim : trim (' ' :: sessionPair token) = sessionPair token :=
    trim_of_forall fun _ => isWhitespace_of_mem_sessionPair
  have hstatus : stripPrefix "Set-Cookie:".toList "HTTP/1.1 303 See Other".toList = none := rfl
  obtain ⟨rest, htext⟩ := redirectText_eq token
  have hheader : (lines (redirectText token)).findSome? (stripPrefix "Set-Cookie:".toList) =
      some (issuedHeader token) := by
    rw [htext, lines_append_crlf (by decide), lines_append_crlf hline, List.findSome?_cons,
      hstatus]
    dsimp only
    rw [List.findSome?_cons, stripPrefix_append]
  simp only [issuedPair, hheader, hpieces, htrim, Option.bind_eq_bind, Option.bind_some,
    List.head?_cons, Option.map_some]

/-- The value of the cookie of a token. -/
theorem cookieValue_sessionPair (token : UInt64) :
    cookieValue sessionCookieName (sessionPair token) = some (asBytes (decimal token.toNat)) := by
  have htrim : trim (sessionPair token) = sessionPair token :=
    trim_of_forall fun _ => isWhitespace_of_mem_sessionPair
  have hrest : trimStart ('=' :: decimal token.toNat) = '=' :: decimal token.toNat := rfl
  have hequals : stripPrefix ['='] ('=' :: decimal token.toNat) = some (decimal token.toNat) :=
    stripPrefix_append ['='] _
  have hvalue : trim (decimal token.toNat) = decimal token.toNat := (numeric_decimal _).trim
  rw [cookieValue, htrim, sessionPair]
  simp only [stripPrefix_append, hrest, hequals, hvalue, Option.bind_eq_bind, Option.bind_some]

/-- The scan of a cookie header with the cookie of a token. -/
theorem lineCookie_of_cookieHeader {line : Str} {token : UInt64}
    (h : cookieHeader line = some (sessionPair token)) :
    lineCookie sessionCookieName line = .ok (some (asBytes (decimal token.toNat))) := by
  obtain ⟨⟨head, rest⟩, hcut, hvalue⟩ := Option.bind_eq_some_iff.mp h
  obtain ⟨rfl, hlen⟩ := splitAtByte_eq_some_iff.mp hcut
  have hpieces : (sessionPair token).splitOn ';' = [sessionPair token] :=
    List.splitOn_eq_singleton (semicolon_notMem_sessionPair token)
  dsimp only at hvalue
  split at hvalue
  · next hcookie =>
    have hpair : trim rest = sessionPair token := Option.some.inj hvalue
    rw [lineCookie_append hlen, hcookie, hpair, hpieces, List.findSome?_cons,
      cookieValue_sessionPair]
    rfl
  · cases hvalue

/-- The scan passes over an ASCII line that is no cookie header. -/
theorem lineCookie_of_not_cookieHeader {line name : Str} (hascii : Ascii line)
    (h : cookieHeader line = none) : lineCookie name line = .ok none := by
  by_cases hshort : byteLen line < byteLen cookiePrefix
  · rw [lineCookie, if_pos hshort]
  · obtain ⟨head, rest, rfl, hlen⟩ : ∃ head rest, line = head ++ rest ∧
        byteLen head = byteLen cookiePrefix := by
      refine ⟨_, _, (List.take_append_drop (byteLen cookiePrefix) line).symm, ?_⟩
      rw [byteLen_of_ascii fun c hc => hascii.utf8Size hc] at hshort
      rw [byteLen_of_ascii fun c hc => hascii.utf8Size (List.mem_of_mem_take hc),
        List.length_take]
      omega
    have hcut := splitAtByte_eq_some_iff.mpr ⟨(rfl : head ++ rest = head ++ rest), hlen⟩
    rw [cookieHeader, hcut, Option.bind_some] at h
    rw [lineCookie_append hlen]
    split at h
    · cases h
    · next hother => rw [if_pos (by simpa using hother)]

/-- **A request with the cookie of a token** is scanned for the digits of the token. -/
theorem extractCookie_of_firstCookie {req : Str} {token : UInt64}
    (hascii : Ascii req) (h : firstCookie req = some (sessionPair token)) :
    extractCookie req sessionCookieName = .ok (some (asBytes (decimal token.toNat))) := by
  obtain ⟨pre, line, post, hlines, hcookie, hothers⟩ := List.findSome?_eq_some_iff.mp h
  have hline := lineCookie_of_cookieHeader hcookie
  have hpre : ∀ other ∈ pre, ¬ Decides sessionCookieName other := by
    intro other hother hdecides
    have hmem : other ∈ lines req := hlines ▸ List.mem_append_left _ hother
    exact decides_iff.mp hdecides (lineCookie_of_not_cookieHeader
      (fun c hc => hascii c (mem_of_mem_lines hmem hc)) (hothers other hother))
  have hdecides : Decides sessionCookieName line := decides_iff.mpr (by simp [hline])
  rw [extractCookie, hlines, scanLines_append_of_not_decides hpre,
    scanLines_cons_of_decides hdecides, hline]

/-- Such a request presents the token. -/
theorem presentedToken_of_firstCookie {req : Str} {token : UInt64}
    (hascii : Ascii req) (h : firstCookie req = some (sessionPair token)) :
    presentedToken req = some token := by
  rw [presentedToken, extractCookie_of_firstCookie hascii h]
  dsimp only
  rw [cookieToken, Option.bind_some, fromUtf8_asBytes, Option.bind_some, parseU64_decimal]

/-- **The cookie of a login is accepted**: a request that sends back what the redirect issued is
let in until the idle limit is over, unless the minted token is zero. -/
theorem validateSession_of_login {pool : Pool} {st : WebState} {t : Readings} {token : UInt64}
    {req : Str} {now : ℕ} (refresh : Bool)
    (h : (completeLogin pool st t).1 = .loginRedirect token) (hne : token ≠ 0)
    (hascii : Ascii req) (hcookie : firstCookie req = issuedPair (loginRedirect token).chars)
    (hcreated : t.created < 2 ^ 32) (hnow : now ≤ t.created + sessionTtlSecs) :
    (validateSession (completeLogin pool st t).2 req refresh now).map Prod.fst = .ok true := by
  rw [chars_loginRedirect, issuedPair_redirectText] at hcookie
  have hextract := extractCookie_of_firstCookie hascii hcookie
  have hpresented := presentedToken_of_firstCookie hascii hcookie
  have htoken : (completeLogin pool st t).2.token = token := by
    rw [completeLogin] at h ⊢
    rw [WebState.token_storeCreated, WebState.token_storeToken]
    exact Reply.loginRedirect.inj h
  have hidle : (completeLogin pool st t).2.created.toNat = t.created :=
    WebState.toNat_created_storeCreated _ hcreated
  have haccepted : (checkToken (completeLogin pool st t).2 (presentedToken req) refresh now).1 =
      true := by
    rw [checkToken_fst_eq_true_iff, htoken, hidle, hpresented]
    exact ⟨hne, rfl, by omega⟩
  rw [validateSession_of_extract hextract, Except.map, haccepted]

/-! ### The texts and their readers -/

/-- **Every text is whole, and it is read back**, for any sampled values, uptime second, address,
reset reason and token. An event fits 128 bytes, a status 160 and the redirect 256. A page reads
the written values from an event and from a status. A browser takes the cookie of the token from the
redirect, and an ASCII request whose first cookie header is that cookie presents the token. -/
theorem texts_spec :
    (∀ (s : Snapshot) (up : UInt64),
      byteLen (s.eventText up) ≤ 128 ∧
      (s.writeEvent up (HString.empty : HString 128)).chars = s.eventText up ∧
      readEvents (s.eventText up) = [(s, up)]) ∧
    (∀ (s : Snapshot) (up : UInt64) (ip : Ipv4) (reset : ResetReason),
      byteLen (s.stateText up ip reset) ≤ 160 ∧
      (s.stateBody up ip reset).chars = s.stateText up ip reset ∧
      readState (s.stateText up ip reset) = some ((s, up), ip, reset)) ∧
    ∀ token : UInt64,
      byteLen (redirectText token) ≤ 256 ∧
      (loginRedirect token).chars = redirectText token ∧
      issuedPair (redirectText token) = some (sessionPair token) ∧
      ∀ req : Str, Ascii req → firstCookie req = some (sessionPair token) →
        extractCookie req sessionCookieName = .ok (some (asBytes (decimal token.toNat))) ∧
        presentedToken req = some token := by
  refine ⟨fun s up => ⟨s.byteLen_eventText_le up, s.chars_writeEvent up, ?_⟩,
    fun s up ip reset => ⟨s.byteLen_stateText_le up ip reset, s.chars_stateBody up ip reset,
      s.readState_stateText up ip reset⟩,
    fun token => ⟨byteLen_redirectText_le token, chars_loginRedirect token,
      issuedPair_redirectText token, fun req hascii hcookie => ?_⟩⟩
  · have hevent := s.readEvents_eventText_append up []
    rwa [List.append_nil] at hevent
  · exact ⟨extractCookie_of_firstCookie hascii hcookie,
      presentedToken_of_firstCookie hascii hcookie⟩

/-- A request with the cookie of the largest token. -/
theorem texts_spec_max :
    let req := ("GET / HTTP/1.1\r\nHost: 192.168.1.50\r\n" ++
      "cookie: jzf_session=18446744073709551615\r\n\r\n").toList
    extractCookie req sessionCookieName = .ok (some (asBytes "18446744073709551615".toList)) ∧
      presentedToken req = some 18446744073709551615 :=
  (texts_spec.2.2 18446744073709551615).2.2.2 _ (by decide +kernel) (by decide +kernel)

/-! ### A whole stream -/

/-- The text of a write of a stream, an event with the uptime second. -/
def StreamWrite.text (up : UInt64) : StreamWrite → Str
  | .event s => (s.writeEvent up (HString.empty : HString 128)).chars
  | .keepalive => ": keepalive\n\n".toList

/-- What some writes put on the socket after the head, each at its uptime second. -/
def streamText (ws : List (StreamWrite × UInt64)) : Str := ws.flatMap fun w => w.1.text w.2

theorem streamText_cons (w : StreamWrite) (up : UInt64) (ws : List (StreamWrite × UInt64)) :
    streamText ((w, up) :: ws) = w.text up ++ streamText ws := rfl

/-- **A stream is read back**: a page gets its events in order, and no keep-alive. -/
theorem readEvents_streamText (ws : List (StreamWrite × UInt64)) :
    readEvents (streamText ws) = ws.filterMap fun w => w.1.pushed.map fun s => (s, w.2) := by
  induction ws with
  | nil => rfl
  | cons w ws ih =>
    obtain ⟨w, up⟩ := w
    cases w with
    | event s =>
      have htext : (StreamWrite.event s).text up = s.eventText up := s.chars_writeEvent up
      rw [streamText_cons, htext, Snapshot.readEvents_eventText_append, ih]
      rfl
    | keepalive =>
      have hcomment : (EventBlock.comment "keepalive".toList).OneLine := by
        constructor <;> decide
      have hskip : eventData (streamText ((.keepalive, up) :: ws)) = eventData (streamText ws) :=
        eventData_text_append hcomment (streamText ws)
      rw [readEvents, hskip]
      exact ih

/-- **What a page sees of a stream**: from the end of its head on, in a run in which none of its
writes fails, the bytes of its writes read as its first snapshot and the changes in the samples
taken for it, whatever the uptime seconds and whatever the other socket does. -/
theorem readEvents_of_run {b : Boot} {k : Socket} {s t u : StreamNet} {l : List StreamEvent}
    {first : Snapshot} (h : s.step b (.headWritten k true first) = some t)
    (hrun : (streamSystem b).Run t l u) (hok : .written k false ∉ l)
    {ws : List (StreamWrite × UInt64)}
    (hws : ws.map Prod.fst = StreamNet.sentOn b k s (.headWritten k true first :: l)) :
    (readEvents (streamText ws)).map Prod.fst =
      first :: changes first (l.filterMap (sampleOn k)) := by
  obtain ⟨written, polls, hpolls, hsent⟩ := StreamNet.sentOn_eq_serveEvents h hrun hok
  have hpushed : (readEvents (streamText ws)).map Prod.fst =
      (ws.map Prod.fst).filterMap StreamWrite.pushed := by
    rw [readEvents_streamText, List.map_filterMap, List.filterMap_map]
    congr 1
    funext w
    exact (Option.map_map ..).trans Option.map_id'
  have hfirst : (StreamWrite.event first).pushed = some first := rfl
  rw [hpushed, hws, hsent, List.filterMap_cons_some hfirst, List.filterMap_filterMap, ← hpolls,
    ← pushed_serveEvents first written polls, pushed]

end Jzf407
