import Jzf407.Logic.Auth
import Jzf407.Web.Form
import Jzf407.Web.Session

/-!
# Serving one connection

`serveConnection` reads once from its socket and hands what it read to `serveRequest`: the
text is decoded and its first line parsed, the session checked, and the request either
answered by the login code or routed. Nothing is awaited between the session check and the
last access to the atomics, so a request is one step on `WebState`.

The clock is read at five places of that step. `Readings` are these readings in the order of
a clock that never goes back. `Pool` is what was fixed when the pool of the socket started: the
configuration, whether it asks for a login, the token to compare with, and the seed of the sessions.

* The functions of the source, in their order: `loginIsLocked`, `loginCredentialsMatch`,
  `completeLogin`, `rejectLogin`, `handleLogin`, `showLoginForm`, `handleUnauthenticated`,
  `authenticateRequest`, `logOut`, `saveAndReboot`, `routeAuthenticated`.
* What is sent is left to other modules; here a request has a `Reply`, and an accepted one a
  `Route`.

The model keeps the panics. The functions of the login and of the router always return
(`handleLogin_eq`, `routeAuthenticated_eq`), and the rest is described without them: `admission` is
the check of the session, and a request that returns has one of the outcomes of `Served`
(`served_of_serveRequest`), which is all that is used of a request later.

`serveRequest_returns_iff` says exactly which requests return: those that are no text, those that
read no cookie (`ReadsCookie`), and those whose lines can all be cut after seven bytes, up to the
line that has the cookie.
-/

namespace Jzf407

open Foundation

/-! ### Pools, readings and replies -/

/-- What a pool fixes for all its connections. -/
structure Pool where
  cfg : NetworkConfig
  authRequired : Bool
  expectedToken : Str
  tokenSeed : UInt64

/-- Whether a configuration asks for a login. -/
def authRequired (cfg : NetworkConfig) : Bool := !cfg.webUser.isEmpty || !cfg.webPass.isEmpty

/-- The pool that starts at second `now` under a configuration. -/
def Pool.start (cfg : NetworkConfig) (now : ℕ) : Pool where
  cfg := cfg
  authRequired := Jzf407.authRequired cfg
  expectedToken := (basicToken cfg.webUser.chars cfg.webPass.chars).chars
  tokenSeed := UInt64.ofNat now * 0x9E3779B97F4A7C15

/-- The uptime seconds read while one request is served: by the session check, on entering
the login, when a token is minted, when its age is stored, and when a failure is stored. -/
structure Readings where
  validate : ℕ
  login : ℕ
  mint : ℕ
  created : ℕ
  failed : ℕ
  validate_le_login : validate ≤ login
  login_le_mint : login ≤ mint
  mint_le_created : mint ≤ created
  login_le_failed : login ≤ failed

/-- The latest of the readings. -/
def Readings.latest (t : Readings) : ℕ := max t.created t.failed

/-- All readings in one second. -/
def Readings.at (now : ℕ) : Readings :=
  ⟨now, now, now, now, now, le_rfl, le_rfl, le_rfl, le_rfl⟩

theorem Readings.login_le_latest (t : Readings) : t.login ≤ t.latest :=
  t.login_le_failed.trans (le_max_right _ _)

theorem Readings.validate_le_latest (t : Readings) : t.validate ≤ t.latest :=
  t.validate_le_login.trans t.login_le_latest

theorem Readings.created_le_latest (t : Readings) : t.created ≤ t.latest := le_max_left _ _

theorem Readings.failed_le_latest (t : Readings) : t.failed ≤ t.latest := le_max_right _ _

/-- Where an accepted request goes. A `/save` carries the configuration that is handed to
the EEPROM, `none` when the body is missing or refused. -/
inductive Route
  | dashboard
  | eventStream
  | redirectHome
  | state
  | logOut
  | reboot
  | save (stored : Option NetworkConfig)
  | notFound
  deriving DecidableEq

/-- The answer to a request: undecodable text, the five answers of the login code, or what
the router does. -/
inductive Reply
  | badRequest
  | lockedForm
  | rejectedForm (locked : Bool)
  | loginRedirect (token : UInt64)
  | unauthorizedEvents
  | loginForm (expireCookie : Bool)
  | routed (route : Route)
  deriving DecidableEq

/-! ### The login -/

def loginMaxFails : UInt32 := 5
def loginLockoutSecs : ℕ := 60

/-- Whether logins are locked out. -/
def loginIsLocked (now : ℕ) (fails : UInt32) (lastFail : ℕ) : Bool :=
  fails ≥ loginMaxFails && decide (now - lastFail < loginLockoutSecs)

/-- Whether the submitted credentials are the configured ones. -/
def loginCredentialsMatch (request : ParsedRequest) (expectedToken : Str) :
    Except Panic Bool := do
  match ← request.body with
  | none => .ok false
  | some body =>
    match parseLoginForm body with
    | (some user, some pass) => .ok ((basicToken user.chars pass.chars).chars == expectedToken)
    | _ => .ok false

/-- A successful login: the counter is cleared and a new session minted. -/
def completeLogin (pool : Pool) (st : WebState) (t : Readings) : Reply × WebState :=
  let st := { st with failCount := 0 }
  let newToken := mintSessionToken (pool.tokenSeed + UInt64.ofNat t.mint)
  (.loginRedirect newToken, (st.storeToken newToken).storeCreated t.created)

/-- A failed login: it is counted and its second stored. -/
def rejectLogin (st : WebState) (t : Readings) : Reply × WebState :=
  -- the answer is delayed by two seconds, but the atomics are written before the delay
  let newFails := st.failCount + 1
  (.rejectedForm (newFails ≥ loginMaxFails),
    { st with failCount := newFails, failLast := UInt32.ofNat t.failed })

/-- A `POST /login`. -/
def handleLogin (pool : Pool) (st : WebState) (t : Readings) (request : ParsedRequest) :
    Except Panic (Reply × WebState) :=
  if loginIsLocked t.login st.failCount st.failLast.toNat then .ok (.lockedForm, st)
  else do
    -- a full counter that is no longer locked starts again
    let st := if st.failCount ≥ loginMaxFails then { st with failCount := 0 } else st
    if ← loginCredentialsMatch request pool.expectedToken then .ok (completeLogin pool st t)
    else .ok (rejectLogin st t)

/-- The login page; a request with a session cookie is told to drop it. -/
def showLoginForm (req : Str) : Except Panic Reply := do
  let cookie ← extractCookie req sessionCookieName
  .ok (.loginForm cookie.isSome)

namespace ParsedRequest

/-- Whether the request has this method and path. -/
def is (request : ParsedRequest) (method path : String) : Bool :=
  request.method == method.toList && request.path == path.toList

end ParsedRequest

/-- A request without a valid session. -/
def handleUnauthenticated (pool : Pool) (st : WebState) (t : Readings)
    (request : ParsedRequest) : Except Panic (Reply × WebState) :=
  if request.is "POST" "/login" then handleLogin pool st t request
  -- an event stream gets a bare 401, so that the page falls back to polling
  else if request.path = "/events".toList then .ok (.unauthorizedEvents, st)
  else do
    let reply ← showLoginForm request.raw
    .ok (reply, st)

/-- Check the session. The reply is `none` when the request may be routed, and otherwise the
answer that was given in its place. -/
def authenticateRequest (pool : Pool) (st : WebState) (t : Readings)
    (request : ParsedRequest) : Except Panic (Option Reply × WebState) :=
  if !pool.authRequired then .ok (none, st)
  else do
    let (valid, st) ← validateSession st request.raw request.refreshesSession t.validate
    if valid then .ok (none, st)
    else do
      let (reply, st) ← handleUnauthenticated pool st t request
      .ok (some reply, st)

/-! ### The router -/

/-- Log out: the session is dropped. -/
def logOut (st : WebState) : WebState := { st.clearToken with created := 0 }

/-- The configuration that a `/save` stores, `none` when it is answered as a bad request. -/
def saveAndReboot (cfg : NetworkConfig) (request : ParsedRequest) :
    Except Panic (Option NetworkConfig) := do
  match ← request.body with
  | none => .ok none
  | some body => .ok (parseForm body cfg)

/-- Route an accepted request. -/
def routeAuthenticated (cfg : NetworkConfig) (st : WebState) (request : ParsedRequest) :
    Except Panic (Route × WebState) :=
  if request.is "GET" "/" then .ok (.dashboard, st)
  else if request.is "GET" "/events" then .ok (.eventStream, st)
  else if request.is "GET" "/login" then .ok (.redirectHome, st)
  else if request.is "GET" "/state" then .ok (.state, st)
  else if request.is "POST" "/logout" then .ok (.logOut, logOut st)
  else if request.is "POST" "/reboot" then .ok (.reboot, st)
  else if request.is "POST" "/save" then do
    let stored ← saveAndReboot cfg request
    .ok (.save stored, st)
  else .ok (.notFound, st)

/-! ### One request, one connection -/

/-- **Serve the bytes of one read.** -/
def serveRequest (pool : Pool) (st : WebState) (t : Readings) (buf : List UInt8) :
    Except Panic (Reply × WebState) :=
  match fromUtf8 buf with
  | none => .ok (.badRequest, st)
  | some req => do
    let request := ParsedRequest.new req
    match ← authenticateRequest pool st t request with
    | (some reply, st) => .ok (reply, st)
    | (none, st) => do
      let (route, st) ← routeAuthenticated pool.cfg st request
      .ok (.routed route, st)

/-- The length of the request buffer. -/
def reqBufLen : ℕ := 1536

/-- **Serve a connection** whose successive reads would return `reads`: the first one is
served, and no other is taken. -/
def serveConnection (pool : Pool) (st : WebState) (t : Readings) (reads : List (List UInt8)) :
    Except Panic (Option Reply × WebState) :=
  match reads with
  | [] => .ok (none, st)
  | buf :: _ =>
    -- whatever length the request announces, the later reads are never taken
    if buf.isEmpty then .ok (none, st)
    else do
      let (reply, st) ← serveRequest pool st t buf
      .ok (some reply, st)

/-! ### What the steps compute

Only the cookie scan can panic. Once it has returned, a request is a total function of the
atomics, the readings and the text. -/

namespace ParsedRequest

/-- The body that `body` returns. -/
def bodyText (request : ParsedRequest) : Option Str :=
  match request.body with
  | .ok b => b
  | .error _ => none

theorem body_eq_ok (request : ParsedRequest) : request.body = .ok request.bodyText := by
  obtain ⟨b, hb⟩ := request.body_isOk
  rw [bodyText, hb]

end ParsedRequest

/-- The verdict on the submitted credentials. -/
def credentialsMatch (request : ParsedRequest) (expectedToken : Str) : Bool :=
  match request.bodyText with
  | none => false
  | some body =>
    match parseLoginForm body with
    | (some user, some pass) => (basicToken user.chars pass.chars).chars == expectedToken
    | _ => false

theorem loginCredentialsMatch_eq (request : ParsedRequest) (expectedToken : Str) :
    loginCredentialsMatch request expectedToken =
      .ok (credentialsMatch request expectedToken) := by
  unfold loginCredentialsMatch credentialsMatch
  rw [request.body_eq_ok]
  simp only [bind, Except.bind]
  cases request.bodyText with
  | none => rfl
  | some body =>
    dsimp only
    generalize parseLoginForm body = form
    rcases form with ⟨_ | user, _ | pass⟩ <;> rfl

/-- The atomics after an expired lock has been lifted. -/
def liftLock (st : WebState) : WebState :=
  if st.failCount ≥ loginMaxFails then { st with failCount := 0 } else st

/-- The outcome of a `POST /login`. -/
def loginAttempt (pool : Pool) (st : WebState) (t : Readings) (request : ParsedRequest) :
    Reply × WebState :=
  if loginIsLocked t.login st.failCount st.failLast.toNat then (.lockedForm, st)
  else if credentialsMatch request pool.expectedToken then completeLogin pool (liftLock st) t
  else rejectLogin (liftLock st) t

/-- **A login attempt always returns.** -/
theorem handleLogin_eq (pool : Pool) (st : WebState) (t : Readings) (request : ParsedRequest) :
    handleLogin pool st t request = .ok (loginAttempt pool st t request) := by
  unfold handleLogin loginAttempt liftLock
  rw [loginCredentialsMatch_eq]
  by_cases hlock : loginIsLocked t.login st.failCount st.failLast.toNat = true
  · rw [if_pos hlock, if_pos hlock]
  · rw [if_neg hlock, if_neg hlock]
    cases hmatch : credentialsMatch request pool.expectedToken <;> rfl

/-- What a login attempt does: it is refused under a lock, and else it lifts an expired lock, and
its credentials decide. -/
theorem loginAttempt_cases {pool : Pool} {st st' : WebState} {t : Readings}
    {request : ParsedRequest} {reply : Reply} (h : (reply, st') = loginAttempt pool st t request) :
    (loginIsLocked t.login st.failCount st.failLast.toNat = true ∧ reply = .lockedForm ∧
      st' = st) ∨
    (loginIsLocked t.login st.failCount st.failLast.toNat = false ∧
      ((credentialsMatch request pool.expectedToken = true ∧
        reply = .loginRedirect (mintSessionToken (pool.tokenSeed + UInt64.ofNat t.mint)) ∧
        st' = (completeLogin pool (liftLock st) t).2) ∨
      (credentialsMatch request pool.expectedToken = false ∧
        (∃ locked, reply = .rejectedForm locked) ∧
        st' = (rejectLogin (liftLock st) t).2))) := by
  unfold loginAttempt at h
  split at h
  · next hlock =>
    obtain ⟨hreply, hst⟩ := Prod.mk.inj h
    exact .inl ⟨hlock, hreply, hst⟩
  next hopen =>
  refine .inr ⟨Bool.eq_false_iff.mpr hopen, ?_⟩
  split at h
  · next hmatch => exact .inl ⟨hmatch, congrArg Prod.fst h, congrArg Prod.snd h⟩
  · next hmatch =>
    exact .inr ⟨Bool.eq_false_iff.mpr hmatch, ⟨_, congrArg Prod.fst h⟩, congrArg Prod.snd h⟩

/-- A login attempt is never routed. -/
theorem not_routed_of_loginAttempt {pool : Pool} {st st' : WebState} {t : Readings}
    {request : ParsedRequest} {route : Route} :
    (.routed route, st') ≠ loginAttempt pool st t request := by
  intro h
  obtain ⟨-, hreply, -⟩ | ⟨-, ⟨-, hreply, -⟩ | ⟨-, ⟨locked, hreply⟩, -⟩⟩ := loginAttempt_cases h
  · cases hreply
  · cases hreply
  · cases hreply

/-- Where the router sends a request. -/
def routeOf (cfg : NetworkConfig) (request : ParsedRequest) : Route :=
  if request.is "GET" "/" then .dashboard
  else if request.is "GET" "/events" then .eventStream
  else if request.is "GET" "/login" then .redirectHome
  else if request.is "GET" "/state" then .state
  else if request.is "POST" "/logout" then .logOut
  else if request.is "POST" "/reboot" then .reboot
  else if request.is "POST" "/save" then
    .save (request.bodyText.bind fun body => parseForm body cfg)
  else .notFound

/-- The atomics after routing: only a log-out changes them. -/
def afterRoute (cfg : NetworkConfig) (st : WebState) (request : ParsedRequest) : WebState :=
  if routeOf cfg request = .logOut then logOut st else st

/-- **Routing always returns.** -/
theorem routeAuthenticated_eq (cfg : NetworkConfig) (st : WebState) (request : ParsedRequest) :
    routeAuthenticated cfg st request = .ok (routeOf cfg request, afterRoute cfg st request) := by
  have hsave : saveAndReboot cfg request =
      .ok (request.bodyText.bind fun body => parseForm body cfg) := by
    unfold saveAndReboot
    rw [request.body_eq_ok]
    cases request.bodyText <;> rfl
  unfold routeAuthenticated afterRoute routeOf
  rw [hsave]
  repeat' split
  all_goals first | rfl | simp_all

/-- Whether a request is admitted to the router, and the atomics after the check. -/
def admission (pool : Pool) (st : WebState) (t : Readings) (req : Str) : Bool × WebState :=
  if pool.authRequired then
    checkToken st (presentedToken req) (ParsedRequest.new req).refreshesSession t.validate
  else (true, st)

/-- An authentication that returns either admits the request, or answers it unauthenticated
in the atomics the check left. -/
theorem authenticateRequest_cases {pool : Pool} {st : WebState} {t : Readings} {req : Str}
    {answer : Option Reply} {st' : WebState}
    (h : authenticateRequest pool st t (ParsedRequest.new req) = .ok (answer, st')) :
    (answer = none ∧ admission pool st t req = (true, st')) ∨
      ∃ reply, answer = some reply ∧ (admission pool st t req).1 = false ∧
        handleUnauthenticated pool (admission pool st t req).2 t (ParsedRequest.new req) =
          .ok (reply, st') := by
  unfold authenticateRequest at h
  cases hauth : pool.authRequired with
  | false =>
    rw [hauth] at h
    obtain ⟨rfl, rfl⟩ : none = answer ∧ st = st' := by simpa using h
    exact .inl ⟨rfl, by simp [admission, hauth]⟩
  | true =>
    rw [hauth] at h
    obtain ⟨⟨valid, st₁⟩, hval, h⟩ := bind_eq_ok_iff.mp h
    have hadm : admission pool st t req = (valid, st₁) := by
      rw [admission, if_pos hauth]
      exact (eq_checkToken_of_validateSession hval).symm
    rw [hadm]
    cases valid with
    | true =>
      obtain ⟨rfl, rfl⟩ : none = answer ∧ st₁ = st' := by simpa using h
      exact .inl ⟨rfl, rfl⟩
    | false =>
      obtain ⟨⟨reply, st₂⟩, hun, h⟩ := bind_eq_ok_iff.mp h
      obtain ⟨rfl, rfl⟩ : some reply = answer ∧ st₂ = st' := by simpa using h
      exact .inr ⟨reply, rfl, rfl, hun⟩

/-- An unauthenticated request is a login attempt, or leaves the atomics as they are. -/
theorem handleUnauthenticated_cases {pool : Pool} {st st' : WebState} {t : Readings}
    {request : ParsedRequest} {reply : Reply}
    (h : handleUnauthenticated pool st t request = .ok (reply, st')) :
    (request.is "POST" "/login" = true ∧ (reply, st') = loginAttempt pool st t request) ∨
      (st' = st ∧ (reply = .unauthorizedEvents ∨ ∃ expire, reply = .loginForm expire)) := by
  unfold handleUnauthenticated at h
  split at h
  · next hlogin =>
    rw [handleLogin_eq] at h
    exact .inl ⟨hlogin, (Except.ok.inj h).symm⟩
  · split at h
    · obtain ⟨rfl, rfl⟩ : .unauthorizedEvents = reply ∧ st = st' := by simpa using h
      exact .inr ⟨rfl, .inl rfl⟩
    · obtain ⟨shown, hform, h⟩ := bind_eq_ok_iff.mp h
      obtain ⟨rfl, rfl⟩ : shown = reply ∧ st = st' := by simpa using h
      obtain ⟨cookie, -, hshown⟩ := bind_eq_ok_iff.mp hform
      exact .inr ⟨rfl, .inr ⟨cookie.isSome, (Except.ok.inj hshown).symm⟩⟩

/-- **The outcomes of a request**, as reply and atomics. -/
inductive Served (pool : Pool) (st : WebState) (t : Readings) (buf : List UInt8)
    (reply : Reply) (st' : WebState) : Prop
  | undecodable (hbuf : fromUtf8 buf = none) (hreply : reply = .badRequest) (hst : st' = st)
  | accepted {req : Str} (hbuf : fromUtf8 buf = some req) {st₁ : WebState}
      (hadmitted : admission pool st t req = (true, st₁))
      (hreply : reply = .routed (routeOf pool.cfg (ParsedRequest.new req)))
      (hst : st' = afterRoute pool.cfg st₁ (ParsedRequest.new req))
  | loginPost {req : Str} (hbuf : fromUtf8 buf = some req) {st₁ : WebState}
      (hadmitted : admission pool st t req = (false, st₁))
      (hlogin : (ParsedRequest.new req).is "POST" "/login" = true)
      (hattempt : (reply, st') = loginAttempt pool st₁ t (ParsedRequest.new req))
  | turnedAway {req : Str} (hbuf : fromUtf8 buf = some req) {st₁ : WebState}
      (hadmitted : admission pool st t req = (false, st₁))
      (hreply : reply = .unauthorizedEvents ∨ ∃ expire, reply = .loginForm expire)
      (hst : st' = st₁)

/-- **Every request that returns has one of these outcomes.** -/
theorem served_of_serveRequest {pool : Pool} {st st' : WebState} {t : Readings}
    {buf : List UInt8} {reply : Reply} (h : serveRequest pool st t buf = .ok (reply, st')) :
    Served pool st t buf reply st' := by
  unfold serveRequest at h
  cases hbuf : fromUtf8 buf with
  | none =>
    rw [hbuf] at h
    obtain ⟨hreply, hst⟩ := Prod.mk.inj (Except.ok.inj h)
    exact .undecodable hbuf hreply.symm hst.symm
  | some req =>
    rw [hbuf] at h
    obtain ⟨⟨answer, st₁⟩, hauth, hrest⟩ := bind_eq_ok_iff.mp h
    obtain ⟨rfl, hadmitted⟩ | ⟨answered, rfl, hnot, hun⟩ := authenticateRequest_cases hauth
    · obtain ⟨⟨route, st₂⟩, hroute, hrest⟩ := bind_eq_ok_iff.mp hrest
      rw [routeAuthenticated_eq] at hroute
      obtain ⟨rfl, rfl⟩ := Prod.mk.inj (Except.ok.inj hroute)
      obtain ⟨hreply, hst⟩ := Prod.mk.inj (Except.ok.inj hrest)
      exact .accepted hbuf hadmitted hreply.symm hst.symm
    · have hadmitted : admission pool st t req = (false, (admission pool st t req).2) := by
        rw [← hnot]
      obtain ⟨rfl, rfl⟩ := Prod.mk.inj (Except.ok.inj hrest)
      obtain ⟨hlogin, hattempt⟩ | ⟨hst, hreply⟩ := handleUnauthenticated_cases hun
      · exact .loginPost hbuf hadmitted hlogin hattempt
      · exact .turnedAway hbuf hadmitted hreply hst

/-- **An admitted request is routed**, whatever it asks for. -/
theorem serveRequest_of_admission {pool : Pool} {st st₁ : WebState} {t : Readings}
    {buf : List UInt8} {req : Str} (hbuf : fromUtf8 buf = some req)
    (hadmitted : admission pool st t req = (true, st₁)) :
    serveRequest pool st t buf = .ok (.routed (routeOf pool.cfg (ParsedRequest.new req)),
      afterRoute pool.cfg st₁ (ParsedRequest.new req)) := by
  have hauth : authenticateRequest pool st t (ParsedRequest.new req) = .ok (none, st₁) := by
    unfold authenticateRequest
    cases hreq : pool.authRequired with
    | false =>
      obtain rfl : st = st₁ := by simpa [admission, hreq] using hadmitted
      rfl
    | true =>
      rw [admission, if_pos hreq] at hadmitted
      have hvalid := checkToken_fst_eq_true_iff.mp (congrArg Prod.fst hadmitted)
      obtain ⟨v, hv⟩ := exists_extract_of_presentedToken hvalid.2.1
      rw [ParsedRequest.raw_new, validateSession_of_extract hv, hadmitted]
      rfl
  rw [serveRequest, hbuf]
  simp only [hauth, bind, Except.bind, routeAuthenticated_eq]

/-! ### When a request returns -/

/-- Whether serving a request reads its cookie header: always when there is a session to
compare with, and otherwise only to choose the status of the login page. -/
def ReadsCookie (pool : Pool) (st : WebState) (request : ParsedRequest) : Prop :=
  pool.authRequired = true ∧
    (st.token ≠ 0 ∨
      request.is "POST" "/login" = false ∧ request.path ≠ "/events".toList)

theorem authenticateRequest_isOk_iff (pool : Pool) (st : WebState) (t : Readings) (req : Str) :
    (∃ r, authenticateRequest pool st t (ParsedRequest.new req) = .ok r) ↔
      (ReadsCookie pool st (ParsedRequest.new req) → ScanSafe sessionCookieName (lines req)) := by
  unfold authenticateRequest ReadsCookie
  cases hauth : pool.authRequired with
  | false => simp
  | true =>
    have hval := validateSession_isOk_iff st req (ParsedRequest.new req).refreshesSession t.validate
    simp only [Bool.not_true, Bool.false_eq_true, if_false, true_and, ParsedRequest.raw_new]
    constructor
    · rintro ⟨r, hr⟩ (htoken | ⟨hlogin, hevents⟩)
      · obtain ⟨v, hv, -⟩ := bind_eq_ok_iff.mp hr
        exact hval.mp ⟨v, hv⟩ htoken
      · by_cases htoken : st.token = 0
        · -- nothing is accepted without a session, so the login page scans the cookies
          have hno : validateSession st req (ParsedRequest.new req).refreshesSession t.validate =
              .ok (false, st) := by rw [validateSession, if_pos htoken]
          rw [hno] at hr
          obtain ⟨⟨reply, st₁⟩, hv, -⟩ := bind_eq_ok_iff.mp
            (show (handleUnauthenticated pool st t (ParsedRequest.new req) >>= _) = _ from hr)
          rw [handleUnauthenticated, if_neg (by simp [hlogin]), if_neg hevents] at hv
          obtain ⟨shown, hshown, -⟩ := bind_eq_ok_iff.mp hv
          obtain ⟨cookie, hcookie, -⟩ := bind_eq_ok_iff.mp hshown
          exact (extractCookie_isOk_iff _ _).mp ⟨cookie, hcookie⟩
        · obtain ⟨v, hv, -⟩ := bind_eq_ok_iff.mp hr
          exact hval.mp ⟨v, hv⟩ htoken
    · -- the session check reads the cookie when a token is stored, the login page in any case
      intro hsafe
      obtain ⟨⟨valid, st₁⟩, hv⟩ := hval.mpr fun htoken => hsafe (.inl htoken)
      rw [hv]
      cases valid with
      | true => exact ⟨(none, st₁), rfl⟩
      | false =>
        -- turned away: only the page for the login form reads the cookie once more
        have hun : ∃ r, handleUnauthenticated pool st₁ t (ParsedRequest.new req) = .ok r := by
          unfold handleUnauthenticated
          split
          · exact ⟨_, handleLogin_eq ..⟩
          · split
            · exact ⟨_, rfl⟩
            · next hlogin hevents =>
              obtain ⟨c, hc⟩ := (extractCookie_isOk_iff req sessionCookieName).mpr
                (hsafe (.inr ⟨by simpa using hlogin, hevents⟩))
              exact ⟨(.loginForm c.isSome, st₁), by
                rw [showLoginForm, ParsedRequest.raw_new, hc]; rfl⟩
        obtain ⟨⟨reply, st₂⟩, hr⟩ := hun
        exact ⟨(some reply, st₂), by simp only [bind, Except.bind]; rw [hr]; rfl⟩

/-- **When a request returns**: exactly when it is not decodable, or reads no cookie, or
every line its cookie scan reads is shorter than seven bytes or has a character boundary at
byte seven. -/
theorem serveRequest_returns_iff (pool : Pool) (st : WebState) (t : Readings)
    (buf : List UInt8) :
    (∃ r, serveRequest pool st t buf = .ok r) ↔
      ∀ req, fromUtf8 buf = some req → ReadsCookie pool st (ParsedRequest.new req) →
        ScanSafe sessionCookieName (lines req) := by
  unfold serveRequest
  cases fromUtf8 buf with
  | none => simp
  | some req =>
    simp only [Option.some.injEq, forall_eq']
    rw [← authenticateRequest_isOk_iff pool st t req]
    constructor
    · rintro ⟨r, hr⟩
      obtain ⟨a, ha, -⟩ := bind_eq_ok_iff.mp hr
      exact ⟨a, ha⟩
    · rintro ⟨⟨_ | reply, st₁⟩, ha⟩
      · simp only [ha, bind, Except.bind, routeAuthenticated_eq]
        exact ⟨_, rfl⟩
      · exact ⟨(reply, st₁), by rw [ha]; rfl⟩

/-- A configuration that asks for the login `admin` with the password `secret`. -/
def adminConfig : NetworkConfig := { NetworkConfig.default with
  webUser := ⟨"admin".toList, by decide⟩, webPass := ⟨"secret".toList, by decide⟩ }

/-- A header line with a two-byte character across byte seven, sent before any login to a
device that asks for one, stops the server. -/
theorem serveRequest_panics :
    ¬ ∀ (cfg : NetworkConfig) (start : ℕ) (st : WebState) (t : Readings) (buf : List UInt8),
      1 ≤ buf.length → buf.length ≤ reqBufLen → (fromUtf8 buf).isSome →
        ∃ r, serveRequest (Pool.start cfg start) st t buf = .ok r := by
  intro h
  let req : Str := "GET / HTTP/1.1\r\nabcdefé: 1\r\n\r\n".toList
  obtain ⟨r, hr⟩ := h adminConfig 0 WebState.boot (Readings.at 1) (asBytes req) (by decide)
    (by decide) (by simp)
  rw [serveRequest, fromUtf8_asBytes] at hr
  obtain ⟨a, ha, -⟩ := bind_eq_ok_iff.mp hr
  have hsafe := (authenticateRequest_isOk_iff ..).mp ⟨a, ha⟩
    ⟨rfl, .inr ⟨by decide, by decide⟩⟩
  have hline := hsafe ["GET / HTTP/1.1".toList] "abcdefé: 1".toList [[]] (by decide)
    (by decide)
  revert hline
  decide

end Jzf407
