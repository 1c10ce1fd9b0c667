import Jzf407.Foundation.Lease
import Jzf407.Web.Run

/-!
# The session over runs

The three session atomics implement one lease with an idle limit of 900 seconds
(`session_simulation`): the stored token is the token of the lease, zero standing for none,
and the stored second is the time of its last use (`WebState.session`). A login that succeeds grants
a lease, a log-out releases it, and every other request is checked against it; what a request is to
the lease is its `WebRequest.visit`.

Under the simulation is what one request does to the atomics (`SessionStep`): it replaces the
session, drops it, uses it and perhaps renews it, drops it because it is presented too late, or
leaves it alone. Nothing bounds the clock there; the stored second is a 32-bit word, and only
`session_of_sessionStep` asks that the readings fit it. That these five are all is
`sessionStep_of_served`, which goes through the outcomes of a request.

`session_refines_lease` is the result over runs. Besides the simulation it says what grants and
releases are in terms of requests (`exists_of_loginRedirect`, `exists_of_logOut`), which requests
are routed (`routed_iff`), and that a background poll extends nothing (`session_of_poll`). These are
read off the atomics in any state, so they hold of a request that comes next as well.
-/

namespace Jzf407

open Foundation

/-- The lease of a token; the token zero is none. -/
def leaseOf (token : UInt64) (last : ℕ) : Option (Lease.Holder UInt64) :=
  if token = 0 then none else some ⟨token, last⟩

/-- **The session that the atomics represent.** -/
def WebState.session (st : WebState) : Option (Lease.Holder UInt64) :=
  leaseOf st.token st.created.toNat

/-- What a reply does to the session. -/
def Reply.action (t : Readings) : Reply → Lease.Action UInt64
  | .loginRedirect token => .grant (leaseOf token t.created)
  | .routed .logOut => .release
  | _ => .pass

theorem action_routed (t : Readings) (route : Route) :
    (Reply.routed route).action t = if route = .logOut then .release else .pass := by
  cases route <;> rfl

/-- Whether a reply comes from the router. -/
def Reply.isRouted : Reply → Bool
  | .routed _ => true
  | _ => false

/-- The visit that a request is to the session. -/
def WebRequest.visit (e : WebRequest) : Lease.Visit UInt64 where
  now := e.readings.validate
  presented := (fromUtf8 e.buf).bind presentedToken
  refreshes := ((fromUtf8 e.buf).map fun req => (ParsedRequest.new req).refreshesSession).getD false
  accepted := e.reply.isRouted
  action := e.reply.action e.readings

theorem WebRequest.action_visit (e : WebRequest) : e.visit.action = e.reply.action e.readings :=
  rfl

/-! ### The session behind the atomics -/

theorem session_eq_some_iff {st : WebState} {x : Lease.Holder UInt64} :
    st.session = some x ↔ st.token ≠ 0 ∧ x = ⟨st.token, st.created.toNat⟩ := by
  unfold WebState.session leaseOf
  split
  · next h => simp [h]
  · next h => simp [h, eq_comm]

theorem session_of_token_eq_zero {st : WebState} (h : st.token = 0) : st.session = none :=
  if_pos h

/-- The session is that of the token and the stored second. -/
theorem session_congr {st st' : WebState} (htoken : st'.token = st.token)
    (hcreated : st'.created = st.created) : st'.session = st.session := by
  rw [WebState.session, htoken, hcreated]
  rfl

@[simp]
theorem session_boot : WebState.boot.session = none := rfl

@[simp]
theorem session_logOut (st : WebState) : (logOut st).session = none := by
  rw [WebState.session, show (logOut st).token = st.clearToken.token from rfl,
    WebState.token_clearToken]
  rfl

@[simp]
theorem session_liftLock (st : WebState) : (liftLock st).session = st.session := by
  unfold liftLock
  split <;> rfl

@[simp]
theorem session_rejectLogin (st : WebState) (t : Readings) :
    (rejectLogin st t).2.session = st.session := rfl

theorem session_completeLogin (pool : Pool) (st : WebState) {t : Readings}
    (ht : t.latest < 2 ^ 32) :
    (completeLogin pool st t).2.session =
      leaseOf (mintSessionToken (pool.tokenSeed + UInt64.ofNat t.mint)) t.created := by
  rw [completeLogin, WebState.session,
    WebState.toNat_created_storeCreated _ (t.created_le_latest.trans_lt ht),
    WebState.token_storeCreated, WebState.token_storeToken]

/-! ### What a request does to the session -/

theorem admission_of_authRequired {pool : Pool} (hauth : pool.authRequired = true) (st : WebState)
    (t : Readings) (req : Str) :
    admission pool st t req =
      checkToken st (presentedToken req) (ParsedRequest.new req).refreshesSession t.validate :=
  if_pos hauth

/-- **What a request does to the stored session.** -/
inductive SessionStep (e : WebRequest) (st st' : WebState) : Prop
  | login {token : UInt64} (hreply : e.reply = .loginRedirect token) (htoken : st'.token = token)
      (hcreated : st'.created = UInt32.ofNat e.readings.created)
      (hdead : ¬ (st.token ≠ 0 ∧ e.visit.presented = some st.token ∧
        e.readings.validate - st.created.toNat ≤ sessionTtlSecs))
  | logOut (hreply : e.reply = .routed .logOut) (htoken : st'.token = 0)
      (hlive : st.token ≠ 0 ∧ e.visit.presented = some st.token ∧
        e.readings.validate - st.created.toNat ≤ sessionTtlSecs)
  | used {route : Route} (hreply : e.reply = .routed route) (hroute : route ≠ .logOut)
      (hstored : st.token ≠ 0) (hpresented : e.visit.presented = some st.token)
      (hidle : e.readings.validate - st.created.toNat ≤ sessionTtlSecs)
      (htoken : st'.token = st.token)
      (hcreated : st'.created =
        if e.visit.refreshes then UInt32.ofNat e.readings.validate else st.created)
  | expired (hrouted : e.reply.isRouted = false) (hlogin : e.loggedIn = false)
      (hpresented : e.visit.presented = some st.token)
      (hidle : sessionTtlSecs < e.readings.validate - st.created.toNat) (htoken : st'.token = 0)
  | untouched (hrouted : e.reply.isRouted = false) (hlogin : e.loggedIn = false)
      (hnot : ¬ (st.token ≠ 0 ∧ e.visit.presented = some st.token)) (htoken : st'.token = st.token)
      (hcreated : st'.created = st.created)

/-- The check that the admission of a request is. -/
theorem admission_eq {pool : Pool} (hauth : pool.authRequired = true) (st : WebState)
    {e : WebRequest} {req : Str} (hbuf : fromUtf8 e.buf = some req) :
    admission pool st e.readings req =
      checkToken st e.visit.presented e.visit.refreshes e.readings.validate := by
  rw [admission_of_authRequired hauth]
  simp only [WebRequest.visit, hbuf, Option.bind_some, Option.map_some, Option.getD_some]

/-- A check that fails drops the session when it comes too late, and otherwise leaves it. -/
theorem checkToken_of_false {st st₁ : WebState} {presented : Option UInt64} {refresh : Bool}
    {now : ℕ} (h : checkToken st presented refresh now = (false, st₁)) :
    (presented = some st.token ∧ sessionTtlSecs < now - st.created.toNat ∧
        st₁ = st.clearToken) ∨
      (¬ (st.token ≠ 0 ∧ presented = some st.token) ∧ st₁ = st) := by
  unfold checkToken at h
  split at h
  · next hlive =>
    split at h
    · next hlate => exact .inl ⟨hlive.2, hlate, (Prod.mk.inj h).2.symm⟩
    · exact absurd (Prod.mk.inj h).1 (by decide)
  · next hnot => exact .inr ⟨hnot, (Prod.mk.inj h).2.symm⟩

/-- An admission that fails leaves one of the two cases without a routed request. -/
private theorem sessionStep_of_check {e : WebRequest} {st st₁ st' : WebState}
    (hcheck : checkToken st e.visit.presented e.visit.refreshes e.readings.validate = (false, st₁))
    (hrouted : e.reply.isRouted = false) (hlogin : e.loggedIn = false)
    (htoken : st'.token = st₁.token) (hcreated : st'.created = st₁.created) :
    SessionStep e st st' := by
  obtain ⟨hpresented, hlate, rfl⟩ | ⟨hnot, rfl⟩ := checkToken_of_false hcheck
  · exact .expired hrouted hlogin hpresented hlate (htoken.trans st.token_clearToken)
  · exact .untouched hrouted hlogin hnot htoken hcreated

@[simp]
theorem token_liftLock (st : WebState) : (liftLock st).token = st.token := by
  unfold liftLock
  split <;> rfl

@[simp]
theorem created_liftLock (st : WebState) : (liftLock st).created = st.created := by
  unfold liftLock
  split <;> rfl

/-- **Every request that is served does one of these things.** -/
theorem sessionStep_of_served {pool : Pool} (hauth : pool.authRequired = true) {e : WebRequest}
    {st st' : WebState} (h : Served pool st e.readings e.buf e.reply st') :
    SessionStep e st st' := by
  cases h with
  | undecodable hbuf hreply hst =>
    refine .untouched (by rw [hreply]; rfl) (by rw [WebRequest.loggedIn, hreply]) ?_ ?_ ?_
    · simp [WebRequest.visit, hbuf]
    · rw [hst]
    · rw [hst]
  -- a request that is admitted presents the session, which it uses or ends
  | @accepted req hbuf st₁ hadmitted hreply hst =>
    rw [admission_eq hauth st hbuf] at hadmitted
    obtain ⟨hstored, hpresented, hidle⟩ :=
      checkToken_fst_eq_true_iff.mp (congrArg Prod.fst hadmitted)
    by_cases hroute : routeOf pool.cfg (ParsedRequest.new req) = .logOut
    · rw [afterRoute, if_pos hroute] at hst
      rw [hroute] at hreply
      refine .logOut hreply ?_ ⟨hstored, hpresented, hidle⟩
      rw [hst]
      exact st₁.token_clearToken
    · rw [afterRoute, if_neg hroute] at hst
      rw [checkToken, if_pos ⟨hstored, hpresented⟩, if_neg (Nat.not_lt.mpr hidle)] at hadmitted
      have hst₁ : st₁ = if e.visit.refreshes then st.storeCreated e.readings.validate else st :=
        (Prod.mk.inj hadmitted).2.symm
      refine .used hreply hroute hstored hpresented hidle ?_ ?_
      · rw [hst, hst₁]
        split <;> rfl
      · rw [hst, hst₁]
        split <;> rfl
  -- a login follows an admission that has failed, and only one that passes replaces the session
  | @loginPost req hbuf st₁ hadmitted hlogin hattempt =>
    rw [admission_eq hauth st hbuf] at hadmitted
    obtain ⟨-, hreply, rfl⟩ | ⟨-, ⟨-, hreply, rfl⟩ | ⟨-, ⟨locked, hreply⟩, rfl⟩⟩ :=
      loginAttempt_cases hattempt
    · exact sessionStep_of_check hadmitted (by rw [hreply]; rfl)
        (by rw [WebRequest.loggedIn, hreply]) rfl rfl
    · refine .login hreply ?_ rfl fun hlive => ?_
      · rw [completeLogin, WebState.token_storeCreated, WebState.token_storeToken]
      · have hvalid := (congrArg Prod.fst hadmitted).symm.trans
          (checkToken_fst_eq_true_iff.mpr hlive)
        cases hvalid
    · exact sessionStep_of_check hadmitted (by rw [hreply]; rfl)
        (by rw [WebRequest.loggedIn, hreply]) (token_liftLock st₁) (created_liftLock st₁)
  | @turnedAway req hbuf st₁ hadmitted hreply hst =>
    rw [admission_eq hauth st hbuf] at hadmitted
    rcases hreply with hreply | ⟨expire, hreply⟩
    · exact sessionStep_of_check hadmitted (by rw [hreply]; rfl)
        (by rw [WebRequest.loggedIn, hreply]) (by rw [hst]) (by rw [hst])
    · exact sessionStep_of_check hadmitted (by rw [hreply]; rfl)
        (by rw [WebRequest.loggedIn, hreply]) (by rw [hst]) (by rw [hst])

/-- A reply of the login code that is no redirect leaves the session as it is. -/
theorem session_loginAttempt {pool : Pool} {st st' : WebState} {t : Readings}
    {request : ParsedRequest} {reply : Reply} (ht : t.latest < 2 ^ 32)
    (h : (reply, st') = loginAttempt pool st t request) :
    (reply.action t = .pass ∧ st'.session = st.session ∨
      ∃ token, reply = .loginRedirect token ∧ st'.session = leaseOf token t.created ∧
        credentialsMatch request pool.expectedToken = true ∧
        token = mintSessionToken (pool.tokenSeed + UInt64.ofNat t.mint)) ∧
      reply.isRouted = false := by
  obtain ⟨-, rfl, rfl⟩ | ⟨-, ⟨hmatch, rfl, rfl⟩ | ⟨-, ⟨locked, rfl⟩, rfl⟩⟩ := loginAttempt_cases h
  · exact ⟨.inl ⟨rfl, rfl⟩, rfl⟩
  · exact ⟨.inr ⟨_, rfl, session_completeLogin pool _ ht, hmatch, rfl⟩, rfl⟩
  · refine ⟨.inl ⟨rfl, ?_⟩, rfl⟩
    rw [session_rejectLogin, session_liftLock]

/-! ### The simulation -/

/-- A visit is live exactly when it presents the stored token in time. -/
theorem live_iff {st : WebState} {v : Lease.Visit UInt64} :
    Lease.Live sessionTtlSecs st.session v ↔
      st.token ≠ 0 ∧ v.presented = some st.token ∧
        v.now - st.created.toNat ≤ sessionTtlSecs := by
  constructor
  · rintro ⟨x, hx, hpresented, hlive⟩
    obtain ⟨htoken, rfl⟩ := session_eq_some_iff.mp hx
    exact ⟨htoken, hpresented, by dsimp only at hlive; omega⟩
  · rintro ⟨htoken, hpresented, hidle⟩
    exact ⟨_, session_eq_some_iff.mpr ⟨htoken, rfl⟩, hpresented, by dsimp only; omega⟩

/-- A request is routed exactly when it is live. -/
theorem isRouted_iff_live {e : WebRequest} {st st' : WebState} (h : SessionStep e st st') :
    e.reply.isRouted = true ↔ Lease.Live sessionTtlSecs st.session e.visit := by
  rw [live_iff]
  cases h with
  | login hreply _ _ hdead => exact iff_of_false (by simp [hreply, Reply.isRouted]) hdead
  | logOut hreply _ hlive => exact iff_of_true (by rw [hreply, Reply.isRouted]) hlive
  | used hreply _ hstored hpresented hidle =>
    exact iff_of_true (by rw [hreply, Reply.isRouted]) ⟨hstored, hpresented, hidle⟩
  | expired hrouted _ _ hidle =>
    exact iff_of_false (by simp [hrouted]) fun hlive => absurd hlive.2.2 (Nat.not_le.mpr hidle)
  | untouched hrouted _ hnot =>
    exact iff_of_false (by simp [hrouted]) fun hlive => hnot ⟨hlive.1, hlive.2.1⟩

/-- A request that is neither routed nor a login does nothing but be checked. -/
theorem action_of_not_routed {e : WebRequest} (hrouted : e.reply.isRouted = false)
    (hlogin : e.loggedIn = false) : e.visit.action = .pass := by
  rw [e.action_visit]
  unfold WebRequest.loggedIn at hlogin
  cases hreply : e.reply with
  | loginRedirect token => rw [hreply] at hlogin; cases hlogin
  | routed route => rw [hreply] at hrouted; cases hrouted
  | badRequest | lockedForm | rejectedForm | unauthorizedEvents | loginForm => rfl

/-- A routed request grants nothing. -/
theorem not_routed_of_grant {e : WebRequest} {holder : Option (Lease.Holder UInt64)}
    (h : e.visit.action = .grant holder) : e.reply.isRouted = false := by
  rw [e.action_visit] at h
  cases hreply : e.reply with
  | routed route =>
    rw [hreply, action_routed] at h
    split at h <;> cases h
  | loginRedirect | badRequest | lockedForm | rejectedForm | unauthorizedEvents | loginForm => rfl

/-- Only a routed request releases the session. -/
theorem routed_of_release {e : WebRequest} (h : e.visit.action = .release) :
    e.reply.isRouted = true := by
  rw [e.action_visit] at h
  cases hreply : e.reply with
  | routed route => rfl
  | loginRedirect | badRequest | lockedForm | rejectedForm | unauthorizedEvents | loginForm =>
    rw [hreply] at h
    cases h

/-- **The session after a request** is the lease after the visit. -/
theorem session_of_sessionStep {e : WebRequest} {st st' : WebState} (h : SessionStep e st st')
    (hclock : e.readings.latest < 2 ^ 32) :
    st'.session = Lease.next sessionTtlSecs st.session e.visit := by
  rw [Lease.next]
  cases h with
  -- the minted token and the second are stored as they are, since the clock fits the word
  | @login token hreply htoken hcreated =>
    have haction : e.visit.action = .grant (leaseOf token e.readings.created) := by
      rw [e.action_visit, hreply]
      rfl
    rw [haction, WebState.session, htoken, hcreated,
      UInt32.toNat_ofNat_of_lt' (e.readings.created_le_latest.trans_lt hclock)]
  | logOut hreply htoken =>
    have haction : e.visit.action = .release := by
      rw [e.action_visit, hreply]
      rfl
    rw [haction, session_of_token_eq_zero htoken]
  | used hreply hroute hstored hpresented hidle htoken hcreated =>
    have haction : e.visit.action = .pass := by
      rw [e.action_visit, hreply, action_routed, if_neg hroute]
    have hlive : e.visit.now ≤ st.created.toNat + sessionTtlSecs := Nat.sub_le_iff_le_add'.mp hidle
    have hafter : st'.token ≠ 0 := by rwa [htoken]
    rw [haction, session_eq_some_iff.mpr ⟨hstored, rfl⟩]
    change st'.session = Lease.check sessionTtlSecs (some _) e.visit
    rw [Lease.check_of_live hpresented hlive, session_eq_some_iff.mpr ⟨hafter, rfl⟩, htoken,
      hcreated]
    cases e.visit.refreshes with
    | true =>
      rw [if_pos rfl, if_pos rfl,
        UInt32.toNat_ofNat_of_lt' (e.readings.validate_le_latest.trans_lt hclock)]
      rfl
    | false => rfl
  -- without a session the check does nothing, and the comparison with zero nothing either
  | expired hrouted hlogin hpresented hidle htoken =>
    rw [action_of_not_routed hrouted hlogin, session_of_token_eq_zero htoken]
    change none = Lease.check sessionTtlSecs st.session e.visit
    by_cases hstored : st.token = 0
    · rw [session_of_token_eq_zero hstored]
      rfl
    · have hlate : st.created.toNat + sessionTtlSecs < e.visit.now :=
        Nat.add_lt_of_lt_sub' hidle
      rw [session_eq_some_iff.mpr ⟨hstored, rfl⟩, Lease.check_of_late hpresented hlate]
  | untouched hrouted hlogin hnot htoken hcreated =>
    rw [action_of_not_routed hrouted hlogin, session_congr htoken hcreated]
    refine (Lease.check_of_ne fun x hx hpresented => ?_).symm
    obtain ⟨hstored, rfl⟩ := session_eq_some_iff.mp hx
    exact hnot ⟨hstored, hpresented⟩

/-- **The server refines the lease**: with a login required, every request is a visit. -/
theorem session_simulation (b : Boot) (hauth : authRequired b.cfg = true) :
    (webSystem b).Simulation (Lease.system sessionTtlSecs) (fun s => s.atomics.session)
      fun e => some e.visit where
  init s hs := by
    change s.atomics.session = none
    rw [show s.atomics = WebState.boot from hs]
    rfl
  step s e s' hstep := by
    have hstepped := sessionStep_of_served (by rw [Boot.authRequired_pool, hauth])
      (served_of_step hstep)
    exact ⟨isRouted_iff_live hstepped, fun _ => not_routed_of_grant, routed_of_release,
      session_of_sessionStep hstepped hstep.2.1⟩

/-! ### Over runs -/

/-- A redirect answers a `POST /login` whose credentials match, and carries the token minted
for it. -/
theorem exists_of_loginRedirect {pool : Pool} {st st' : WebState} {t : Readings}
    {buf : List UInt8} {token : UInt64} (ht : t.latest < 2 ^ 32)
    (h : Served pool st t buf (.loginRedirect token) st') :
    ∃ req, fromUtf8 buf = some req ∧ (ParsedRequest.new req).is "POST" "/login" = true ∧
      credentialsMatch (ParsedRequest.new req) pool.expectedToken = true ∧
      token = mintSessionToken (pool.tokenSeed + UInt64.ofNat t.mint) := by
  cases h with
  | undecodable hbuf hreply hst => cases hreply
  | accepted hbuf hadmitted hreply hst => cases hreply
  | @loginPost req hbuf st₁ hadmitted hlogin hattempt =>
    obtain ⟨⟨hpass, -⟩ | ⟨token', hreply, -, hmatch, htoken⟩, -⟩ :=
      session_loginAttempt ht hattempt
    · cases hpass
    · rw [Reply.loginRedirect.inj hreply]
      exact ⟨req, hbuf, hlogin, hmatch, htoken⟩
  | turnedAway hbuf hadmitted hreply hst => simp at hreply

/-- A log-out answers a `POST /logout`. -/
theorem exists_of_logOut {pool : Pool} {st st' : WebState} {t : Readings} {buf : List UInt8}
    (h : Served pool st t buf (.routed .logOut) st') :
    ∃ req, fromUtf8 buf = some req ∧ (ParsedRequest.new req).is "POST" "/logout" = true := by
  cases h with
  | undecodable hbuf hreply hst => cases hreply
  | @accepted req hbuf st₁ hadmitted hreply hst =>
    refine ⟨req, hbuf, ?_⟩
    have hroute := (Reply.routed.inj hreply).symm
    unfold routeOf at hroute
    by_contra hno
    rw [if_neg hno] at hroute
    repeat' split at hroute
    all_goals cases hroute
  | loginPost hbuf hadmitted hlogin hattempt =>
    exact absurd hattempt not_routed_of_loginAttempt
  | turnedAway hbuf hadmitted hreply hst => simp at hreply

/-- **Which requests are routed**: those that present the token of the session within its
idle limit. -/
theorem routed_iff {pool : Pool} (hauth : pool.authRequired = true) (st : WebState)
    (t : Readings) (buf : List UInt8) :
    (∃ route st', serveRequest pool st t buf = .ok (.routed route, st')) ↔
      ∃ req x, fromUtf8 buf = some req ∧ st.session = some x ∧
        presentedToken req = some x.token ∧ t.validate ≤ x.last + sessionTtlSecs := by
  constructor
  · rintro ⟨route, st', hserve⟩
    cases served_of_serveRequest hserve with
    | undecodable hbuf hreply hst => cases hreply
    | @accepted req hbuf st₁ hadmitted hreply hst =>
      rw [admission_of_authRequired hauth] at hadmitted
      obtain ⟨htoken, hpresented, hidle⟩ :=
        checkToken_fst_eq_true_iff.mp (congrArg Prod.fst hadmitted)
      exact ⟨req, _, hbuf, session_eq_some_iff.mpr ⟨htoken, rfl⟩, hpresented, by
        dsimp only; omega⟩
    | loginPost hbuf hadmitted hlogin hattempt =>
      exact absurd hattempt not_routed_of_loginAttempt
    | turnedAway hbuf hadmitted hreply hst => simp at hreply
  · rintro ⟨req, x, hbuf, hx, hpresented, hlive⟩
    obtain ⟨htoken, rfl⟩ := session_eq_some_iff.mp hx
    have hvalid : (admission pool st t req).1 = true := by
      rw [admission_of_authRequired hauth]
      exact checkToken_fst_eq_true_iff.mpr ⟨htoken, hpresented, by dsimp only at hlive; omega⟩
    have hpair : admission pool st t req = (true, (admission pool st t req).2) := by rw [← hvalid]
    exact ⟨_, _, serveRequest_of_admission hbuf hpair⟩

/-- A background poll without activity never extends the session. -/
theorem session_of_poll {b : Boot} (hauth : authRequired b.cfg = true) {u v : Server}
    {e : WebRequest} {req : Str} (hstep : (webSystem b).step u e v)
    (hbuf : fromUtf8 e.buf = some req)
    (hpath : (ParsedRequest.new req).path = "/state".toList ∨
      (ParsedRequest.new req).path = "/events".toList)
    (hactive : contains "active=1".toList (ParsedRequest.new req).query = false)
    {x : Lease.Holder UInt64} (hx : v.atomics.session = some x) :
    u.atomics.session = some x := by
  have hpoll : (ParsedRequest.new req).refreshesSession = false := by
    rw [ParsedRequest.refreshesSession, hactive]
    obtain hpath | hpath := hpath <;> rw [hpath] <;> decide
  have hrefresh : e.visit.refreshes = false := by
    simp only [WebRequest.visit, hbuf, Option.map_some, Option.getD_some, hpoll]
  have hstored := (session_eq_some_iff.mp hx).1
  have hserved := served_of_step hstep
  cases sessionStep_of_served (by rw [Boot.authRequired_pool, hauth]) hserved with
  | login hreply =>
    -- a login is not a poll
    rw [hreply] at hserved
    obtain ⟨req', hbuf', hlogin, -⟩ := exists_of_loginRedirect hstep.2.1 hserved
    obtain rfl := Option.some.inj (hbuf.symm.trans hbuf')
    obtain ⟨-, hp⟩ : _ ∧ (ParsedRequest.new req).path = "/login".toList := by
      simpa [ParsedRequest.is] using hlogin
    rw [hp] at hpath
    exact absurd hpath (by decide)
  | logOut _ htoken => exact absurd htoken hstored
  | used _ _ _ _ _ htoken hcreated =>
    rw [hrefresh, if_neg Bool.false_ne_true] at hcreated
    exact (session_congr htoken hcreated).symm.trans hx
  | expired _ _ _ _ htoken => exact absurd htoken hstored
  | untouched _ _ _ htoken hcreated => exact (session_congr htoken hcreated).symm.trans hx

/-- **The session, over every run from boot with a login required.** The run is a run of the
lease. A redirect answers a login with matching credentials and carries the token minted for
it, and a release answers a log-out. A further request is routed iff it presents the token of
the session at most 900 seconds after its last use, whether it returns or not. A background
poll without activity never extends the session. -/
theorem session_refines_lease (b : Boot) (hauth : authRequired b.cfg = true) {s t : Server}
    {l : List WebRequest} (hinit : (webSystem b).init s) (hrun : (webSystem b).Run s l t) :
    (Lease.system 900).Run none (l.map WebRequest.visit) t.atomics.session ∧
    (∀ l₁ e l₂ token, l = l₁ ++ e :: l₂ → e.reply = .loginRedirect token →
      ∃ req, fromUtf8 e.buf = some req ∧ (ParsedRequest.new req).is "POST" "/login" = true ∧
        credentialsMatch (ParsedRequest.new req) (b.pool e.socket).expectedToken = true ∧
        token = mintSessionToken ((b.pool e.socket).tokenSeed + UInt64.ofNat e.readings.mint)) ∧
    (∀ l₁ e l₂, l = l₁ ++ e :: l₂ → e.reply = .routed .logOut →
      ∃ req, fromUtf8 e.buf = some req ∧ (ParsedRequest.new req).is "POST" "/logout" = true) ∧
    (∀ k r buf, (∃ route st', serveRequest (b.pool k) t.atomics r buf = .ok (.routed route, st')) ↔
      ∃ req x, fromUtf8 buf = some req ∧ t.atomics.session = some x ∧
        presentedToken req = some x.token ∧ r.validate ≤ x.last + 900) ∧
    (∀ e v req, (webSystem b).step t e v → fromUtf8 e.buf = some req →
      ((ParsedRequest.new req).path = "/state".toList ∨
        (ParsedRequest.new req).path = "/events".toList) →
      contains "active=1".toList (ParsedRequest.new req).query = false →
      ∀ x, v.atomics.session = some x → t.atomics.session = some x) := by
  have hserved : ∀ l₁ e l₂, l = l₁ ++ e :: l₂ → ∃ st st', e.readings.latest < 2 ^ 32 ∧
      Served (b.pool e.socket) st e.readings e.buf e.reply st' := by
    rintro l₁ e l₂ rfl
    obtain ⟨u, -, hrest⟩ := hrun.exists_of_append
    cases hrest with
    | @cons _ v _ _ _ hstep _ => exact ⟨u.atomics, v.atomics, hstep.2.1, served_of_step hstep⟩
  refine ⟨?_, ?_, ?_, ?_, ?_⟩
  · have hlease := (session_simulation b hauth).run hrun
    have hboot : s.atomics.session = none := by
      rw [show s.atomics = WebState.boot from hinit]
      rfl
    rwa [hboot, List.filterMap_eq_map'] at hlease
  · intro l₁ e l₂ token hl hreply
    obtain ⟨st, st', hclock, h⟩ := hserved l₁ e l₂ hl
    rw [hreply] at h
    exact exists_of_loginRedirect hclock h
  · intro l₁ e l₂ hl hreply
    obtain ⟨st, st', -, h⟩ := hserved l₁ e l₂ hl
    rw [hreply] at h
    exact exists_of_logOut h
  · intro k r buf
    exact routed_iff (by rw [Boot.authRequired_pool, hauth]) t.atomics r buf
  · intro e v req hstep hbuf hpath hactive x hx
    exact session_of_poll hauth hstep hbuf hpath hactive hx

/-- A login with the configured credentials in second 1. -/
def adminLogin : WebRequest where
  socket := .a
  readings := Readings.at 1
  buf := asBytes "POST /login HTTP/1.1\r\n\r\nuser=admin&pass=secret".toList
  reply := .loginRedirect 7806831264735756412

/-- The atomics after `adminLogin`. -/
def adminSession : WebState :=
  (WebState.boot.storeToken 7806831264735756412).storeCreated 1

/-- A request of the logged-in user, with the cookie of `adminLogin`. -/
def adminRequest (k : Socket) (now : ℕ) (line : String) (reply : Reply) : WebRequest where
  socket := k
  readings := Readings.at now
  buf := asBytes
    (line.toList ++ " HTTP/1.1\r\nCookie: jzf_session=7806831264735756412\r\n\r\n".toList)
  reply := reply

/-- The dashboard, opened in second 600, which renews the session. -/
def openDashboard : WebRequest := adminRequest .a 600 "GET /" (.routed .dashboard)

/-- A poll of the page in second 1400, which does not. -/
def pollState : WebRequest := adminRequest .b 1400 "GET /state" (.routed .state)

/-- The dashboard again, 901 seconds after its last opening. -/
def lateDashboard : WebRequest := adminRequest .a 1501 "GET /" (.loginForm true)

/-- The atomics after `openDashboard`. -/
def renewedSession : WebState := adminSession.storeCreated 600

/-- The session over a login, a navigation, a poll and its expiry. The poll leaves the lease as the
navigation renewed it; the request after the idle limit ends it, and from then on nothing is
routed. -/
theorem session_refines_lease_expiry :
    (Lease.system 900).Run none
      [adminLogin.visit, openDashboard.visit, pollState.visit, lateDashboard.visit] none ∧
    (∃ req, fromUtf8 adminLogin.buf = some req ∧
      (ParsedRequest.new req).is "POST" "/login" = true ∧
      credentialsMatch (ParsedRequest.new req) (adminBoot.pool .a).expectedToken = true ∧
      7806831264735756412 = mintSessionToken ((adminBoot.pool .a).tokenSeed + UInt64.ofNat 1)) ∧
    (∀ v x, (webSystem adminBoot).step ⟨renewedSession, 600⟩ pollState v →
      v.atomics.session = some x → x = ⟨7806831264735756412, 600⟩) ∧
    ∀ k r buf, ¬ ∃ route st',
      serveRequest (adminBoot.pool k) renewedSession.clearToken r buf =
        .ok (.routed route, st') := by
  have hin : (webSystem adminBoot).step ⟨WebState.boot, 0⟩ adminLogin ⟨adminSession, 1⟩ :=
    ⟨by decide, by decide, by decide +kernel, rfl⟩
  have hopen : (webSystem adminBoot).step ⟨adminSession, 1⟩ openDashboard ⟨renewedSession, 600⟩ :=
    ⟨by decide, by decide, by decide +kernel, rfl⟩
  have hpoll : (webSystem adminBoot).step ⟨renewedSession, 600⟩ pollState ⟨renewedSession, 1400⟩ :=
    ⟨by decide, by decide, by decide +kernel, rfl⟩
  have hlate : (webSystem adminBoot).step ⟨renewedSession, 1400⟩ lateDashboard
      ⟨renewedSession.clearToken, 1501⟩ :=
    ⟨by decide, by decide, by decide +kernel, rfl⟩
  obtain ⟨hlease, hredirect, -, hrouted, -⟩ := session_refines_lease adminBoot rfl
    (s := ⟨WebState.boot, 0⟩) rfl (.cons hin (.cons hopen (.cons hpoll (.cons hlate (.nil _)))))
  obtain ⟨-, -, -, -, hquiet⟩ := session_refines_lease adminBoot rfl
    (s := ⟨WebState.boot, 0⟩) rfl (.cons hin (.cons hopen (.nil _)))
  refine ⟨hlease, hredirect [] adminLogin _ _ rfl rfl, ?_, ?_⟩
  · intro v x hstep hx
    have hbefore := hquiet pollState v _ hstep (fromUtf8_asBytes _) (by decide) (by decide) x hx
    exact (Option.some.inj hbefore).symm
  · rintro k r buf hroute
    obtain ⟨req, x, -, hx, -⟩ := (hrouted k r buf).mp hroute
    cases hx

end Jzf407
