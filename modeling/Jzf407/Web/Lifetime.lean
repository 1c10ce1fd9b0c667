import Jzf407.Web.SessionRun

/-!
# Two lifetimes of one session

The server drops a session that no request has refreshed for 900 seconds, and every request of a
user who is active moves that limit. The browser drops the session cookie 1800 seconds after the
login (`sessionCookieMaxAge`), since the `Max-Age` of the one `Set-Cookie` that carries it is fixed
and no later answer sets it again.

`clientSystem` follows one client from its login on, among the requests of others (`ActiveClient`):
it makes a request that refreshes the session at least every 900 seconds, and returns its cookie
exactly as long as it is allowed to (`MayAsk`). It is accepted exactly until the cookie is dropped
(`kept_logged_in_iff`), whatever the others do short of a login, a log-out and a reset.

`InTime` is the condition, on the state before a request and its readings. Besides the cookie it has
two things that an exact condition must have: the minted token may be zero, which stands for no
session, and the second of a refresh may exceed the word that it is stored in. The invariant `Kept`
says what is stored as long as it is met; others may present the token too late and so drop the
session, but only when the client would be too late as well.

Logged in and active every 900 seconds, the client is shown the login form after 45 minutes
(`logged_out_while_active`).
-/

namespace Jzf407

open Foundation

/-- The `Max-Age` of the session cookie that a login sets, in seconds. -/
def sessionCookieMaxAge : ℕ := 1800

/-- A client that has logged in. `received` is the second in which its cookie arrived, `tried` the
second of its login or its last request that refreshes a session, and `refreshed` the second of
the last refresh of the session. -/
structure ActiveClient where
  server : Server
  token : UInt64
  received : ℕ
  tried : ℕ
  refreshed : ℕ

/-- A request that is served, of the client or of somebody else. -/
structure ClientRequest where
  own : Bool
  request : WebRequest

namespace ActiveClient

/-- The cookie that the client returns in a second. -/
def cookieAt (c : ActiveClient) (now : ℕ) : Option UInt64 :=
  if now ≤ c.received + sessionCookieMaxAge then some c.token else none

/-- The client makes a request as an active user: its cookie has arrived and is returned as long
as it may be, and its last refreshing request is at most 900 seconds old. -/
def MayAsk (c : ActiveClient) (e : WebRequest) : Prop :=
  c.received ≤ e.readings.validate ∧ e.readings.validate ≤ c.tried + sessionTtlSecs ∧
    e.visit.presented = c.cookieAt e.readings.validate

instance (c : ActiveClient) (e : WebRequest) : Decidable (c.MayAsk e) :=
  inferInstanceAs (Decidable (_ ∧ _ ∧ _))

end ActiveClient

/-- A login, a log-out, or a request that resets the device. -/
def Reply.endsSession : Reply → Bool
  | .loginRedirect _ => true
  | .routed .logOut => true
  | .routed .reboot => true
  | .routed (.save (some _)) => true
  | _ => false

/-- **One request after the login.** -/
def ActiveClient.step (b : Boot) (c : ActiveClient) (e : ClientRequest) : Option ActiveClient :=
  if c.server.clock ≤ e.request.readings.validate ∧ e.request.reply.endsSession = false ∧
      (e.own = true → c.MayAsk e.request) then
    match serveRequest (b.pool e.request.socket) c.server.atomics e.request.readings
        e.request.buf with
    | .ok (reply, atomics) =>
        if reply = e.request.reply then
          some
            { c with
              server := ⟨atomics, e.request.readings.latest⟩
              tried :=
                if e.own && e.request.visit.refreshes then e.request.readings.validate
                else c.tried
              refreshed :=
                if e.request.reply.isRouted && e.request.visit.refreshes then
                  e.request.readings.validate
                else c.refreshed }
        else none
    | .error _ => none
  else none

/-- **The requests after a login**, whatever the atomics were before it. -/
def clientSystem (b : Boot) : System ActiveClient ClientRequest where
  init c := ∃ (st : WebState) (login : WebRequest), login.reply = .loginRedirect c.token ∧
    serveRequest (b.pool login.socket) st login.readings login.buf =
      .ok (login.reply, c.server.atomics) ∧
    c.server.clock = login.readings.latest ∧ login.readings.created ≤ c.received ∧
    c.tried = login.readings.created ∧ c.refreshed = login.readings.created
  step c e c' := c.step b e = some c'

namespace ActiveClient

variable {b : Boot} {c c' : ActiveClient} {e : ClientRequest}

/-- **What a step does**: it is a request that is served, and moves the seconds on. -/
structure Moves (b : Boot) (c : ActiveClient) (e : ClientRequest) (c' : ActiveClient) : Prop where
  clock_le : c.server.clock ≤ e.request.readings.validate
  goes_on : e.request.reply.endsSession = false
  may_ask : e.own = true → c.MayAsk e.request
  served : Served (b.pool e.request.socket) c.server.atomics e.request.readings e.request.buf
    e.request.reply c'.server.atomics
  token_eq : c'.token = c.token
  clock_eq : c'.server.clock = e.request.readings.latest
  tried_eq : c'.tried =
    if e.own && e.request.visit.refreshes then e.request.readings.validate else c.tried
  refreshed_eq : c'.refreshed =
    if e.request.reply.isRouted && e.request.visit.refreshes then e.request.readings.validate
    else c.refreshed

theorem moves_of_step (h : c.step b e = some c') : c.Moves b e c' := by
  unfold step at h
  split at h
  · next henabled =>
    obtain ⟨hclock, hgoes, hask⟩ := henabled
    split at h
    · next hserve =>
      split at h
      · next hreply =>
        obtain rfl := Option.some.inj h
        rw [hreply] at hserve
        exact ⟨hclock, hgoes, hask, served_of_serveRequest hserve, rfl, rfl, rfl, rfl⟩
      · cases h
    · cases h
  · cases h

theorem Moves.not_login (h : c.Moves b e c') (token : UInt64) :
    e.request.reply ≠ .loginRedirect token := by
  intro hreply
  have hgoes := h.goes_on
  rw [hreply] at hgoes
  cases hgoes

theorem Moves.not_logOut (h : c.Moves b e c') : e.request.reply ≠ .routed .logOut := by
  intro hreply
  have hgoes := h.goes_on
  rw [hreply] at hgoes
  cases hgoes

/-! ### What keeps a client logged in -/

/-- An own request is accepted. -/
def StaysLoggedIn (e : ClientRequest) : Prop :=
  e.own = true → e.request.reply.isRouted = true

/-- **An own request comes in time**: the client still has its cookie, its token is none that
stands for no session, and the session was last refreshed in a second that fits the stored word. -/
def InTime (c : ActiveClient) (e : ClientRequest) : Prop :=
  e.own = true → c.token ≠ 0 ∧ e.request.readings.validate ≤ c.received + sessionCookieMaxAge ∧
    c.refreshed < 2 ^ 32

/-- **What holds while own requests come in time.** The stored second is the second of the last
refresh, as far as it fits. The stored token is that of the client, until someone presents it too
late. -/
structure Kept (b : Boot) (c : ActiveClient) : Prop where
  required : authRequired b.cfg = true
  tried_le : c.tried ≤ c.refreshed
  refreshed_le : c.refreshed ≤ c.server.clock
  stored : c.server.atomics.token = c.token ∧
      c.server.atomics.created.toNat = c.refreshed % 2 ^ 32 ∨
    c.server.atomics.token = 0 ∧
      (2 ^ 32 ≤ c.refreshed ∨ c.refreshed + sessionTtlSecs < c.server.clock)

theorem Moves.sessionStep (hc : c.Kept b) (h : c.Moves b e c') :
    SessionStep e.request c.server.atomics c'.server.atomics :=
  sessionStep_of_served (by rw [Boot.authRequired_pool, hc.required]) h.served

/-- The token of a client that may still ask, and comes in time, is stored. -/
theorem stored_of_inTime (hc : c.Kept b) (h : c.Moves b e c') (hown : e.own = true)
    (htime : c.InTime e) :
    c.server.atomics.token = c.token ∧ c.server.atomics.created.toNat = c.refreshed := by
  obtain ⟨-, -, hfits⟩ := htime hown
  obtain ⟨-, hactive, -⟩ := h.may_ask hown
  have htried := hc.tried_le
  have hclock := h.clock_le
  obtain ⟨htoken, hcreated⟩ | ⟨-, hpast⟩ := hc.stored
  · exact ⟨htoken, by rw [hcreated, Nat.mod_eq_of_lt hfits]⟩
  · omega

/-- **One step** accepts an own request exactly when it comes in time. -/
theorem staysLoggedIn_iff (hc : c.Kept b) (h : c.Moves b e c') :
    StaysLoggedIn e ↔ c.InTime e := by
  constructor
  · intro haccepted hown
    have hrouted := haccepted hown
    obtain ⟨-, -, hcookie⟩ := h.may_ask hown
    cases h.sessionStep hc with
    | login hreply => exact absurd hreply (h.not_login _)
    | logOut hreply => exact absurd hreply h.not_logOut
    | expired hnot | untouched hnot =>
      rw [hnot] at hrouted
      cases hrouted
    | used _ _ hlive hpresented hidle =>
      rw [hpresented, cookieAt] at hcookie
      split at hcookie
      · next hage =>
        have htoken : c.server.atomics.token = c.token := Option.some.inj hcookie
        refine ⟨by rwa [← htoken], hage, ?_⟩
        -- past the word, the stored second is far behind
        obtain ⟨-, hcreated⟩ | ⟨hnone, -⟩ := hc.stored
        · have hclock := hc.refreshed_le.trans h.clock_le
          have hdiv := Nat.mod_add_div c.refreshed (2 ^ 32)
          rw [hcreated, sessionTtlSecs] at hidle
          omega
        · exact absurd hnone hlive
      · cases hcookie
  · intro htime hown
    obtain ⟨htoken, hcreated⟩ := stored_of_inTime hc h hown htime
    obtain ⟨hminted, hage, -⟩ := htime hown
    obtain ⟨-, hactive, hcookie⟩ := h.may_ask hown
    have htried := hc.tried_le
    rw [cookieAt, if_pos hage] at hcookie
    cases h.sessionStep hc with
    | login hreply => exact absurd hreply (h.not_login _)
    | logOut hreply | used hreply => rw [hreply, Reply.isRouted]
    | expired _ _ _ hidle => omega
    | untouched _ _ hnot => exact absurd ⟨by rwa [htoken], by rw [hcookie, htoken]⟩ hnot

/-- The second of the last refresh moves on, up to the readings of the request. -/
theorem refreshed_le_of_moves (hc : c.Kept b) (h : c.Moves b e c') :
    c.refreshed ≤ c'.refreshed ∧ c'.refreshed ≤ c'.server.clock := by
  have hclock := hc.refreshed_le.trans h.clock_le
  have hlatest := e.request.readings.validate_le_latest
  rw [h.refreshed_eq, h.clock_eq]
  split <;> omega

/-- An own request that is accepted and refreshes the session is its last refresh. -/
theorem tried_le_of_moves (hc : c.Kept b) (h : c.Moves b e c') (haccepted : StaysLoggedIn e) :
    c'.tried ≤ c'.refreshed := by
  have hmoved := (refreshed_le_of_moves hc h).1
  have hrefreshed := h.refreshed_eq
  rw [h.tried_eq]
  split
  · next hown =>
    obtain ⟨hown, hrefreshes⟩ := Bool.and_eq_true_iff.mp hown
    rw [haccepted hown, hrefreshes] at hrefreshed
    exact hrefreshed.ge
  · exact hc.tried_le.trans hmoved

/-- What is stored after a step. -/
theorem stored_of_moves (hc : c.Kept b) (h : c.Moves b e c') :
    c'.server.atomics.token = c'.token ∧
        c'.server.atomics.created.toNat = c'.refreshed % 2 ^ 32 ∨
      c'.server.atomics.token = 0 ∧
        (2 ^ 32 ≤ c'.refreshed ∨ c'.refreshed + sessionTtlSecs < c'.server.clock) := by
  have hmono : c.server.clock ≤ c'.server.clock := by
    rw [h.clock_eq]
    exact h.clock_le.trans e.request.readings.validate_le_latest
  have hrefreshed := h.refreshed_eq
  cases h.sessionStep hc with
  | login hreply => exact absurd hreply (h.not_login _)
  | logOut hreply => exact absurd hreply h.not_logOut
  | used hreply _ hlive _ _ htoken hcreated =>
    obtain ⟨hsame, hsecond⟩ | ⟨hnone, -⟩ := hc.stored
    · refine .inl ⟨by rw [htoken, h.token_eq, hsame], ?_⟩
      rw [hcreated, hrefreshed, hreply, Reply.isRouted]
      cases e.request.visit.refreshes with
      | true => exact UInt32.toNat_ofNat'
      | false => exact hsecond
    · exact absurd hnone hlive
  | expired hrouted _ _ hidle htoken =>
    -- presented too late, so also too late for the client
    rw [hrouted] at hrefreshed
    rw [show c'.refreshed = c.refreshed from hrefreshed]
    refine .inr ⟨htoken, ?_⟩
    obtain ⟨-, hcreated⟩ | ⟨-, hpast⟩ := hc.stored
    · have hclock := h.clock_eq
      have hlatest := e.request.readings.validate_le_latest
      omega
    · omega
  | untouched hrouted _ _ htoken hcreated =>
    rw [hrouted] at hrefreshed
    rw [show c'.refreshed = c.refreshed from hrefreshed, htoken, hcreated, h.token_eq]
    exact hc.stored.imp_right (And.imp_right fun hpast => by omega)

/-- **One step keeps it.** -/
theorem kept_step (hc : c.Kept b) (h : c.Moves b e c') (htime : c.InTime e) : c'.Kept b where
  required := hc.required
  tried_le := tried_le_of_moves hc h ((staysLoggedIn_iff hc h).mpr htime)
  refreshed_le := (refreshed_le_of_moves hc h).2
  stored := stored_of_moves hc h

/-- Only a device that asks for a login answers one. -/
theorem authRequired_of_loginRedirect {pool : Pool} {st st' : WebState} {r : Readings}
    {buf : List UInt8} {token : UInt64} (h : Served pool st r buf (.loginRedirect token) st') :
    pool.authRequired = true := by
  by_contra hopen
  have hadmitted : ∀ req, admission pool st r req = (true, st) := fun req => if_neg hopen
  cases h with
  | undecodable _ hreply => cases hreply
  | accepted _ _ hreply => cases hreply
  | loginPost _ hnot =>
    rw [hadmitted] at hnot
    cases hnot
  | turnedAway _ hnot =>
    rw [hadmitted] at hnot
    cases hnot

theorem kept_of_init (h : (clientSystem b).init c) : c.Kept b := by
  obtain ⟨st, login, hreply, hserve, hclock, -, htried, hrefreshed⟩ := h
  have hserved := served_of_serveRequest hserve
  have hlatest := login.readings.created_le_latest
  have hrequired : authRequired b.cfg = true := by
    rw [← Boot.authRequired_pool b login.socket]
    exact authRequired_of_loginRedirect (hreply ▸ hserved)
  refine ⟨hrequired, by omega, by omega, .inl ?_⟩
  cases sessionStep_of_served (by rw [Boot.authRequired_pool, hrequired]) hserved with
  | login hredirect htoken hcreated =>
    obtain rfl := Reply.loginRedirect.inj (hreply.symm.trans hredirect)
    exact ⟨htoken, by rw [hcreated, hrefreshed, UInt32.toNat_ofNat']⟩
  | logOut hrouted | used hrouted =>
    rw [hreply] at hrouted
    cases hrouted
  | expired _ hnot | untouched _ hnot =>
    rw [WebRequest.loggedIn, hreply] at hnot
    cases hnot

end ActiveClient

/-- **Staying logged in**: in a run after a login, without another login, a log-out or a reset, a
client that stays active and returns its cookie as long as it may has all its requests accepted
exactly when each of them comes before the end of the `Max-Age`, the minted token is not zero, and
no refresh before it was in second `2 ^ 32` or later. -/
theorem kept_logged_in_iff (b : Boot) (l : List ClientRequest) :
    (clientSystem b).Throughout (fun _ e _ => ActiveClient.StaysLoggedIn e) l ↔
      (clientSystem b).Throughout (fun c e _ => c.InTime e) l := by
  refine System.throughout_iff (I := ActiveClient.Kept b) (fun _ => ActiveClient.kept_of_init) ?_ ?_
  · intro c e c' hc hstep htime
    exact ActiveClient.kept_step hc (ActiveClient.moves_of_step hstep) htime
  · intro c e c' hc hstep
    exact ActiveClient.staysLoggedIn_iff hc (ActiveClient.moves_of_step hstep)

/-- A request for the dashboard by the client of `adminLogin`. -/
def dashboardAt (now : ℕ) : ClientRequest :=
  ⟨true, adminRequest .a now "GET /" (.routed .dashboard)⟩

/-- The same without its cookie. -/
def bareDashboardAt (now : ℕ) : ClientRequest where
  own := true
  request :=
    { socket := .a
      readings := Readings.at now
      buf := asBytes "GET / HTTP/1.1\r\n\r\n".toList
      reply := .loginForm false }

/-- A client that asks every 900 seconds is shown the login form after 45 minutes. -/
theorem logged_out_while_active :
    ¬ ∀ (b : Boot) (l : List ClientRequest) (c₀ c c' : ActiveClient) (e : ClientRequest),
      (clientSystem b).init c₀ → (clientSystem b).Run c₀ l c → (clientSystem b).step c e c' →
      e.own = true → e.request.reply.isRouted = true := by
  intro h
  let c₀ : ActiveClient := ⟨⟨adminSession, 1⟩, 7806831264735756412, 1, 1, 1⟩
  have hinit : (clientSystem adminBoot).init c₀ :=
    ⟨WebState.boot, adminLogin, rfl, by decide +kernel, by decide, le_rfl, rfl, rfl⟩
  let l : List ClientRequest := [dashboardAt 900, dashboardAt 1800]
  have hend : (l.foldlM (ActiveClient.step adminBoot) c₀).any fun c =>
      (c.step adminBoot (bareDashboardAt 2700)).isSome := by
    decide +kernel
  obtain ⟨c, hsteps, henabled⟩ := (Option.any_eq_true ..).mp hend
  obtain ⟨c', hstep⟩ := Option.isSome_iff_exists.mp henabled
  have hrun : (clientSystem adminBoot).Run c₀ l c := .of_foldlM (fun _ _ _ h => h) hsteps
  exact Bool.false_ne_true (h adminBoot l c₀ c c' _ hinit hrun hstep rfl)

end Jzf407
