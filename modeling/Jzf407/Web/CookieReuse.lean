import Jzf407.Web.SessionRun

/-!
# Old cookies

The token of a session is minted from the start second of the pool and the second of the
login. Both come back: two logins within one second mint the same token, and so do two
boots whose pools and logins fall on the same seconds. A cookie whose session has ended is
then the cookie of a later one.

`deviceSystem` is the server with its resets (`Device`). Its state records which seeds the logins
have used so far, across resets. When every login uses a new seed (`FreshLogin`), an ended session
never comes back (`old_cookie_never_accepted`); without that it does (`old_cookie_accepted`).

`EndsSession` lists what ends the session of a token: a log-out, a later login, the passing of the
idle limit, and a reset. After it the token is dead: no session carries it within its idle limit
(`DeadSeed`, by `deadSeed_of_ends`). It stays dead through every event if the next login is fresh
(`deadSeed_step`), because different seeds mint different tokens, and a token that is dead is not
accepted (`not_valid_of_deadSeed`). So the proof follows one token through the run, on the lease
that the atomics implement.
-/

namespace Jzf407

open Foundation

/-! ### The device across resets -/

/-- The server, what was fixed at its last reset, and the seeds that logins have used. -/
structure Device where
  boot : Boot
  server : Server
  minted : List UInt64

/-- The session of the device. -/
def Device.session (d : Device) : Option (Lease.Holder UInt64) := d.server.atomics.session

/-- What happens to the device: a request, the passing of time, a reset into a boot under any
configuration. -/
inductive DeviceEvent
  | request (e : WebRequest)
  | wait (now : ℕ)
  | reboot (b : Boot)

/-- The seed a login mints its token from. -/
def loginSeed (b : Boot) (e : WebRequest) : UInt64 :=
  (b.pool e.socket).tokenSeed + UInt64.ofNat e.readings.mint

/-- **The device across resets.** A reset clears the atomics and restarts the clock. -/
def deviceSystem : System Device DeviceEvent where
  init d := d.server.atomics = WebState.boot ∧ d.minted = []
  step d
    | .request e, d' =>
        (webSystem d.boot).step d.server e d'.server ∧ d'.boot = d.boot ∧
          d'.minted = if e.loggedIn then loginSeed d.boot e :: d.minted else d.minted
    | .wait now, d' => d.server.clock ≤ now ∧ d' = { d with server := ⟨d.server.atomics, now⟩ }
    | .reboot b, d' => d' = ⟨b, ⟨WebState.boot, 0⟩, d.minted⟩

/-- The event ends the session of every token minted before it: a log-out, a later login, the
passing of the idle limit, or a reset. -/
def EndsSession (d : Device) : DeviceEvent → Prop
  | .request e => e.reply = .routed .logOut ∨ e.loggedIn = true
  | .wait now => ∀ x, d.session = some x → x.last + sessionTtlSecs < now
  | .reboot _ => True

/-- A login uses a seed that no earlier login has used, in this boot or an earlier one. -/
def FreshLogin (d : Device) : DeviceEvent → Prop
  | .request e => e.loggedIn = true → loginSeed d.boot e ∉ d.minted
  | _ => True

/-- **Ended sessions stay ended** in the runs with these labels: once the session of a minted
token has ended, no request that presents the token is accepted, in any later state. -/
def EndedStaysEnded (l : List DeviceEvent) : Prop :=
  ∀ l₁ ev l₂ l₃ d₀ d d' d'' seed, l = l₁ ++ ev :: (l₂ ++ l₃) →
    deviceSystem.init d₀ → deviceSystem.Run d₀ l₁ d → seed ∈ d.minted →
    deviceSystem.step d ev d' → EndsSession d ev → deviceSystem.Run d' l₂ d'' →
    ∀ req refresh now r, d''.server.clock ≤ now →
      presentedToken req = some (mintSessionToken seed) →
      validateSession d''.server.atomics req refresh now = .ok r → r.1 = false

/-! ### Dead tokens -/

/-- No session carries the token minted from `seed` within its idle limit. -/
def DeadSeed (seed : UInt64) (d : Device) : Prop :=
  seed ∈ d.minted ∧ Lease.Dead sessionTtlSecs (mintSessionToken seed) d.server.clock d.session

/-- Without a required login a request keeps the session or drops it. -/
theorem session_of_open {pool : Pool} (hopen : pool.authRequired = false) {st st' : WebState}
    {t : Readings} {buf : List UInt8} {reply : Reply} (h : Served pool st t buf reply st') :
    st'.session = st.session ∨ st'.session = none := by
  have hadm : ∀ req, admission pool st t req = (true, st) := fun req => if_neg (by simp [hopen])
  cases h with
  | undecodable hbuf hreply hst => exact .inl (congrArg WebState.session hst)
  | @accepted req hbuf st₁ hadmitted hreply hst =>
    obtain rfl : st = st₁ := congrArg Prod.snd ((hadm req).symm.trans hadmitted)
    rw [hst, afterRoute]
    split
    · exact .inr (session_logOut st)
    · exact .inl rfl
  | @loginPost req hbuf st₁ hadmitted hlogin hattempt =>
    rw [hadm req] at hadmitted
    cases hadmitted
  | @turnedAway req hbuf st₁ hadmitted hreply hst =>
    rw [hadm req] at hadmitted
    cases hadmitted

/-- A login leaves a session with the token of its seed. -/
theorem session_of_login {pool : Pool} {st st' : WebState} {t : Readings} {buf : List UInt8}
    {token : UInt64} (ht : t.latest < 2 ^ 32)
    (h : Served pool st t buf (.loginRedirect token) st') :
    st'.session = leaseOf (mintSessionToken (pool.tokenSeed + UInt64.ofNat t.mint)) t.created := by
  cases h with
  | undecodable hbuf hreply hst => cases hreply
  | accepted hbuf hadmitted hreply hst => cases hreply
  | @loginPost req hbuf st₁ hadmitted hlogin hattempt =>
    obtain ⟨⟨hpass, -⟩ | ⟨token', hreply, hst, -, htoken⟩, -⟩ := session_loginAttempt ht hattempt
    · cases hpass
    · rw [hst, htoken]
  | turnedAway hbuf hadmitted hreply hst => simp at hreply

/-- A log-out leaves no session. -/
theorem session_of_logOut {pool : Pool} {st st' : WebState} {t : Readings} {buf : List UInt8}
    (h : Served pool st t buf (.routed .logOut) st') : st'.session = none := by
  cases h with
  | undecodable hbuf hreply hst => cases hreply
  | accepted hbuf hadmitted hreply hst =>
    rw [hst, afterRoute, if_pos (Reply.routed.inj hreply).symm, session_logOut]
  | loginPost hbuf hadmitted hlogin hattempt =>
    exact absurd hattempt not_routed_of_loginAttempt
  | turnedAway hbuf hadmitted hreply hst => simp at hreply

theorem token_of_leaseOf {token : UInt64} {last : ℕ} {x : Lease.Holder UInt64}
    (h : leaseOf token last = some x) : x.token = token := by
  unfold leaseOf at h
  split at h
  · cases h
  · rw [← Option.some.inj h]

/-- A lease of a fresh seed does not carry an old token. -/
theorem dead_of_fresh {seed seed' : UInt64} (hne : seed' ≠ seed) (last clock : ℕ) :
    Lease.Dead sessionTtlSecs (mintSessionToken seed) clock
      (leaseOf (mintSessionToken seed') last) := by
  intro x hx htoken
  exact absurd (mintSessionToken_injective ((token_of_leaseOf hx).symm.trans htoken)) hne

theorem exists_of_loggedIn {e : WebRequest} (h : e.loggedIn = true) :
    ∃ token, e.reply = .loginRedirect token := by
  unfold WebRequest.loggedIn at h
  cases hreply : e.reply <;> rw [hreply] at h <;> cases h
  exact ⟨_, rfl⟩

/-! ### Fresh logins -/

/-- The event that ends the session of a minted token leaves that token dead. -/
theorem deadSeed_of_ends {d d' : Device} {ev : DeviceEvent} {seed : UInt64}
    (hstep : deviceSystem.step d ev d') (hfresh : FreshLogin d ev) (hends : EndsSession d ev)
    (hseed : seed ∈ d.minted) : DeadSeed seed d' := by
  cases ev with
  | request e =>
    obtain ⟨hweb, -, hminted⟩ := hstep
    have hserved := served_of_step hweb
    have hkept : seed ∈ d'.minted := by
      rw [hminted]
      split
      · exact List.mem_cons_of_mem _ hseed
      · exact hseed
    refine ⟨hkept, ?_⟩
    -- a log-out leaves no session, and a login one of a seed that is new
    obtain hlogout | hlogin := hends
    · rw [hlogout] at hserved
      rw [Device.session, session_of_logOut hserved]
      exact Lease.dead_none
    · obtain ⟨token, hreply⟩ := exists_of_loggedIn hlogin
      rw [hreply] at hserved
      rw [Device.session, session_of_login hweb.2.1 hserved]
      refine dead_of_fresh (fun heq => hfresh hlogin ?_) _ _
      rwa [loginSeed, heq]
  | wait now =>
    obtain ⟨-, rfl⟩ := hstep
    exact ⟨hseed, fun x hx _ => hends x hx⟩
  | reboot b =>
    obtain rfl := hstep
    refine ⟨hseed, ?_⟩
    rw [Device.session, session_boot]
    exact Lease.dead_none

/-- **A dead token stays dead** when the next login is fresh. -/
theorem deadSeed_step {d d' : Device} {ev : DeviceEvent} {seed : UInt64}
    (hstep : deviceSystem.step d ev d') (hfresh : FreshLogin d ev) (hdead : DeadSeed seed d) :
    DeadSeed seed d' := by
  obtain ⟨hseed, hdead⟩ := hdead
  cases ev with
  | request e =>
    obtain ⟨hweb, hboot, hminted⟩ := hstep
    have hserved := served_of_step hweb
    have hclock : d.server.clock ≤ d'.server.clock := clock_mono (.cons hweb (.nil _))
    refine ⟨?_, ?_⟩
    · rw [hminted]
      split
      · exact List.mem_cons_of_mem _ hseed
      · exact hseed
    · cases hauth : authRequired d.boot.cfg with
      | false =>
        have hopen : (d.boot.pool e.socket).authRequired = false := by
          rw [Boot.authRequired_pool, hauth]
        obtain hsame | hnone := session_of_open hopen hserved
        · rw [Device.session, hsame]
          exact hdead.mono hclock
        · rw [Device.session, hnone]
          exact Lease.dead_none
      | true =>
        obtain ⟨-, -, -, hnext⟩ := (session_simulation d.boot hauth).step _ e _ hweb
        rw [Device.session, hnext]
        refine hdead.next hweb.1 hclock fun x hgrant htoken => ?_
        -- only a login grants a lease, and its token is minted from a fresh seed
        cases hlogin : e.loggedIn with
        | true =>
          obtain ⟨token, hreply⟩ := exists_of_loggedIn hlogin
          rw [hreply] at hserved
          obtain ⟨-, -, -, -, rfl⟩ := exists_of_loginRedirect hweb.2.1 hserved
          rw [e.action_visit, hreply] at hgrant
          have hx := token_of_leaseOf (Lease.Action.grant.inj hgrant)
          have hsame := mintSessionToken_injective (hx.symm.trans htoken)
          refine hfresh hlogin ?_
          rwa [loginSeed, hsame]
        | false =>
          rw [e.action_visit] at hgrant
          unfold WebRequest.loggedIn at hlogin
          cases hreply : e.reply with
          | loginRedirect token => simp [hreply] at hlogin
          | routed route =>
            rw [hreply, action_routed] at hgrant
            split at hgrant <;> cases hgrant
          | _ =>
            rw [hreply] at hgrant
            cases hgrant
  | wait now =>
    obtain ⟨hclock, rfl⟩ := hstep
    exact ⟨hseed, hdead.mono hclock⟩
  | reboot b =>
    obtain rfl := hstep
    refine ⟨hseed, ?_⟩
    rw [Device.session, session_boot]
    exact Lease.dead_none

/-- A request that presents a dead token is not accepted. -/
theorem not_valid_of_deadSeed {d : Device} {seed : UInt64} (hdead : DeadSeed seed d) {req : Str}
    {refresh : Bool} {now : ℕ} {r : Bool × WebState} (hnow : d.server.clock ≤ now)
    (hpresented : presentedToken req = some (mintSessionToken seed))
    (hval : validateSession d.server.atomics req refresh now = .ok r) : r.1 = false := by
  by_contra hvalid
  rw [Bool.not_eq_false, eq_checkToken_of_validateSession hval] at hvalid
  obtain ⟨htoken, hpres, hidle⟩ := checkToken_fst_eq_true_iff.mp hvalid
  have hsession : d.session = some ⟨_, _⟩ := session_eq_some_iff.mpr ⟨htoken, rfl⟩
  have hlast := hdead.2 _ hsession (Option.some.inj (hpres.symm.trans hpresented))
  dsimp only at hlast
  omega

/-- **Old cookies are never accepted** in a run whose every login uses a new seed. -/
theorem old_cookie_never_accepted (l : List DeviceEvent)
    (hfresh : deviceSystem.Throughout (fun d ev _ => FreshLogin d ev) l) : EndedStaysEnded l := by
  intro l₁ ev l₂ l₃ d₀ d d' d'' seed hl hinit hbefore hseed hstep hends hrun req refresh now r
    hnow hpres hval
  have hended : DeadSeed seed d' := deadSeed_of_ends hstep
    (hfresh l₁ ev (l₂ ++ l₃) d₀ d d' hl hinit hbefore hstep) hends hseed
  have hsplit : l = (l₁ ++ [ev]) ++ (l₂ ++ l₃) := by
    rw [hl, List.append_assoc]
    rfl
  have hlater : DeadSeed seed d'' := by
    refine hfresh.invariant_after ?_ hsplit hinit (hbefore.append (.cons hstep (.nil d'))) hrun
      hended
    intro _ _ _ hs hnext hlogin
    exact deadSeed_step hnext hlogin hs
  exact not_valid_of_deadSeed hlater hnow hpres hval

/-! ### A login in the same second -/

/-- The log-out of the session of `adminLogin`, in the same second. -/
def adminLogout : WebRequest where
  socket := .a
  readings := Readings.at 1
  buf := asBytes "POST /logout HTTP/1.1\r\nCookie: jzf_session=7806831264735756412\r\n\r\n".toList
  reply := .routed .logOut

/-- A login and its log-out: one login, with a new seed. -/
theorem old_cookie_never_accepted_adminLogin :
    EndedStaysEnded [.request adminLogin, .request adminLogout] := by
  refine old_cookie_never_accepted _ ?_
  intro l₁ ev l₂ d₀ d d' hl hinit hrun hstep
  rcases l₁ with - | ⟨a, l₁⟩
  · obtain ⟨rfl, -⟩ := List.cons.inj hl
    cases hrun
    intro _
    rw [hinit.2]
    exact List.not_mem_nil
  · obtain ⟨-, htail⟩ := List.cons.inj hl
    rcases l₁ with - | ⟨a', l₁⟩
    · obtain ⟨rfl, -⟩ := List.cons.inj htail
      intro hlogin
      cases hlogin
    · have hlen := congrArg List.length (List.cons.inj htail).2
      simp at hlen

/-- Logging out and in again within one second brings the old cookie back. -/
theorem old_cookie_accepted : ¬ ∀ l, EndedStaysEnded l := by
  intro h
  let fresh : Device := ⟨adminBoot, ⟨WebState.boot, 0⟩, []⟩
  let loggedIn : Device := ⟨adminBoot, ⟨adminSession, 1⟩, [loginSeed adminBoot adminLogin]⟩
  let loggedOut : Device :=
    ⟨adminBoot, ⟨WebState.boot, 1⟩, [loginSeed adminBoot adminLogin]⟩
  let again : Device := ⟨adminBoot, ⟨adminSession, 1⟩,
    [loginSeed adminBoot adminLogin, loginSeed adminBoot adminLogin]⟩
  have hin : deviceSystem.step fresh (.request adminLogin) loggedIn :=
    ⟨⟨by decide, by decide, by decide +kernel, rfl⟩, rfl, rfl⟩
  have hout : deviceSystem.step loggedIn (.request adminLogout) loggedOut :=
    ⟨⟨by decide, by decide, by decide +kernel, rfl⟩, rfl, rfl⟩
  have hagain : deviceSystem.step loggedOut (.request adminLogin) again :=
    ⟨⟨by decide, by decide, by decide +kernel, rfl⟩, rfl, rfl⟩
  have hbad := h [.request adminLogin, .request adminLogout, .request adminLogin]
    [.request adminLogin] (.request adminLogout) [.request adminLogin] [] fresh loggedIn
    loggedOut again (loginSeed adminBoot adminLogin) rfl ⟨rfl, rfl⟩ (.cons hin (.nil _))
    List.mem_cons_self hout (.inl rfl) (.cons hagain (.nil _))
    "Cookie: jzf_session=7806831264735756412".toList true 1 (true, adminSession) le_rfl
    (by decide +kernel) (by decide +kernel)
  cases hbad

end Jzf407
