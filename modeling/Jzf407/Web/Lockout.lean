import Jzf407.Foundation.Throttle
import Jzf407.Web.Run

/-!
# The login lock-out

The two failure atomics implement a throttle of five failures and sixty seconds
(`lockout_simulation`): a redirect is a passed attempt, the login page with an error a failed
one, the locked page a refused one, and no other request touches the two words
(`WebRequest.attempt`). The results about throttles then hold of the server.

The simulation is one step of the throttle for one login attempt (`throttle_step_loginAttempt`). A
server has read its clock before the comparison and reads it again to store a failure; the throttle
has both times, and `now_of_attempt` and `failed_time_of_attempt` say which readings they are.

`login_lockout` puts four results together, over every run from boot: the counter is the current
streak of failed comparisons and at most five; nothing is compared for sixty seconds after the
fifth (`refused_while_locked`); a refused attempt leaves both words alone; and a stretch of less
than sixty seconds without a login holds at most five failed comparisons (`countP_failed_le`).
-/

namespace Jzf407

open Foundation

/-- The two failure atomics as a throttle. -/
def WebState.throttle (st : WebState) : Throttle.State :=
  ⟨st.failCount.toNat, st.failLast.toNat⟩

/-- The login attempt that a reply answers. -/
def Reply.attempt (t : Readings) : Reply → Option Throttle.Attempt
  | .lockedForm => some ⟨t.login, .refused⟩
  | .loginRedirect _ => some ⟨t.login, .passed⟩
  | .rejectedForm _ => some ⟨t.login, .failed t.failed⟩
  | _ => none

/-- The login attempt that a request is, by its reply. -/
def WebRequest.attempt (e : WebRequest) : Option Throttle.Attempt := e.reply.attempt e.readings

/-- The request had its credentials compared and refused. -/
def WebRequest.failed (e : WebRequest) : Bool :=
  match e.reply with
  | .rejectedForm _ => true
  | _ => false

/-! ### The throttle behind the atomics -/

@[simp]
theorem throttle_storeToken (st : WebState) (v : UInt64) :
    (st.storeToken v).throttle = st.throttle := rfl

@[simp]
theorem throttle_storeCreated (st : WebState) (now : ℕ) :
    (st.storeCreated now).throttle = st.throttle := rfl

theorem throttle_admission (pool : Pool) (st : WebState) (t : Readings) (req : Str) :
    (admission pool st t req).2.throttle = st.throttle := by
  unfold admission checkToken
  repeat' split
  all_goals rfl

theorem throttle_afterRoute (cfg : NetworkConfig) (st : WebState) (request : ParsedRequest) :
    (afterRoute cfg st request).throttle = st.throttle := by
  unfold afterRoute
  split <;> rfl

theorem loginMaxFails_le_iff (n : UInt32) : n ≥ loginMaxFails ↔ 5 ≤ n.toNat :=
  UInt32.le_iff_toNat_le

theorem loginIsLocked_iff (st : WebState) (now : ℕ) :
    loginIsLocked now st.failCount st.failLast.toNat = true ↔
      Throttle.Locked 5 loginLockoutSecs st.throttle now := by
  unfold loginIsLocked
  rw [Bool.and_eq_true, decide_eq_true_eq, decide_eq_true_eq, loginMaxFails_le_iff]
  refine and_congr_right fun _ => ?_
  change now - st.failLast.toNat < 60 ↔ now < st.failLast.toNat + 60
  omega

theorem throttle_liftLock (st : WebState) :
    (liftLock st).throttle = ⟨Throttle.base 5 st.throttle.fails, st.throttle.last⟩ := by
  unfold liftLock Throttle.base WebState.throttle
  by_cases hfull : st.failCount ≥ loginMaxFails
  · rw [if_pos hfull, if_pos ((loginMaxFails_le_iff _).mp hfull)]
    rfl
  · rw [if_neg hfull, if_neg fun h => hfull ((loginMaxFails_le_iff _).mpr h)]

theorem throttle_completeLogin (pool : Pool) (st : WebState) (t : Readings) :
    (completeLogin pool st t).2.throttle = ⟨0, st.throttle.last⟩ := by
  rw [completeLogin, throttle_storeCreated, throttle_storeToken]
  rfl

theorem throttle_rejectLogin {st : WebState} {t : Readings} (hcount : st.throttle.fails < 5)
    (ht : t.latest < 2 ^ 32) :
    (rejectLogin st t).2.throttle = ⟨st.throttle.fails + 1, t.failed⟩ := by
  have hfails : (st.failCount + 1).toNat = st.throttle.fails + 1 := by
    rw [UInt32.toNat_add]
    refine Nat.mod_eq_of_lt (Nat.lt_of_lt_of_le (Nat.succ_lt_succ hcount) ?_)
    decide
  have hlast : (UInt32.ofNat t.failed).toNat = t.failed := by
    rw [UInt32.toNat_ofNat']
    exact Nat.mod_eq_of_lt (t.failed_le_latest.trans_lt ht)
  rw [rejectLogin, WebState.throttle, hfails, hlast]

/-- **A login attempt is a step of the throttle.** -/
theorem throttle_step_loginAttempt {pool : Pool} {st st' : WebState} {t : Readings}
    {request : ParsedRequest} {reply : Reply} (ht : t.latest < 2 ^ 32)
    (h : (reply, st') = loginAttempt pool st t request) :
    ∃ outcome, reply.attempt t = some ⟨t.login, outcome⟩ ∧
      (Throttle.system 5 loginLockoutSecs).step st.throttle ⟨t.login, outcome⟩ st'.throttle := by
  obtain ⟨hlock, rfl, rfl⟩ | ⟨hopen, hcompared⟩ := loginAttempt_cases h
  · exact ⟨.refused, rfl, iff_of_true rfl ((loginIsLocked_iff ..).mp hlock), rfl⟩
  · have hunlocked := fun hl => Bool.eq_false_iff.mp hopen ((loginIsLocked_iff ..).mpr hl)
    obtain ⟨-, rfl, rfl⟩ | ⟨-, ⟨locked, rfl⟩, rfl⟩ := hcompared
    · refine ⟨.passed, rfl, iff_of_false (by simp) hunlocked, ?_⟩
      rw [throttle_completeLogin, throttle_liftLock]
      rfl
    · refine ⟨.failed t.failed, rfl, iff_of_false (by simp) hunlocked, ?_⟩
      have hbase : (liftLock st).throttle.fails < 5 := by
        rw [throttle_liftLock]
        simp only [Throttle.base]
        split <;> omega
      rw [throttle_rejectLogin hbase ht, throttle_liftLock]
      rfl

/-- **The server simulates the throttle.** -/
theorem lockout_simulation (b : Boot) :
    (webSystem b).Simulation (Throttle.system 5 loginLockoutSecs)
      (fun s => s.atomics.throttle) WebRequest.attempt where
  init s hs := by
    rw [show s.atomics = WebState.boot from hs]
    rfl
  step s e s' hstep := by
    have hserved := served_of_step hstep
    have hadm : ∀ {req valid st₁}, admission (b.pool e.socket) s.atomics e.readings req =
        (valid, st₁) → st₁.throttle = s.atomics.throttle := fun {req valid st₁} hadmitted => by
      rw [← throttle_admission (b.pool e.socket) s.atomics e.readings req, hadmitted]
    cases hserved with
    | undecodable hbuf hreply hst =>
      rw [WebRequest.attempt, hreply, hst]
      rfl
    | accepted hbuf hadmitted hreply hst =>
      rw [WebRequest.attempt, hreply, hst]
      exact (throttle_afterRoute ..).trans (hadm hadmitted)
    | loginPost hbuf hadmitted hlogin hattempt =>
      obtain ⟨outcome, hlab, hstepped⟩ := throttle_step_loginAttempt hstep.2.1 hattempt
      rw [WebRequest.attempt, hlab]
      rwa [hadm hadmitted] at hstepped
    | turnedAway hbuf hadmitted hreply hst =>
      rw [WebRequest.attempt, hst]
      obtain hreply | ⟨expire, hreply⟩ := hreply
      · rw [hreply]
        exact hadm hadmitted
      · rw [hreply]
        exact hadm hadmitted

/-! ### The lock-out over runs -/

/-- An attempt is checked at the login reading. -/
theorem now_of_attempt {e : WebRequest} {a : Throttle.Attempt} (h : e.attempt = some a) :
    a.now = e.readings.login := by
  unfold WebRequest.attempt at h
  cases hreply : e.reply <;> rw [hreply] at h <;> cases h <;> rfl

/-- A failed comparison is recorded at the failure reading. -/
theorem failed_time_of_attempt {e : WebRequest} {a : Throttle.Attempt} {time : ℕ}
    (h : e.attempt = some a) (ha : a.outcome = .failed time) : time = e.readings.failed := by
  unfold WebRequest.attempt at h
  cases hreply : e.reply <;> rw [hreply] at h <;> cases h <;> cases ha
  rfl

/-- A refused attempt compares nothing. -/
theorem not_compared_of_refused {e : WebRequest}
    (h : ∀ a, e.attempt = some a → a.outcome = .refused) :
    e.failed = false ∧ e.loggedIn = false := by
  unfold WebRequest.attempt at h
  unfold WebRequest.failed WebRequest.loggedIn
  cases hreply : e.reply with
  | loginRedirect token => simp [hreply, Reply.attempt] at h
  | rejectedForm locked => simp [hreply, Reply.attempt] at h
  | _ => exact ⟨rfl, rfl⟩

theorem not_passed_of_attempt {e : WebRequest} {a : Throttle.Attempt} (h : e.attempt = some a)
    (hno : e.loggedIn = false) : a.outcome ≠ .passed := by
  unfold WebRequest.attempt at h
  unfold WebRequest.loggedIn at hno
  cases hreply : e.reply <;> rw [hreply] at h hno <;> cases h <;> simp_all

/-- A run of requests is a run of the throttle on its login attempts. -/
theorem throttle_run {b : Boot} {s t : Server} {l : List WebRequest}
    (h : (webSystem b).Run s l t) :
    (Throttle.system 5 loginLockoutSecs).Run s.atomics.throttle
      (l.filterMap WebRequest.attempt) t.atomics.throttle :=
  (lockout_simulation b).run h

/-- Failed comparisons are the failures of the throttle. -/
theorem countP_failed (l : List WebRequest) :
    l.countP WebRequest.failed = Throttle.countFailed (l.filterMap WebRequest.attempt) := by
  induction l with
  | nil => rfl
  | cons e l ih =>
    rw [List.countP_cons, ih]
    unfold Throttle.countFailed
    cases hreply : e.reply with
    | lockedForm =>
      have hattempt : e.attempt = some ⟨e.readings.login, .refused⟩ := by
        rw [WebRequest.attempt, hreply]; rfl
      rw [List.filterMap_cons_some hattempt, List.countP_cons]
      simp [WebRequest.failed, hreply, Throttle.Outcome.isFailed]
    | loginRedirect token =>
      have hattempt : e.attempt = some ⟨e.readings.login, .passed⟩ := by
        rw [WebRequest.attempt, hreply]; rfl
      rw [List.filterMap_cons_some hattempt, List.countP_cons]
      simp [WebRequest.failed, hreply, Throttle.Outcome.isFailed]
    | rejectedForm locked =>
      have hattempt : e.attempt = some ⟨e.readings.login, .failed e.readings.failed⟩ := by
        rw [WebRequest.attempt, hreply]; rfl
      rw [List.filterMap_cons_some hattempt, List.countP_cons]
      simp [WebRequest.failed, hreply, Throttle.Outcome.isFailed]
    | _ =>
      have hattempt : e.attempt = none := by rw [WebRequest.attempt, hreply]; rfl
      rw [List.filterMap_cons_none hattempt]
      simp [WebRequest.failed, hreply]

/-- A failed comparison leaves its own time as that of the last failure. -/
theorem failLast_of_failed {b : Boot} {s t : Server} {e : WebRequest}
    (h : (webSystem b).step s e t) (hfailed : e.failed = true) :
    t.atomics.throttle.last = e.readings.failed := by
  have hsim := (lockout_simulation b).step s e t h
  unfold WebRequest.failed at hfailed
  unfold WebRequest.attempt at hsim
  cases hreply : e.reply <;> rw [hreply] at hfailed hsim <;> cases hfailed
  exact congrArg Throttle.State.last hsim.2

/-- **While the window after a fifth failure lasts, nothing is compared.** -/
theorem refused_while_locked {b : Boot} {s t : Server} {l : List WebRequest}
    (h : (webSystem b).Run s l t) (hfull : 5 ≤ s.atomics.throttle.fails) {e : WebRequest}
    (he : e ∈ l) (hwithin : e.readings.login < s.atomics.throttle.last + loginLockoutSecs) :
    e.failed = false ∧ e.loggedIn = false := by
  obtain ⟨p, q, rfl⟩ := List.append_of_mem he
  -- the requests up to `e` are all checked within the window, since the clock does not go back
  obtain ⟨w, hp, hq⟩ := (show p ++ e :: q = (p ++ [e]) ++ q by simp) ▸ h |>.exists_of_append
  have hlogin : ∀ d ∈ p ++ [e], d.readings.login ≤ e.readings.login := by
    obtain ⟨u, hpu, hlast⟩ := hp.exists_of_append
    intro d hd
    rcases List.mem_append.mp hd with hd | hd
    · have hlatest := (clock_le_readings hpu d hd).2
      have hvalidate := (clock_le_readings hlast e List.mem_cons_self).1
      exact d.readings.login_le_latest.trans
        (hlatest.trans (hvalidate.trans e.readings.validate_le_login))
    · rw [List.mem_singleton.mp hd]
  have hrefused := (Throttle.refused_of_locked (throttle_run hp) hfull fun a ha => by
    obtain ⟨d, hd, hattempt⟩ := List.mem_filterMap.mp ha
    rw [now_of_attempt hattempt]
    exact Nat.lt_of_le_of_lt (hlogin d hd) hwithin).2
  exact not_compared_of_refused fun a ha =>
    hrefused a (List.mem_filterMap.mpr ⟨e, by simp, ha⟩)

/-- **A stretch of less than sixty seconds without a login** holds at most five failed
comparisons. -/
theorem countP_failed_le {b : Boot} {s t : Server} {l : List WebRequest} {lo : ℕ}
    (h : (webSystem b).Run s l t) (hs : s.atomics.throttle.fails ≤ 5)
    (hno : ∀ e ∈ l, e.loggedIn = false)
    (hwithin : ∀ e ∈ l, lo ≤ e.readings.failed ∧ e.readings.login < lo + loginLockoutSecs) :
    l.countP WebRequest.failed ≤ 5 := by
  have hfrom : ∀ a ∈ l.filterMap WebRequest.attempt, ∀ time, a.outcome = .failed time →
      lo ≤ time := by
    intro a ha time htime
    obtain ⟨d, hd, hattempt⟩ := List.mem_filterMap.mp ha
    rw [failed_time_of_attempt hattempt htime]
    exact (hwithin d hd).1
  rw [countP_failed]
  refine Throttle.countFailed_le (by decide) (throttle_run h) hs ?_ hfrom ?_
  · intro a ha
    obtain ⟨d, hd, hattempt⟩ := List.mem_filterMap.mp ha
    exact not_passed_of_attempt hattempt (hno d hd)
  · intro a ha
    obtain ⟨d, hd, hattempt⟩ := List.mem_filterMap.mp ha
    rw [now_of_attempt hattempt]
    exact (hwithin d hd).2

/-- **The lock-out, over every run from boot.** The counter is the current streak of failed
comparisons, and at most five. After the fifth failure of a streak nothing is compared until
sixty seconds have passed. A refused attempt leaves both atomics alone. And a stretch of the
run without a login whose attempts lie within less than sixty seconds holds at most five
failed comparisons. -/
theorem login_lockout (b : Boot) {s t : Server} {l : List WebRequest}
    (hinit : (webSystem b).init s) (hrun : (webSystem b).Run s l t) :
    (t.atomics.failCount.toNat = Throttle.streak 5 0 (l.filterMap WebRequest.attempt) ∧
      t.atomics.failCount.toNat ≤ 5) ∧
    (∀ l₁ e l₂, l = l₁ ++ e :: l₂ → e.failed = true →
      Throttle.streak 5 0 ((l₁ ++ [e]).filterMap WebRequest.attempt) = 5 →
      ∀ e' ∈ l₂, e'.readings.login < e.readings.failed + 60 →
        e'.failed = false ∧ e'.loggedIn = false) ∧
    (∀ u e v, (webSystem b).step u e v → e.reply = .lockedForm →
      v.atomics.failCount.toNat = u.atomics.failCount.toNat ∧
        v.atomics.failLast.toNat = u.atomics.failLast.toNat) ∧
    (∀ l₁ l₂ l₃ lo, l = l₁ ++ (l₂ ++ l₃) → (∀ e ∈ l₂, e.loggedIn = false) →
      (∀ e ∈ l₂, lo ≤ e.readings.failed ∧ e.readings.login < lo + 60) →
        l₂.countP WebRequest.failed ≤ 5) := by
  have hboot : s.atomics.throttle = ⟨0, 0⟩ := by
    rw [show s.atomics = WebState.boot from hinit]
    rfl
  have hle : ∀ {m v}, (webSystem b).Run s m v → v.atomics.throttle.fails ≤ 5 := fun hm =>
    Throttle.fails_le (by decide) (throttle_run hm) (by rw [hboot]; exact Nat.zero_le 5)
  have hstreak : ∀ {m v}, (webSystem b).Run s m v →
      v.atomics.throttle.fails = Throttle.streak 5 0 (m.filterMap WebRequest.attempt) :=
    fun hm => by rw [Throttle.fails_eq_streak (throttle_run hm), hboot]
  refine ⟨⟨hstreak hrun, hle hrun⟩, ?_, ?_, ?_⟩
  · rintro l₁ e l₂ rfl hfailed hfive e' he' hwithin
    obtain ⟨u, hu, hrest⟩ := hrun.exists_of_append
    cases hrest with
    | @cons _ v _ _ _ hstep hv =>
      -- the counter is the streak, so it is full after the failure that makes it five
      have hfull : v.atomics.throttle.fails = 5 :=
        (hstreak (hu.append (.cons hstep (.nil v)))).trans hfive
      refine refused_while_locked hv hfull.ge he' ?_
      rwa [failLast_of_failed hstep hfailed]
  · intro u e v hstep hreply
    have hsim := (lockout_simulation b).step u e v hstep
    rw [WebRequest.attempt, hreply] at hsim
    exact ⟨congrArg Throttle.State.fails hsim.2, congrArg Throttle.State.last hsim.2⟩
  · rintro l₁ l₂ l₃ lo rfl hno hwithin
    obtain ⟨u, hu, hrest⟩ := hrun.exists_of_append
    -- the stretch is a run of its own, which may begin with any count up to five
    obtain ⟨v, hv, -⟩ := hrest.exists_of_append
    exact countP_failed_le hv (hle hu) hno hwithin

/-- A login as `admin`. -/
def loginAs (now : ℕ) (pass : String) (reply : Reply) : WebRequest where
  socket := .a
  readings := Readings.at now
  buf := asBytes ("POST /login HTTP/1.1\r\n\r\nuser=admin&pass=".toList ++ pass.toList)
  reply := reply

/-- Four logins with a wrong password, in seconds 1 to 4. -/
def wrongLogins : List WebRequest :=
  [1, 2, 3, 4].map fun now => loginAs now "guess" (.rejectedForm false)

/-- The fifth, which locks. -/
def fifthLogin : WebRequest := loginAs 5 "guess" (.rejectedForm true)

/-- The right password while the lock lasts. -/
def lockedLogin : WebRequest := loginAs 6 "secret" .lockedForm

/-- The right password when the lock is over. -/
def lateLogin : WebRequest := loginAs 65 "secret" (.loginRedirect 9283179969320373180)

/-- The server after failed logins. -/
def serverAfter (fails : UInt32) (last clock : ℕ) : Server :=
  ⟨{ WebState.boot with failCount := fails, failLast := UInt32.ofNat last }, clock⟩

/-- The server after `lateLogin`. -/
def serverUnlocked : Server :=
  ⟨((serverAfter 0 5 65).atomics.storeToken 9283179969320373180).storeCreated 65, 65⟩

/-- The lock-out over five failed logins: the right password is refused in second 6, which
changes neither counter, and accepted in second 65. -/
theorem login_lockout_fiveFailures :
    (serverUnlocked.atomics.failCount.toNat = Throttle.streak 5 0
        ((wrongLogins ++ [fifthLogin, lockedLogin, lateLogin]).filterMap WebRequest.attempt) ∧
      serverUnlocked.atomics.failCount.toNat ≤ 5) ∧
    (lockedLogin.failed = false ∧ lockedLogin.loggedIn = false) ∧
    ((serverAfter 5 5 6).atomics.failCount.toNat = (serverAfter 5 5 5).atomics.failCount.toNat ∧
      (serverAfter 5 5 6).atomics.failLast.toNat = (serverAfter 5 5 5).atomics.failLast.toNat) ∧
    (wrongLogins ++ [fifthLogin, lockedLogin]).countP WebRequest.failed ≤ 5 := by
  have hlock : (webSystem adminBoot).step (serverAfter 5 5 5) lockedLogin (serverAfter 5 5 6) :=
    ⟨by decide, by decide, by decide +kernel, rfl⟩
  have hrun : (webSystem adminBoot).Run (serverAfter 0 0 0)
      (wrongLogins ++ [fifthLogin, lockedLogin, lateLogin]) serverUnlocked :=
    .cons (t := serverAfter 1 1 1) ⟨by decide, by decide, by decide +kernel, rfl⟩ <|
    .cons (t := serverAfter 2 2 2) ⟨by decide, by decide, by decide +kernel, rfl⟩ <|
    .cons (t := serverAfter 3 3 3) ⟨by decide, by decide, by decide +kernel, rfl⟩ <|
    .cons (t := serverAfter 4 4 4) ⟨by decide, by decide, by decide +kernel, rfl⟩ <|
    .cons (t := serverAfter 5 5 5) ⟨by decide, by decide, by decide +kernel, rfl⟩ <|
    .cons hlock <|
    .cons (t := serverUnlocked) ⟨by decide, by decide, by decide +kernel, rfl⟩ (.nil _)
  obtain ⟨hcount, hlocked, hrefused, hstretch⟩ :=
    login_lockout adminBoot (s := serverAfter 0 0 0) rfl hrun
  refine ⟨hcount, ?_, hrefused _ _ _ hlock rfl, ?_⟩
  · exact hlocked wrongLogins fifthLogin [lockedLogin, lateLogin] rfl rfl (by decide) lockedLogin
      (by simp) (by decide)
  · exact hstretch [] (wrongLogins ++ [fifthLogin, lockedLogin]) [lateLogin] 1 rfl (by decide)
      (by decide)

end Jzf407
