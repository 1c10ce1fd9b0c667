import Jzf407.Web.EventStream

/-!
# Streams and the end of their session

A request for an event stream is checked like any other, so a stream begins under a live session
(`AcceptedLive`). From then on the loop looks at nothing but the outputs and its clock: the session
may be dropped, replaced or left idle, and the stream goes on (`event_after_logout`).

`streamSystem` remembers the era of the session in which each stream was accepted, so that it can
say which streams have outlived their session (`EndedAt`). A stream that has done so stays so as
long as it lasts (`StaysEnded`): a later login begins another era, and brings none back.

Such a stream sends no event exactly as long as it has sent its first one and what it samples does
not change. `UnchangedAfterEnd` is the condition, on what is sampled and on the phase of the
socket, and `quietAfterEnd_iff` the equivalence for one step. `ended_quiet_iff` has all three, for
every run of the two sockets with a login required. What must be known of the state for the first
two is in `Consistent`: the eras are counted upwards, and the second of the last refresh is never
behind the one that is stored.
-/

namespace Jzf407

open Foundation

namespace StreamNet

variable {b : Boot} {s t : StreamNet} {e : StreamEvent}

/-- The session of an era has ended: a login or a log-out has begun another era, or no request has
refreshed it for more than its idle limit. -/
def Ended (s : StreamNet) (era : ℕ) : Prop :=
  era < s.era ∨ s.refreshed + sessionTtlSecs < s.seconds

/-- The socket is in a stream whose session has ended. -/
def EndedAt (s : StreamNet) (k : Socket) : Prop :=
  ∃ era, (s.phase k).era = some era ∧ s.Ended era

/-- **What a step begins to write** on a socket in a stream, after its head. -/
def sends (s : StreamNet) : StreamEvent → Option (Socket × StreamWrite)
  | .headWritten k true now =>
      match s.phase k with
      | .opening _ => some (k, .event now)
      | _ => none
  | .sample k now =>
      match s.phase k with
      | .waiting _ last nextKeepalive _ =>
          (sampleWrite last now nextKeepalive s.ticks).map (k, ·)
      | _ => none
  | _ => none

/-- No event is sent in a stream whose session has ended. -/
def QuietAfterEnd (s : StreamNet) (e : StreamEvent) : Prop :=
  ∀ k now, s.sends e = some (k, .event now) → ¬ s.EndedAt k

/-- **A stream whose session has ended finds nothing to report**: its head was written before, and
what it samples is what it sent last. -/
def UnchangedAfterEnd (s : StreamNet) (e : StreamEvent) : Prop :=
  ∀ k, s.EndedAt k →
    (∀ now, e ≠ .headWritten k true now) ∧ ∀ now, e = .sample k now → (s.phase k).last = some now

/-- A sample is sent exactly when it differs from the last event. -/
theorem sampleWrite_eq_event_iff {last now x : Snapshot} (nextKeepalive ticks : ℕ) :
    sampleWrite last now nextKeepalive ticks = some (.event x) ↔ now ≠ last ∧ now = x := by
  unfold sampleWrite
  by_cases hsame : now = last
  · rw [if_neg (not_not.mpr hsame)]
    constructor
    · intro h
      split at h <;> cases h
    · rintro ⟨hne, -⟩
      exact absurd hsame hne
  · rw [if_pos hsame]
    simp [hsame]

/-- **One step** sends nothing past the end of a session exactly when nothing has changed. -/
theorem quietAfterEnd_iff (h : s.step b e = some t) :
    s.QuietAfterEnd e ↔ s.UnchangedAfterEnd e := by
  cases moves_of_step h with
  | request | written | wait => simp [QuietAfterEnd, UnchangedAfterEnd, sends]
  -- the first event is sent whatever it is, so the head must have been written before
  | @headWritten k ok now era hphase =>
    cases ok with
    | false => simp [QuietAfterEnd, UnchangedAfterEnd, sends]
    | true =>
      have hsends : s.sends (.headWritten k true now) = some (k, .event now) := by
        rw [sends, hphase]
      constructor
      · intro hquiet j hended
        refine ⟨fun x hx => ?_, nofun⟩
        obtain ⟨rfl, -⟩ : k = j ∧ _ := by simpa using hx
        exact hquiet k now hsends hended
      · intro hsame j x hx hended
        obtain ⟨rfl, -⟩ : k = j ∧ _ := by simpa [hsends] using hx
        exact (hsame k hended).1 now rfl
  -- a sample is sent exactly when it differs from the last event
  | @sample k now last era nextKeepalive due hphase =>
    have hsends : s.sends (.sample k now) =
        (sampleWrite last now nextKeepalive s.ticks).map (k, ·) := by
      rw [sends, hphase]
    have hlast : (s.phase k).last = some last := by
      rw [hphase]
      rfl
    constructor
    · intro hquiet j hended
      refine ⟨nofun, fun x hx => ?_⟩
      obtain ⟨rfl, rfl⟩ : k = j ∧ now = x := by simpa using hx
      rw [hlast]
      by_contra hne
      have hevent : sampleWrite last now nextKeepalive s.ticks = some (.event now) :=
        (sampleWrite_eq_event_iff nextKeepalive s.ticks).mpr
          ⟨fun hnow => hne (congrArg some hnow.symm), rfl⟩
      exact hquiet k now (by rw [hsends, hevent]; rfl) hended
    · intro hsame j x hx hended
      rw [hsends] at hx
      obtain ⟨w, hw, hpair⟩ := Option.map_eq_some_iff.mp hx
      obtain ⟨rfl, rfl⟩ := Prod.mk.inj hpair
      have hnow := (hsame k hended).2 now rfl
      obtain ⟨hne, -⟩ := (sampleWrite_eq_event_iff nextKeepalive s.ticks).mp hw
      exact hne (Option.some.inj (hlast.symm.trans hnow)).symm

/-! ### The session of a stream -/

/-- What holds in every state of a run: the second of the last refresh is never behind the stored
one, and no stream was accepted in an era to come. -/
structure Consistent (s : StreamNet) : Prop where
  created_le : s.atomics.token ≠ 0 → s.atomics.created.toNat ≤ s.refreshed
  era_le : ∀ k era, (s.phase k).era = some era → era ≤ s.era

theorem consistent_boot : boot.Consistent where
  created_le h := absurd rfl h
  era_le k era h := by cases h

/-- What a request does to the session, in a run with a login required. -/
theorem sessionStep_of_request (hauth : authRequired b.cfg = true) {r : WebRequest}
    {atomics : WebState}
    (hserve : serveRequest (b.pool r.socket) s.atomics r.readings r.buf = .ok (r.reply, atomics)) :
    SessionStep r s.atomics atomics :=
  sessionStep_of_served (by rw [Boot.authRequired_pool, hauth]) (served_of_serveRequest hserve)

theorem toNat_ofNat_le (n : ℕ) : (UInt32.ofNat n).toNat ≤ n := by
  rw [UInt32.toNat_ofNat']
  exact Nat.mod_le _ _

theorem era_le_nextEra (s : StreamNet) (r : WebRequest) : s.era ≤ s.nextEra r := by
  unfold nextEra
  split <;> omega

/-- A request keeps the two seconds in order. -/
theorem created_le_nextRefreshed (hs : s.Consistent) {r : WebRequest} {atomics : WebState}
    (h : SessionStep r s.atomics atomics) (hstored : atomics.token ≠ 0) :
    atomics.created.toNat ≤ s.nextRefreshed r := by
  unfold nextRefreshed
  cases h with
  | login hreply _ hcreated =>
    rw [hcreated, if_pos (by rw [WebRequest.loggedIn, hreply])]
    exact toNat_ofNat_le _
  | logOut _ htoken => exact absurd htoken hstored
  | used hreply _ hlive _ _ _ hcreated =>
    have hlogin : r.loggedIn = false := by rw [WebRequest.loggedIn, hreply]
    have hrouted : r.reply.isRouted = true := by rw [hreply, Reply.isRouted]
    rw [hcreated, hlogin, hrouted]
    cases r.visit.refreshes with
    | true => exact toNat_ofNat_le _
    | false => exact hs.created_le hlive
  | expired _ _ _ _ htoken => exact absurd htoken hstored
  | untouched hrouted hlogin _ htoken hcreated =>
    rw [hcreated, hlogin, hrouted]
    exact hs.created_le (by rwa [← htoken])

/-- A socket keeps its phase through a request, unless the request opens a stream on it. -/
theorem phase_afterRequest (s : StreamNet) (r : WebRequest) (atomics : WebState) (k : Socket) :
    (s.afterRequest r atomics).phase k = s.phase k ∨
      (s.afterRequest r atomics).phase k = .opening (s.nextEra r) ∧ k = r.socket := by
  by_cases hstream : r.reply = .routed .eventStream
  · rw [phase_afterRequest_of_stream s atomics hstream]
    rcases eq_or_eq_other k r.socket with rfl | rfl
    · exact .inr ⟨Function.update_self .., rfl⟩
    · exact .inl (Function.update_of_ne (other_ne r.socket) ..)
  · exact .inl (congrFun (phase_afterRequest_of_ne s atomics hstream) k)

/-- A socket keeps its era while a socket moves within its stream; one that leaves it has none. -/
theorem era_setPhase {k : Socket} {p : StreamPhase} (hp : p = .serving ∨ p.era = (s.phase k).era)
    (j : Socket) :
    (s.setPhase k p).phase j = .serving ∨ ((s.setPhase k p).phase j).era = (s.phase j).era := by
  rcases eq_or_eq_other j k with rfl | rfl
  · rwa [phase_setPhase_self]
  · rw [phase_setPhase_other]
    exact .inr rfl

/-- **What a step does besides a request**: one socket moves within its stream or leaves it, or
time passes. -/
theorem moved_of_step (h : s.step b e = some t) (hrequest : ∀ r, e ≠ .request r) :
    (∃ k p, (p = .serving ∨ p.era = (s.phase k).era) ∧ t = s.setPhase k p) ∨
      ∃ ticks, t = { s with ticks := s.ticks + ticks } := by
  cases moves_of_step h with
  | request => exact absurd rfl (hrequest _)
  | @headWritten k ok now era hphase =>
    refine .inl ⟨k, _, ?_, rfl⟩
    rw [hphase]
    cases ok with
    | true => exact .inr rfl
    | false => exact .inl rfl
  | @written k ok era last hphase =>
    refine .inl ⟨k, _, ?_, rfl⟩
    rw [hphase]
    cases ok with
    | true => exact .inr rfl
    | false => exact .inl rfl
  | @sample k now last era nextKeepalive due hphase _ p hp =>
    refine .inl ⟨k, p, .inr ?_, rfl⟩
    rw [hp, hphase]
    rfl
  | wait ticks => exact .inr ⟨ticks, rfl⟩

theorem consistent_step (hauth : authRequired b.cfg = true) (hs : s.Consistent)
    (h : s.step b e = some t) : t.Consistent := by
  by_cases hrequest : ∃ r, e = .request r
  · obtain ⟨r, rfl⟩ := hrequest
    cases moves_of_step h with
    | @request _ atomics hphase _ hserve =>
      refine ⟨created_le_nextRefreshed hs (sessionStep_of_request hauth hserve), ?_⟩
      intro k era hera
      obtain hsame | ⟨hopened, -⟩ := phase_afterRequest s r atomics k
      · rw [hsame] at hera
        exact (hs.era_le k era hera).trans (era_le_nextEra s r)
      · rw [hopened] at hera
        exact (Option.some.inj hera).ge
  · obtain ⟨k, p, hp, rfl⟩ | ⟨ticks, rfl⟩ := moved_of_step h (not_exists.mp hrequest)
    · refine ⟨hs.created_le, fun j era hera => ?_⟩
      rcases era_setPhase hp j with hserving | hsame
      · rw [hserving] at hera
        cases hera
      · exact hs.era_le j era (hsame.symm.trans hera)
    · exact ⟨hs.created_le, hs.era_le⟩

/-- **A stream is accepted under a live session**: it presents the stored token, at most 900
seconds after the last refresh, and belongs to the present era. -/
def AcceptedLive (s : StreamNet) (e : StreamEvent) (t : StreamNet) : Prop :=
  ∀ r, e = .request r → r.reply = .routed .eventStream →
    s.atomics.token ≠ 0 ∧ r.visit.presented = some s.atomics.token ∧
      r.readings.validate ≤ s.refreshed + sessionTtlSecs ∧ t.phase r.socket = .opening s.era ∧
      t.era = s.era

theorem acceptedLive_step (hauth : authRequired b.cfg = true) (hs : s.Consistent)
    (h : s.step b e = some t) : s.AcceptedLive e t := by
  rintro r rfl hstream
  cases moves_of_step h with
  | @request _ atomics _ _ hserve =>
    have hera : s.nextEra r = s.era := if_neg (by simp [WebRequest.loggedIn, hstream])
    cases sessionStep_of_request hauth hserve with
    | used _ _ hlive hpresented hidle =>
      have hcreated := hs.created_le hlive
      refine ⟨hlive, hpresented, by omega, ?_, hera⟩
      rw [phase_afterRequest_of_stream s atomics hstream, Function.update_self, hera]
    | login hreply | logOut hreply =>
      rw [hstream] at hreply
      cases hreply
    | expired hrouted | untouched hrouted =>
      rw [hstream] at hrouted
      cases hrouted

/-! ### A session that has ended stays ended -/

/-- The session of a stream that has ended ends no later, while the stream goes on. -/
theorem ended_afterRequest (hs : s.Consistent) {r : WebRequest} {atomics : WebState}
    (hclock : s.seconds ≤ r.readings.validate) (h : SessionStep r s.atomics atomics) {era : ℕ}
    (hera : era ≤ s.era) (hended : s.Ended era) : (s.afterRequest r atomics).Ended era := by
  have hseconds : s.seconds ≤ (s.afterRequest r atomics).seconds :=
    Nat.div_le_div_right (le_max_left ..)
  obtain hpast | hidle := hended
  · exact .inl (hpast.trans_le (era_le_nextEra s r))
  have hrefreshed : (s.afterRequest r atomics).refreshed = s.nextRefreshed r := rfl
  unfold nextRefreshed at hrefreshed
  cases h with
  | login hreply =>
    left
    change era < s.nextEra r
    rw [nextEra, if_pos (by simp [WebRequest.loggedIn, hreply])]
    omega
  | logOut hreply =>
    left
    change era < s.nextEra r
    rw [nextEra, if_pos (by simp [hreply])]
    omega
  | used _ _ hlive _ hnear =>
    -- the session is not accepted any more
    have hcreated := hs.created_le hlive
    omega
  | expired hrouted hlogin =>
    rw [hlogin, hrouted] at hrefreshed
    exact .inr (by rw [hrefreshed]; exact hidle.trans_le hseconds)
  | untouched hrouted hlogin =>
    rw [hlogin, hrouted] at hrefreshed
    exact .inr (by rw [hrefreshed]; exact hidle.trans_le hseconds)

/-- A stream that has outlived its session stays so as long as it lasts. -/
def StaysEnded (s t : StreamNet) : Prop :=
  ∀ k, s.EndedAt k → t.phase k = .serving ∨ t.EndedAt k

theorem staysEnded_step (hauth : authRequired b.cfg = true) (hs : s.Consistent)
    (h : s.step b e = some t) : s.StaysEnded t := by
  rintro k ⟨era, hera, hended⟩
  by_cases hrequest : ∃ r, e = .request r
  · obtain ⟨r, rfl⟩ := hrequest
    cases moves_of_step h with
    | @request _ atomics hphase hclock hserve =>
      right
      refine ⟨era, ?_, ended_afterRequest hs hclock (sessionStep_of_request hauth hserve)
        (hs.era_le k era hera) hended⟩
      obtain hsame | ⟨-, rfl⟩ := phase_afterRequest s r atomics k
      · rw [hsame, hera]
      · rw [hphase] at hera
        cases hera
  · obtain ⟨j, p, hp, rfl⟩ | ⟨ticks, rfl⟩ := moved_of_step h (not_exists.mp hrequest)
    · obtain hserving | hsame := era_setPhase hp k
      · exact .inl hserving
      · exact .inr ⟨era, hsame.trans hera, hended⟩
    · refine .inr ⟨era, hera, hended.imp_right fun hidle => ?_⟩
      exact hidle.trans_le (Nat.div_le_div_right (Nat.le_add_right ..))

end StreamNet

/-- **Streams and their sessions**, in every run of the two sockets with a login required. A stream
is accepted only under a live session, and a session that has ended stays ended. A stream whose
session has ended sends no event exactly as long as it has nothing new to report. -/
theorem ended_quiet_iff (b : Boot) (hauth : authRequired b.cfg = true) (l : List StreamEvent) :
    (streamSystem b).Throughout (fun s e t => s.AcceptedLive e t ∧ s.StaysEnded t) l ∧
      ((streamSystem b).Throughout (fun s e _ => s.QuietAfterEnd e) l ↔
        (streamSystem b).Throughout (fun s e _ => s.UnchangedAfterEnd e) l) := by
  constructor
  · intro l₁ e l₂ s₀ s t _ hinit hrun hstep
    obtain rfl : s₀ = StreamNet.boot := hinit
    have hs : s.Consistent :=
      System.Run.invariant (P := StreamNet.Consistent)
        (fun _ _ _ hs hstep => StreamNet.consistent_step hauth hs hstep) hrun
        StreamNet.consistent_boot
    exact ⟨StreamNet.acceptedLive_step hauth hs hstep, StreamNet.staysEnded_step hauth hs hstep⟩
  · exact System.throughout_iff (I := fun _ => True) (fun _ _ => trivial)
      (fun _ _ _ _ _ _ => trivial) fun _ _ _ _ hstep => StreamNet.quietAfterEnd_iff hstep

/-- A login, a stream, and a log-out on the other socket; then LED 1 is switched on. -/
def logOutDuringStream : List StreamEvent :=
  [.request adminLogin,
    .request (adminRequest .a 1 "GET /events" (.routed .eventStream)),
    .headWritten .a true ⟨false, false, false, true, true⟩,
    .written .a true,
    .request (adminRequest .b 1 "POST /logout" (.routed .logOut)),
    .wait pollTicks]

/-- The stream of that run is accepted under the session of the login, which stays ended after the
log-out. -/
theorem ended_quiet_iff_logout :
    (streamSystem adminBoot).Throughout (fun s e t => s.AcceptedLive e t ∧ s.StaysEnded t)
      logOutDuringStream :=
  (ended_quiet_iff adminBoot rfl logOutDuringStream).1

/-- The stream reports LED 1 after the log-out. -/
theorem event_after_logout :
    ¬ ∀ (b : Boot) (l : List StreamEvent) (s t : StreamNet) (e : StreamEvent) (k : Socket)
      (x : Snapshot), authRequired b.cfg = true → (streamSystem b).Run StreamNet.boot l s →
      (streamSystem b).step s e t → s.sends e = some (k, .event x) → ¬ s.EndedAt k := by
  intro h
  let e : StreamEvent := .sample .a ⟨false, true, false, true, true⟩
  have hreport : (logOutDuringStream.foldlM (StreamNet.step adminBoot) StreamNet.boot).any fun s =>
      (s.step adminBoot e).isSome ∧ (s.phase .a).era = some 1 ∧ 1 < s.era ∧
        s.sends e = some (.a, .event ⟨false, true, false, true, true⟩) := by
    decide +kernel
  obtain ⟨s, hsteps, hfacts⟩ := (Option.any_eq_true ..).mp hreport
  obtain ⟨henabled, hera, hended, hsends⟩ := of_decide_eq_true hfacts
  obtain ⟨t, hstep⟩ := Option.isSome_iff_exists.mp henabled
  have hrun : (streamSystem adminBoot).Run StreamNet.boot logOutDuringStream s :=
    .of_foldlM (fun _ _ _ h => h) hsteps
  exact h adminBoot _ s t e .a _ rfl hrun hstep hsends ⟨1, hera, .inl hended⟩

end Jzf407
