import Jzf407.Web.SessionRun

/-!
# Event streams on the two sockets

`serve_events` of `sse.rs` writes the head of an event stream, an event with a first snapshot of
the outputs (`Snapshot`), and from then on samples them every 150 milliseconds: a changed snapshot
is pushed as an event, and 15 seconds without a write are filled by a keep-alive (`sampleWrite`).
The loop ends only when a write fails, and until then its socket accepts no other connection.

`streamSystem` is the two sockets over the session atomics (`StreamNet`). A socket that is not in a
stream serves requests, one whole request at a step; the steps of a stream are the ends of its
writes and its samples, and the steps of the other socket come anywhere between them
(`StreamEvent`). The phase of a socket (`StreamPhase`) says what its stream waits for, and in which
era of the session it was accepted; the eras are counted here and nowhere in the device.
`StreamNet.Moves` is what a step can be, with the phases that it moves between.

Nothing keeps the second socket out of a stream while the first is in one. Some socket is left
to serve requests exactly as long as no stream is accepted while there is another
(`one_serving_iff`): a socket goes into a stream by a request only, and out of it by a write that
fails, so it is enough to look at the requests (`oneServing_step_iff`). Two tabs of one browser
leave no socket (`no_socket_left`).
-/

namespace Jzf407

open Foundation

/-! ### One stream -/

/-- The ticks of the clock in a second, and the two periods of the stream in ticks. -/
def ticksPerSec : ℕ := 1000000
def pollTicks : ℕ := 150 * 1000
def keepaliveTicks : ℕ := 15 * ticksPerSec

/-- What a stream samples. -/
structure Snapshot where
  relay : Bool
  led1 : Bool
  led2 : Bool
  link : Bool
  mqtt : Bool
  deriving DecidableEq, Repr

/-- What a stream writes after its head. -/
inductive StreamWrite
  | event (s : Snapshot)
  | keepalive
  deriving DecidableEq, Repr

/-- **What the loop does with a sample**: push it when it differs from the last one, and fill a
long silence. -/
def sampleWrite (last now : Snapshot) (nextKeepalive ticks : ℕ) : Option StreamWrite :=
  if now ≠ last then some (.event now)
  else if nextKeepalive ≤ ticks then some .keepalive
  else none

/-- Where a socket is: serving requests, or in a stream that was accepted in some era of the
session. A stream writes its head, writes an event or a keep-alive, or waits for its timer. -/
inductive StreamPhase
  | serving
  | opening (era : ℕ)
  | writing (era : ℕ) (last : Snapshot)
  | waiting (era : ℕ) (last : Snapshot) (nextKeepalive due : ℕ)
  deriving DecidableEq, Repr

/-- The era of the session in which the stream of the socket was accepted. -/
def StreamPhase.era : StreamPhase → Option ℕ
  | .serving => none
  | .opening era => some era
  | .writing era _ => some era
  | .waiting era _ _ _ => some era

/-- The snapshot of the last event of the stream. -/
def StreamPhase.last : StreamPhase → Option Snapshot
  | .serving => none
  | .opening _ => none
  | .writing _ last => some last
  | .waiting _ last _ _ => some last

/-! ### Two sockets -/

/-- The other socket of the pool. -/
def Socket.other : Socket → Socket
  | .a => .b
  | .b => .a

/-- The session atomics, the clock in ticks, and the phases of the two sockets. The era counts the
logins and log-outs served, and `refreshed` is the second of the last login or of the last
request that was accepted and renews the session. -/
structure StreamNet where
  atomics : WebState
  ticks : ℕ
  phase : Socket → StreamPhase
  era : ℕ
  refreshed : ℕ

namespace StreamNet

/-- The start of a run. -/
def boot : StreamNet := ⟨WebState.boot, 0, fun _ => .serving, 0, 0⟩

/-- The uptime second. -/
def seconds (s : StreamNet) : ℕ := s.ticks / ticksPerSec

/-- Move a socket to a phase. -/
def setPhase (s : StreamNet) (k : Socket) (p : StreamPhase) : StreamNet :=
  { s with phase := Function.update s.phase k p }

/-- The era after a request: a login or a log-out begins a new one. -/
def nextEra (s : StreamNet) (e : WebRequest) : ℕ :=
  if e.loggedIn ∨ e.reply = .routed .logOut then s.era + 1 else s.era

/-- The second of the last refresh, after a request. -/
def nextRefreshed (s : StreamNet) (e : WebRequest) : ℕ :=
  if e.loggedIn then e.readings.created
  else if e.reply.isRouted && e.visit.refreshes then e.readings.validate
  else s.refreshed

/-- A request was served: the socket goes on serving, or opens a stream. -/
def afterRequest (s : StreamNet) (e : WebRequest) (atomics : WebState) : StreamNet where
  atomics := atomics
  ticks := max s.ticks (e.readings.latest * ticksPerSec)
  phase :=
    if e.reply = .routed .eventStream then
      Function.update s.phase e.socket (.opening (s.nextEra e))
    else s.phase
  era := s.nextEra e
  refreshed := s.nextRefreshed e

end StreamNet

/-- What happens on the two sockets: a request is served, a write of a stream ends, well or with
an error, a stream takes a sample, or time passes. -/
inductive StreamEvent
  | request (e : WebRequest)
  | headWritten (k : Socket) (ok : Bool) (now : Snapshot)
  | written (k : Socket) (ok : Bool)
  | sample (k : Socket) (now : Snapshot)
  | wait (ticks : ℕ)

/-- **One step of the two sockets.** -/
def StreamNet.step (b : Boot) (s : StreamNet) : StreamEvent → Option StreamNet
  | .request e =>
      if s.phase e.socket = .serving ∧ s.seconds ≤ e.readings.validate then
        match serveRequest (b.pool e.socket) s.atomics e.readings e.buf with
        | .ok (reply, atomics) => if reply = e.reply then some (s.afterRequest e atomics) else none
        | .error _ => none
      else none
  | .headWritten k ok now =>
      match s.phase k with
      -- the first event is not compared with anything
      | .opening era => some (s.setPhase k (if ok then .writing era now else .serving))
      | _ => none
  | .written k ok =>
      match s.phase k with
      | .writing era last =>
          some (s.setPhase k
            (if ok then .waiting era last (s.ticks + keepaliveTicks) (s.ticks + pollTicks)
            else .serving))
      | _ => none
  | .sample k now =>
      match s.phase k with
      | .waiting era last nextKeepalive due =>
          if due ≤ s.ticks then
            match sampleWrite last now nextKeepalive s.ticks with
            | some (.event now) => some (s.setPhase k (.writing era now))
            | some .keepalive => some (s.setPhase k (.writing era last))
            | none => some (s.setPhase k (.waiting era last nextKeepalive (s.ticks + pollTicks)))
          else none
      | _ => none
  | .wait ticks => some { s with ticks := s.ticks + ticks }

/-- **The two sockets between two resets.** -/
def streamSystem (b : Boot) : System StreamNet StreamEvent where
  init s := s = StreamNet.boot
  step s e t := s.step b e = some t

/-! ### What a step can do -/

namespace StreamNet

variable {b : Boot} {s t : StreamNet} {e : StreamEvent}

/-- What a step can be, with the phases that it moves between. -/
inductive Moves (b : Boot) (s : StreamNet) : StreamEvent → StreamNet → Prop
  | request {r : WebRequest} {atomics : WebState} (hphase : s.phase r.socket = .serving)
      (hclock : s.seconds ≤ r.readings.validate)
      (hserve : serveRequest (b.pool r.socket) s.atomics r.readings r.buf =
        .ok (r.reply, atomics)) :
      Moves b s (.request r) (s.afterRequest r atomics)
  | headWritten {k : Socket} {ok : Bool} {now : Snapshot} {era : ℕ}
      (hphase : s.phase k = .opening era) :
      Moves b s (.headWritten k ok now)
        (s.setPhase k (if ok then .writing era now else .serving))
  | written {k : Socket} {ok : Bool} {era : ℕ} {last : Snapshot}
      (hphase : s.phase k = .writing era last) :
      Moves b s (.written k ok)
        (s.setPhase k
          (if ok then .waiting era last (s.ticks + keepaliveTicks) (s.ticks + pollTicks)
          else .serving))
  | sample {k : Socket} {now last : Snapshot} {era nextKeepalive due : ℕ}
      (hphase : s.phase k = .waiting era last nextKeepalive due) (hdue : due ≤ s.ticks)
      {p : StreamPhase} (hp : p.era = some era) :
      Moves b s (.sample k now) (s.setPhase k p)
  | wait (ticks : ℕ) : Moves b s (.wait ticks) { s with ticks := s.ticks + ticks }

theorem moves_of_step (h : s.step b e = some t) : s.Moves b e t := by
  cases e with
  | request e =>
    rw [step] at h
    split at h
    · next henabled =>
      split at h
      · next hserve =>
        split at h
        · next hreply =>
          obtain rfl := Option.some.inj h
          rw [hreply] at hserve
          exact .request henabled.1 henabled.2 hserve
        · cases h
      · cases h
    · cases h
  | headWritten k ok now =>
    rw [step] at h
    split at h
    · next hphase =>
      obtain rfl := Option.some.inj h
      exact .headWritten hphase
    · cases h
  | written k ok =>
    rw [step] at h
    split at h
    · next hphase =>
      obtain rfl := Option.some.inj h
      exact .written hphase
    · cases h
  -- pushed, kept alive or silent: the stream stays in its era
  | sample k now =>
    rw [step] at h
    split at h
    · next hphase =>
      split at h
      · next hdue =>
        split at h
        all_goals
          obtain rfl := Option.some.inj h
          exact .sample hphase hdue rfl
      · cases h
    · cases h
  | wait ticks =>
    obtain rfl := Option.some.inj h
    exact .wait ticks

/-! ### A socket that is left -/

/-- Some socket serves requests. -/
def OneServing (s : StreamNet) : Prop := ∃ k, s.phase k = .serving

/-- **A stream is accepted alone**: while the other socket serves requests. -/
def StreamAlone (s : StreamNet) (e : StreamEvent) : Prop :=
  ∀ r, e = .request r → r.reply = .routed .eventStream → s.phase r.socket.other = .serving

theorem eq_or_eq_other (j k : Socket) : j = k ∨ j = k.other := by
  cases j <;> cases k <;> simp [Socket.other]

theorem other_ne (k : Socket) : k.other ≠ k := by
  cases k <;> simp [Socket.other]

/-- A socket has the phase that it is moved to. -/
theorem phase_setPhase_self (s : StreamNet) (k : Socket) (p : StreamPhase) :
    (s.setPhase k p).phase k = p := by
  change Function.update s.phase k p k = p
  rw [Function.update_self]

/-- The other socket keeps its phase. -/
theorem phase_setPhase_other (s : StreamNet) (k : Socket) (p : StreamPhase) :
    (s.setPhase k p).phase k.other = s.phase k.other := by
  change Function.update s.phase k p k.other = s.phase k.other
  rw [Function.update_of_ne (other_ne k)]

/-- A request opens a stream on its own socket. -/
theorem phase_afterRequest_of_stream (s : StreamNet) {r : WebRequest} (atomics : WebState)
    (h : r.reply = .routed .eventStream) :
    (s.afterRequest r atomics).phase =
      Function.update s.phase r.socket (.opening (s.nextEra r)) :=
  if_pos h

/-- Any other request leaves the phases as they are. -/
theorem phase_afterRequest_of_ne (s : StreamNet) {r : WebRequest} (atomics : WebState)
    (h : r.reply ≠ .routed .eventStream) : (s.afterRequest r atomics).phase = s.phase :=
  if_neg h

/-- A socket in a stream that stays in it, or leaves it, takes no serving socket away. -/
theorem OneServing.setPhase (hs : s.OneServing) {k : Socket} {p : StreamPhase}
    (hphase : s.phase k ≠ .serving) : (s.setPhase k p).OneServing := by
  obtain ⟨j, hj⟩ := hs
  rcases eq_or_eq_other j k with rfl | rfl
  · exact absurd hj hphase
  · exact ⟨k.other, (phase_setPhase_other s k p).trans hj⟩

/-- **One step** leaves a serving socket exactly when it accepts no stream beside another. -/
theorem oneServing_step_iff (hs : s.OneServing) (h : s.step b e = some t) :
    t.OneServing ↔ s.StreamAlone e := by
  cases moves_of_step h with
  | @request r atomics hphase =>
    by_cases hstream : r.reply = .routed .eventStream
    · -- the socket of the request is in a stream now, so the other one is left, or none
      have hopened := phase_afterRequest_of_stream s atomics hstream
      have hother := Function.update_of_ne (other_ne r.socket) (.opening (s.nextEra r)) s.phase
      constructor
      · rintro ⟨k, hk⟩ _ he -
        obtain rfl := StreamEvent.request.inj he
        rw [hopened] at hk
        rcases eq_or_eq_other k r.socket with rfl | rfl
        · rw [Function.update_self] at hk
          cases hk
        · rwa [hother] at hk
      · intro halone
        refine ⟨r.socket.other, ?_⟩
        rw [hopened, hother]
        exact halone r rfl hstream
    · have hsame := phase_afterRequest_of_ne s atomics hstream
      refine iff_of_true ⟨r.socket, by rw [hsame, hphase]⟩ fun _ he hreply => ?_
      obtain rfl := StreamEvent.request.inj he
      exact absurd hreply hstream
  | headWritten hphase => exact iff_of_true (hs.setPhase (by simp [hphase])) nofun
  | written hphase => exact iff_of_true (hs.setPhase (by simp [hphase])) nofun
  | sample hphase => exact iff_of_true (hs.setPhase (by simp [hphase])) nofun
  | wait => exact iff_of_true hs nofun

end StreamNet

/-- **When a socket is left**: in a run of the two sockets, one of them serves requests after every
step exactly when every stream is accepted while the other socket serves requests. -/
theorem one_serving_iff (b : Boot) (l : List StreamEvent) :
    (streamSystem b).Throughout (fun _ _ t => t.OneServing) l ↔
      (streamSystem b).Throughout (fun s e _ => s.StreamAlone e) l := by
  refine System.throughout_iff (I := StreamNet.OneServing) ?_ ?_ ?_
  · rintro _ rfl
    exact ⟨.a, rfl⟩
  · intro s e t hs hstep halone
    exact (StreamNet.oneServing_step_iff hs hstep).mpr halone
  · intro s e t hs hstep
    exact StreamNet.oneServing_step_iff hs hstep

/-- A request for an event stream, on a device without a login. -/
def openEvents (k : Socket) : WebRequest where
  socket := k
  readings := Readings.at 0
  buf := asBytes "GET /events HTTP/1.1\r\n\r\n".toList
  reply := .routed .eventStream

/-- Two tabs leave no socket. -/
theorem no_socket_left :
    ¬ ∀ (b : Boot) (l : List StreamEvent) (s : StreamNet),
      (streamSystem b).Run StreamNet.boot l s → s.OneServing := by
  intro h
  let b : Boot := ⟨NetworkConfig.default, 0, 0⟩
  let l : List StreamEvent := [.request (openEvents .a), .request (openEvents .b)]
  have hboth : (l.foldlM (StreamNet.step b) StreamNet.boot).any fun s =>
      s.phase .a ≠ .serving ∧ s.phase .b ≠ .serving := by
    decide +kernel
  obtain ⟨s, hsteps, hfacts⟩ := (Option.any_eq_true ..).mp hboth
  obtain ⟨ha, hb⟩ := of_decide_eq_true hfacts
  have hrun : (streamSystem b).Run StreamNet.boot l s := .of_foldlM (fun _ _ _ h => h) hsteps
  obtain ⟨k, hk⟩ := h b l s hrun
  cases k with
  | a => exact ha hk
  | b => exact hb hk

end Jzf407
