import Jzf407.System.MqttPace

/-!
# The keep-alive

The CONNECT announces a keep-alive of 120 seconds, and the task takes no measure of its own to
keep it: incoming packets cut its timer short, so the keep-alive pings may fail to come for as long
as packets come. What there is instead is the heartbeat, which goes before any select.

How long the task hands over nothing depends on how long its awaits take. `Prompt` bounds them: a
timer goes off, and an operation ends, at most `D` late (`MqttTask.due`). Then at most ten seconds
and four times `D` lie between the starts of two calls, and with the socket timeout of thirty
seconds for `D` that is less than one and a half keep-alives (`keepAlive_kept`).

The invariant `MqttTask.Fresh` knows how far the start of a phase may lie behind the last call:
nothing for a phase that begins with a call, an interval and `D` for the end of a select, and a
further `D` for each await that may come after it without a call, which is reading a message and
saving the LEDs (`MqttTask.PhaseFresh`). `fresh_loopTop` is where this would go wrong without the
heartbeat: the select begins only while the next heartbeat is ahead.

This is a statement about the calls of the task. A heartbeat that fails is ignored, so it says
nothing of what has reached the broker.
-/

namespace Jzf407

open Foundation

/-- A packet handed to the client. -/
def Entry.isSent : Entry → Bool
  | .sent _ => true
  | .received _ => false

namespace MqttPhase

/-- The phases from the CONNECT until the connection is given up. -/
def isLinked : MqttPhase → Bool
  | waitNetwork | connecting | retrying _ | rebooting => false
  | _ => true

theorem EndsTurn.isLinked {p : MqttPhase} (h : p.EndsTurn) : p.isLinked = true := by
  cases p <;> first | rfl | cases h

end MqttPhase

namespace MqttTask

/-- The time at which the last packet was handed over. -/
def lastSent (t : MqttTask) : Option ℕ := (t.times Entry.isSent).getLast?

/-- When the await of the task is due: when its timer goes off, or else when it began. A network
and a connection may take their time. -/
def due (t : MqttTask) : Option ℕ :=
  match t.phase with
  | .waitNetwork | .connecting => none
  | .selecting deadline | .retrying deadline => some deadline
  | _ => some t.since

end MqttTask

/-- Time passes only as long as the await of the task is at most `D` overdue. -/
def Prompt (D : ℕ) (s : MqttNet) : MqttEvent → Prop
  | .wait ticks => ∀ d ∈ s.task.due, s.now + ticks ≤ d + D
  | _ => True

instance (D : ℕ) (s : MqttNet) (e : MqttEvent) : Decidable (Prompt D s e) :=
  match e with
  | .wait ticks => inferInstanceAs (Decidable (∀ d ∈ s.task.due, s.now + ticks ≤ d + D))
  | .await _ | .takeChange | .deliver _ | .message _ | .relayTask | .clientPublish _ _
  | .forward _ | .loseReport _ | .loseMessage _ | .reset _ _ => .isTrue trivial

namespace MqttTask

variable {t t' : MqttTask} {D now : ℕ}

/-- The next heartbeat is due soon after the last packet. -/
def Ahead (D : ℕ) (t : MqttTask) (last : ℕ) : Prop :=
  t.nextHeartbeat ≤ last + heartbeatInterval + D

/-- How far the start of a phase may lie behind the last packet. -/
def PhaseFresh (D : ℕ) (t : MqttTask) (last : ℕ) : Prop :=
  match t.phase with
  | .handshake | .status | .diag | .subscribing _ => t.since = last
  | .heartbeat began => t.since = last ∧ began = last
  | .pong | .reporting _ | .pinging => t.since = last ∧ t.Ahead D last
  | .selecting deadline => deadline ≤ last + heartbeatInterval + D ∧ t.Ahead D last
  | .reading => t.since ≤ last + heartbeatInterval + 2 * D ∧ t.Ahead D last
  | .saving => t.since ≤ last + heartbeatInterval + 3 * D ∧ t.Ahead D last
  | _ => True

/-- **The invariant of the keep-alive.** -/
structure Fresh (D : ℕ) (t : MqttTask) (now : ℕ) : Prop where
  since_le : t.since ≤ now
  in_time : ∀ d ∈ t.due, now ≤ d + D
  last : t.phase.isLinked = true → ∃ last, t.lastSent = some last ∧ last ≤ t.since ∧
    t.PhaseFresh D last

theorem lastSent_note_sent (t : MqttTask) (now : ℕ) (p : Packet) :
    (t.note now (.sent p)).lastSent = some now := by
  rw [lastSent, times_note_of_true rfl, List.getLast?_concat]

theorem lastSent_note_received (t : MqttTask) (now : ℕ) (p : Publish) :
    (t.note now (.received p)).lastSent = t.lastSent := by
  rw [lastSent, times_note_of_false rfl, lastSent]

/-- A phase that has just begun is in time. -/
theorem in_time_of_since (hsince : t.since = now) (htimer : ∀ d, t.phase = .selecting d ∨
    t.phase = .retrying d → now ≤ d) : ∀ d ∈ t.due, now ≤ d + D := by
  intro d hd
  refine Nat.le_add_right_of_le ?_
  unfold due at hd
  split at hd
  · cases hd
  · cases hd
  · next hphase => exact Option.some.inj hd ▸ htimer _ (.inl hphase)
  · next hphase => exact Option.some.inj hd ▸ htimer _ (.inr hphase)
  · exact Option.some.inj hd ▸ Nat.le_of_eq hsince.symm

/-- Handing a packet over. -/
theorem fresh_hand {p : Packet} {phase : MqttPhase}
    (htimer : ∀ d, phase ≠ .selecting d ∧ phase ≠ .retrying d)
    (hphase : (t.hand now p phase).PhaseFresh D now) : (t.hand now p phase).Fresh D now where
  since_le := Nat.le_refl now
  in_time := in_time_of_since rfl fun d hd =>
    (hd.elim (htimer d).1 (htimer d).2).elim
  last _ := ⟨now, lastSent_note_sent t now p, Nat.le_refl now, hphase⟩

/-- Going on without a packet. -/
theorem fresh_goto {phase : MqttPhase} {last : ℕ} (hlast : t.lastSent = some last)
    (hle : last ≤ now) (htimer : ∀ d, phase = .selecting d ∨ phase = .retrying d → now ≤ d)
    (hphase : (t.goto now phase).PhaseFresh D last) : (t.goto now phase).Fresh D now where
  since_le := Nat.le_refl now
  in_time := in_time_of_since rfl htimer
  last _ := ⟨last, hlast, hle, hphase⟩

/-- A phase in which nothing is promised. -/
theorem fresh_unlinked (hsince : t.since = now) (hphase : t.phase.isLinked = false)
    (htimer : ∀ d, t.phase = .retrying d → now ≤ d) : t.Fresh D now where
  since_le := Nat.le_of_eq hsince
  in_time := in_time_of_since hsince fun d hd => by
    rcases hd with hd | hd
    · rw [hd] at hphase
      cases hphase
    · exact htimer d hd
  last hlinked := by
    rw [hphase] at hlinked
    cases hlinked

/-- The select, with a heartbeat ahead. -/
theorem fresh_select {last : ℕ} (hlast : t.lastSent = some last) (hle : last ≤ now)
    (hahead : t.Ahead D last) (hnow : now ≤ last + heartbeatInterval + D) :
    (t.select now).Fresh D now := by
  refine fresh_goto hlast hle (fun d hd => ?_) ⟨?_, hahead⟩
  · rcases hd with hd | hd
    · obtain rfl := MqttPhase.selecting.inj hd
      exact Nat.le_add_right now _
    · cases hd
  · unfold Ahead at hahead
    omega

/-- **The top of the loop**: the select only before the next heartbeat. -/
theorem fresh_loopTop {last : ℕ} (hlast : t.lastSent = some last) (hle : last ≤ now)
    (hahead : t.Ahead D last) : (t.loopTop now).Fresh D now := by
  unfold loopTop
  split
  · exact fresh_hand (by simp) ⟨rfl, rfl⟩
  · next hnext =>
    refine fresh_select hlast hle hahead ?_
    unfold Ahead at hahead
    omega

theorem fresh_subscribeAll {last : ℕ} (hlast : t.lastSent = some last) (hle : last ≤ now)
    (hnow : now ≤ last + D) (n : ℕ) : (t.subscribeAll now n).Fresh D now := by
  unfold subscribeAll
  split
  · exact fresh_hand (by simp) rfl
  · refine fresh_loopTop (t := { t with nextHeartbeat := now + heartbeatInterval }) hlast hle ?_
    change now + heartbeatInterval ≤ last + heartbeatInterval + D
    omega

/-- At the end of a turn there is a last packet, with a heartbeat ahead. -/
theorem Fresh.endsTurn (h : t.Fresh D now) (hturn : t.phase.EndsTurn) :
    ∃ last, t.lastSent = some last ∧ last ≤ now ∧ t.Ahead D last := by
  obtain ⟨last, hlast, hle, hphase⟩ := h.last hturn.isLinked
  refine ⟨last, hlast, hle.trans h.since_le, ?_⟩
  unfold PhaseFresh at hphase
  cases hp : t.phase <;> simp only [hp, MqttPhase.EndsTurn] at hturn hphase <;> exact hphase.2

theorem Fresh.resumes {a : Await} (h : t.Fresh D now) (hresumes : t.Resumes now a t') :
    t'.Fresh D now := by
  have hin := h.in_time
  unfold due at hin
  cases hresumes with
  | networkUp | retry => exact fresh_unlinked rfl rfl (by simp [MqttTask.connect])
  | tcpError | connackError | lost =>
    refine fresh_unlinked rfl rfl fun d hd => ?_
    obtain rfl := MqttPhase.retrying.inj hd
    exact Nat.le_add_right now second
  | tcp | connack | status => exact fresh_hand (by simp) rfl
  -- the preamble hands over a packet with every await
  | diag hp | subscribed hp =>
    obtain ⟨last, hlast, hle, hphase⟩ := h.last (by rw [hp]; rfl)
    rw [PhaseFresh, hp] at hphase
    rw [hp] at hin
    exact fresh_subscribeAll hlast (hle.trans h.since_le) (hphase ▸ hin _ rfl) _
  | @heartbeat _ began hp =>
    obtain ⟨last, hlast, hle, hphase⟩ := h.last (by rw [hp]; rfl)
    rw [PhaseFresh, hp] at hphase
    rw [hp] at hin
    obtain ⟨hsince, rfl⟩ := hphase
    have hnow := hin _ rfl
    refine fresh_select (t := { t with nextHeartbeat := began + heartbeatInterval }) hlast
      (hle.trans h.since_le) (Nat.le_add_right _ D) ?_
    omega
  -- the timer of the select was set before the next heartbeat
  | header hp =>
    obtain ⟨last, hlast, hle, hphase⟩ := h.last (by rw [hp]; rfl)
    rw [PhaseFresh, hp] at hphase
    rw [hp] at hin
    have hnow := hin _ rfl
    refine fresh_goto hlast (hle.trans h.since_le) (by simp) ⟨?_, hphase.2⟩
    change now ≤ _
    omega
  | timer hp hdue =>
    obtain ⟨last, hlast, hle, hphase⟩ := h.last (by rw [hp]; rfl)
    rw [PhaseFresh, hp] at hphase
    refine fresh_hand (by simp) ⟨rfl, ?_⟩
    exact hphase.2.trans (by have := hle.trans h.since_le; omega)
  | turn hp =>
    obtain ⟨last, hlast, hle, hahead⟩ := h.endsTurn hp
    exact fresh_loopTop hlast hle hahead

/-- A message that has been read, with the answer to it. -/
theorem Fresh.handleEvent (h : t.Fresh D now) (hp : t.phase = .reading) (p : Publish) :
    (t.handleEvent now p).Fresh D now := by
  have hin := h.in_time
  rw [due, hp] at hin
  obtain ⟨last, hlast, hle, hphase⟩ := h.last (by rw [hp]; rfl)
  rw [PhaseFresh, hp] at hphase
  have hnow := hin _ rfl
  have hnoted : (t.note now (.received p)).lastSent = some last :=
    (lastSent_note_received t now p).trans hlast
  have hle := hle.trans h.since_le
  have hloop : ((t.note now (.received p)).loopTop now).Fresh D now :=
    fresh_loopTop hnoted hle hphase.2
  have hsaving : ((t.note now (.received p)).goto now .saving).Fresh D now := by
    refine fresh_goto hnoted hle (by simp) ⟨?_, hphase.2⟩
    change now ≤ _
    omega
  unfold MqttTask.handleEvent
  dsimp only
  -- only a ping is answered at once; saving an LED takes one more await without a packet
  split
  · exact hloop
  · split
    · exact hsaving
    · exact hsaving
    · exact hsaving
    · refine fresh_hand (by simp) ⟨rfl, ?_⟩
      exact hphase.2.trans (by omega)
    · exact fresh_unlinked rfl rfl (by simp [goto])
    · exact hloop
    · exact hloop
    · exact hloop

end MqttTask

variable {D : ℕ}

theorem MqttTask.Fresh.step {s : MqttNet} {e : MqttEvent} {t : MqttTask} {now : ℕ}
    (h : s.task.Fresh D s.now) (hprompt : Prompt D s e) (hstep : s.TaskStep e t now) :
    t.Fresh D now := by
  cases hstep with
  | wait ticks => exact ⟨h.since_le.trans (Nat.le_add_right _ _), hprompt, h.last⟩
  | aside => exact h
  | resumes hresumes => exact h.resumes hresumes
  | change hp =>
    obtain ⟨last, hlast, hle, hphase⟩ := h.last (by rw [hp]; rfl)
    rw [MqttTask.PhaseFresh, hp] at hphase
    refine MqttTask.fresh_hand (by simp) ⟨rfl, ?_⟩
    exact hphase.2.trans (by have := hle.trans h.since_le; omega)
  | message p hp => exact h.handleEvent hp p
  | reset cfg reason => exact MqttTask.fresh_unlinked rfl rfl (by simp [MqttTask.boot])

theorem fresh_of_reachable {s : MqttNet} (h : (mqttSystem.guarded (Prompt D)).Reachable s) :
    s.task.Fresh D s.now := by
  apply h.invariant (P := fun s => s.task.Fresh D s.now)
  · rintro _ ⟨cfg, reason, rfl⟩
    exact MqttTask.fresh_unlinked rfl rfl (by simp [MqttNet.boot, MqttTask.boot])
  · rintro s e s' hs ⟨hprompt, hstep⟩
    exact hs.step hprompt (MqttNet.taskStep_of_step hstep)

/-- **The task never stops handing over packets**: while its awaits end at most `D` late, the last
call of a connection is at most a heartbeat interval and four times `D` old, from the CONNECT until
the connection is given up. With the timeout of the socket for `D` that is less than one and a half
of the keep-alives that the CONNECT announces. -/
theorem keepAlive_kept {s : MqttNet} (h : (mqttSystem.guarded (Prompt D)).Reachable s)
    (hlinked : s.task.phase.isLinked = true) :
    ∃ last, s.task.lastSent = some last ∧ last ≤ s.now ∧
      s.now ≤ last + heartbeatInterval + 4 * D ∧
      (D ≤ 30 * second →
        2 * (s.now - last) < 3 * ((buildConnectOptions s.task.cfg).keepAlive * second)) := by
  have hfresh := fresh_of_reachable h
  have hin := hfresh.in_time
  obtain ⟨last, hlast, hle, hphase⟩ := hfresh.last hlinked
  have hage : s.now ≤ last + heartbeatInterval + 4 * D := by
    unfold MqttTask.PhaseFresh at hphase
    unfold MqttTask.due at hin
    cases hp : s.task.phase <;> simp only [hp, MqttPhase.isLinked, Option.mem_some_iff,
      forall_eq', Bool.false_eq_true] at hin hphase hlinked <;> omega
  refine ⟨last, hlast, hle.trans hfresh.since_le, hage, fun hD => ?_⟩
  change 2 * (s.now - last) < 3 * (120 * second)
  unfold heartbeatInterval second at *
  omega

/-- A connection whose awaits take no time, with the timeout of the socket for `D`. -/
theorem keepAlive_kept_oneConnection :
    ∃ s, (mqttSystem.guarded (Prompt (30 * second))).Reachable s ∧
      s.task.phase.isLinked = true ∧ ∃ last, s.task.lastSent = some last ∧
        2 * (s.now - last) < 3 * ((buildConnectOptions s.task.cfg).keepAlive * second) := by
  obtain ⟨s, hs, hcheck⟩ := System.Reachable.exists_of_foldlM
    (S := mqttSystem.guarded (Prompt (30 * second))) (l := oneConnection)
    (f := fun s e => if Prompt (30 * second) s e then s.step e else none)
    (fun _ _ _ _ hstep => Option.ite_none_right_eq_some.mp hstep) ⟨.default, .powerOn, rfl⟩
    (P := fun s => s.task.phase.isLinked) (by decide +kernel)
  obtain ⟨last, hlast, -, -, hkept⟩ := keepAlive_kept hs hcheck
  exact ⟨s, hs, hcheck, last, hlast, hkept (Nat.le_refl _)⟩

end Jzf407
