import Jzf407.Foundation.Spacing
import Jzf407.System.MqttTrace

/-!
# How often the device sends

Three rates of the MQTT task. Connections are tried at least a second apart, whatever becomes of
them (`attempts_le`). On a connection the heartbeats are at least ten seconds apart, and
the keep-alive pings are at most one a second and one more for each heartbeat
(`sending_rates`): a timer that is cut short by a heartbeat is followed by that heartbeat.

The attempts are bounded by the wait after each of them. Every way out of a connection leads to it,
and `MqttTask.Tries` has the one thing that must be known in every phase: when the last attempt
was, and that a second has passed once the wait is over.

The other two are about one connection. `MqttTask.Rates` keeps the heartbeats `Spaced`, which the
next heartbeat is set for (`MqttTask.InTurn`), and the pings paid for (`MqttTask.Paid`): a second
of the connection or a heartbeat for each. A ping is sent when the timer of the select goes off. If
the timer ran for a second, that second pays. If it was shorter, the next heartbeat is due when the
ping ends, and pays for it at the top of the loop; in between one payment is owed. So the number of
pings is bounded although the timer of the source begins anew with every packet.
-/

namespace Jzf407

open Foundation

namespace MqttTask

variable {t t' : MqttTask} {now : ℕ}

/-! ### What the steps leave alone -/

@[simp]
theorem attempts_loopTop (t : MqttTask) (now : ℕ) : (t.loopTop now).attempts = t.attempts := by
  unfold loopTop
  split <;> rfl

@[simp]
theorem since_loopTop (t : MqttTask) (now : ℕ) : (t.loopTop now).since = now := by
  unfold loopTop
  split <;> rfl

@[simp]
theorem isOnline_loopTop (t : MqttTask) (now : ℕ) : (t.loopTop now).phase.isOnline = true := by
  unfold loopTop
  split <;> rfl

@[simp]
theorem attempts_subscribeAll (t : MqttTask) (now n : ℕ) :
    (t.subscribeAll now n).attempts = t.attempts := by
  unfold subscribeAll
  split
  · rfl
  · exact attempts_loopTop _ now

@[simp]
theorem since_subscribeAll (t : MqttTask) (now n : ℕ) : (t.subscribeAll now n).since = now := by
  unfold subscribeAll
  split
  · rfl
  · exact since_loopTop _ now

@[simp]
theorem isOnline_subscribeAll (t : MqttTask) (now n : ℕ) :
    (t.subscribeAll now n).phase.isOnline = true := by
  unfold subscribeAll
  split
  · rfl
  · exact isOnline_loopTop _ now

/-- A message leaves the attempts alone. -/
theorem handleEvent_keeps (t : MqttTask) (now : ℕ) (p : Publish) :
    (t.handleEvent now p).attempts = t.attempts ∧ (t.handleEvent now p).since = now ∧
      (t.handleEvent now p).phase.isOnline = true := by
  have hloop : ((t.note now (.received p)).loopTop now).attempts = t.attempts ∧
      ((t.note now (.received p)).loopTop now).since = now ∧
      ((t.note now (.received p)).loopTop now).phase.isOnline = true :=
    ⟨attempts_loopTop _ now, since_loopTop _ now, isOnline_loopTop _ now⟩
  unfold handleEvent
  dsimp only
  split
  · exact hloop
  · split <;> first | exact hloop | exact ⟨rfl, rfl, rfl⟩

/-! ### Attempts -/

/-- **The invariant of the attempts.** -/
structure Tries (t : MqttTask) (now : ℕ) : Prop where
  since_le : t.since ≤ now
  spaced : Spaced second t.attempts
  le_since : ∀ a ∈ t.attempts, a ≤ t.since
  retry : ∀ d, t.phase = .retrying d → ∀ a ∈ t.attempts, a + second ≤ d
  waiting : t.phase = .waitNetwork → t.attempts = []

theorem tries_boot (cfg : NetworkConfig) (reason : ResetReason) (now : ℕ) :
    (boot cfg reason now).Tries now where
  since_le := Nat.le_refl now
  spaced := .nil
  le_since := by simp [boot]
  retry := by simp [boot]
  waiting _ := rfl

/-- A step that neither tries a connection nor gives one up. -/
theorem Tries.keep (h : t.Tries now) (hattempts : t'.attempts = t.attempts)
    (hsince : t'.since = now) (hphase : t'.phase = .handshake ∨ t'.phase.isOnline = true) :
    t'.Tries now where
  since_le := Nat.le_of_eq hsince
  spaced := hattempts ▸ h.spaced
  le_since a ha := hsince ▸ (h.le_since a (hattempts ▸ ha)).trans h.since_le
  retry d hd := by
    rw [hd] at hphase
    simp [MqttPhase.isOnline] at hphase
  waiting hwait := by
    rw [hwait] at hphase
    simp [MqttPhase.isOnline] at hphase

/-- A connection is tried a second after the last one. -/
theorem Tries.connect (h : t.Tries now) (hlast : ∀ a ∈ t.attempts, a + second ≤ now) :
    (t.connect now).Tries now where
  since_le := Nat.le_refl now
  spaced := h.spaced.concat fun a ha => hlast a (List.mem_of_getLast? ha)
  le_since a ha := by
    rcases List.mem_append.mp ha with ha | ha
    · exact (h.le_since a ha).trans h.since_le
    · exact Nat.le_of_eq (List.mem_singleton.mp ha)
  retry d hd := by cases hd
  waiting hwait := by cases hwait

theorem Tries.retryLater (h : t.Tries now) : (t.retryLater now).Tries now where
  since_le := Nat.le_refl now
  spaced := h.spaced
  le_since a ha := (h.le_since a ha).trans h.since_le
  retry d hd a ha := by
    obtain rfl : now + second = d := MqttPhase.retrying.inj hd
    exact Nat.add_le_add_right ((h.le_since a ha).trans h.since_le) second
  waiting hwait := by cases hwait

theorem Tries.resumes {a : Await} (h : t.Tries now) (hresumes : t.Resumes now a t') :
    t'.Tries now := by
  cases hresumes with
  | networkUp hphase => exact h.connect (by simp [h.waiting hphase])
  | retry hphase hdue => exact h.connect fun a ha => (h.retry _ hphase a ha).trans hdue
  | tcpError | connackError => exact h.retryLater
  | lost =>
    have hoff : { t with online := false }.Tries now :=
      ⟨h.since_le, h.spaced, h.le_since, h.retry, h.waiting⟩
    exact hoff.retryLater
  | tcp => exact h.keep rfl rfl (.inl rfl)
  | connack | status | heartbeat | header | timer => exact h.keep rfl rfl (.inr rfl)
  | diag | subscribed =>
    exact h.keep (attempts_subscribeAll t now _) (since_subscribeAll t now _)
      (.inr (isOnline_subscribeAll t now _))
  | turn =>
    exact h.keep (attempts_loopTop t now) (since_loopTop t now) (.inr (isOnline_loopTop t now))

end MqttTask

theorem MqttTask.Tries.step {s : MqttNet} {e : MqttEvent} {t : MqttTask} {now : ℕ}
    (h : s.task.Tries s.now) (hstep : s.TaskStep e t now) : t.Tries now := by
  cases hstep with
  | wait ticks =>
    exact ⟨h.since_le.trans (Nat.le_add_right _ _), h.spaced, h.le_since, h.retry, h.waiting⟩
  | aside => exact h
  | resumes hresumes => exact h.resumes hresumes
  | change => exact h.keep rfl rfl (.inr rfl)
  | message p =>
    obtain ⟨hattempts, hsince, honline⟩ := s.task.handleEvent_keeps s.now p
    exact h.keep hattempts hsince (.inr honline)
  | reset cfg reason => exact MqttTask.tries_boot cfg reason s.now

theorem tries_of_reachable {s : MqttNet} (h : mqttSystem.Reachable s) : s.task.Tries s.now := by
  apply h.invariant (P := fun s => s.task.Tries s.now)
  · rintro _ ⟨cfg, reason, rfl⟩
    exact MqttTask.tries_boot cfg reason 0
  · intro s e s' hs hstep
    exact hs.step (MqttNet.taskStep_of_step hstep)

/-- **Connections are tried at most once a second**: in any stretch of time since the boot there
is at most one attempt more than seconds fit into it. -/
theorem attempts_le {s : MqttNet} (h : mqttSystem.Reachable s) {lo hi : ℕ} (hle : lo ≤ hi) :
    lo + s.task.attempts.countP (fun a => decide (lo ≤ a ∧ a ≤ hi)) * second ≤ hi + second :=
  (tries_of_reachable h).spaced.countP_mul_le hle

/-- An attempt that fails, and the next one. -/
theorem attempts_le_retry :
    ∃ s, mqttSystem.Reachable s ∧ s.task.attempts = [0, second] ∧
      0 + s.task.attempts.countP (fun a => decide (0 ≤ a ∧ a ≤ second)) * second ≤
        second + second := by
  obtain ⟨s, hs, hcheck⟩ := System.Reachable.exists_of_foldlM (S := mqttSystem)
    (l := [.await .networkUp, .await (.tcp false), .wait second, .await .retry])
    (fun _ _ _ _ hstep => hstep) ⟨.default, .powerOn, rfl⟩
    (P := fun s => decide (s.task.attempts = [0, second])) (by decide +kernel)
  exact ⟨s, hs, of_decide_eq_true hcheck, attempts_le hs (Nat.zero_le second)⟩

/-! ### Heartbeats and keep-alive pings -/

/-- A heartbeat. -/
def Entry.isHeartbeat : Entry → Bool
  | .sent (.publish topic _ _) => topic == topicHeartbeat
  | _ => false

/-- A keep-alive ping. -/
def Entry.isPingreq : Entry → Bool
  | .sent .pingreq => true
  | _ => false

namespace MqttTask

/-- The times of the entries of a kind. -/
def times (p : Entry → Bool) (t : MqttTask) : List ℕ := (t.log.filter fun x => p x.2).map Prod.fst

/-- The times of the heartbeats and of the keep-alive pings on the current connection. -/
def heartbeats (t : MqttTask) : List ℕ := t.times Entry.isHeartbeat
def pings (t : MqttTask) : List ℕ := t.times Entry.isPingreq

/-- The time at which the current connection was tried. -/
def tried (t : MqttTask) : ℕ := t.attempts.getLastD 0

variable {t t' : MqttTask} {now : ℕ}

theorem times_note_of_true {p : Entry → Bool} {e : Entry} (he : p e = true) :
    (t.note now e).times p = t.times p ++ [now] := by
  simp [times, note, he]

theorem times_note_of_false {p : Entry → Bool} {e : Entry} (he : p e = false) :
    (t.note now e).times p = t.times p := by
  simp [times, note, he]

/-- The pings are paid for by the time since the connection was tried, and by the heartbeats. -/
def Paid (t : MqttTask) (slack : ℕ) : Prop :=
  t.tried + t.pings.length * second ≤ t.since + t.heartbeats.length * second + slack

/-- What holds of the rates in every phase. -/
structure Rates (t : MqttTask) (now : ℕ) : Prop where
  since_le : t.since ≤ now
  tried_le : t.tried ≤ t.since
  spaced : Spaced heartbeatInterval t.heartbeats
  from_tried : ∀ a ∈ t.heartbeats, t.tried + heartbeatInterval ≤ a
  le_since : ∀ a ∈ t.heartbeats, a ≤ t.since
  paid : t.Paid second

/-- The next heartbeat is an interval after the last one, and a ping that its timer came too
early for is paid for by it. -/
structure InTurn (t : MqttTask) : Prop where
  next : ∀ a ∈ t.heartbeats, a + heartbeatInterval ≤ t.nextHeartbeat
  next_tried : t.tried + heartbeatInterval ≤ t.nextHeartbeat
  paid : t.Paid 0 ∨ t.nextHeartbeat ≤ t.since

/-- What holds of the rates in a phase. -/
def PhaseRates (t : MqttTask) : Prop :=
  match t.phase with
  | .connecting | .handshake | .status | .diag | .subscribing _ =>
      t.heartbeats = [] ∧ t.pings = []
  | .heartbeat began => (∀ a ∈ t.heartbeats, a ≤ began) ∧ t.tried ≤ began ∧ t.Paid 0
  | .selecting deadline =>
      t.InTurn ∧ t.Paid 0 ∧ deadline = t.since + min (t.nextHeartbeat - t.since) second
  | .reading | .saving | .pong | .reporting _ | .pinging => t.InTurn
  | _ => True

theorem Paid.mono {slack : ℕ} (h : t.Paid slack) (htried : t'.tried = t.tried)
    (hheartbeats : t'.heartbeats = t.heartbeats) (hpings : t'.pings = t.pings)
    (hsince : t.since ≤ t'.since) : t'.Paid slack := by
  unfold Paid at *
  rw [htried, hheartbeats, hpings]
  omega

theorem Paid.weaken (h : t.Paid 0) : t.Paid second := by
  unfold Paid at *
  omega

/-- A step that sends neither a heartbeat nor a keep-alive ping. -/
theorem Rates.keep (h : t.Rates now) (htried : t'.tried = t.tried)
    (hheartbeats : t'.heartbeats = t.heartbeats) (hpings : t'.pings = t.pings)
    (hsince : t'.since = now) : t'.Rates now where
  since_le := Nat.le_of_eq hsince
  tried_le := by rw [htried, hsince]; exact h.tried_le.trans h.since_le
  spaced := hheartbeats ▸ h.spaced
  from_tried a ha := htried ▸ h.from_tried a (hheartbeats ▸ ha)
  le_since a ha := hsince ▸ (h.le_since a (hheartbeats ▸ ha)).trans h.since_le
  paid := h.paid.mono htried hheartbeats hpings (hsince ▸ h.since_le)

theorem InTurn.keep (h : t.InTurn) (htried : t'.tried = t.tried)
    (hheartbeats : t'.heartbeats = t.heartbeats) (hpings : t'.pings = t.pings)
    (hnext : t'.nextHeartbeat = t.nextHeartbeat) (hsince : t.since ≤ t'.since) : t'.InTurn where
  next a ha := hnext ▸ h.next a (hheartbeats ▸ ha)
  next_tried := by rw [htried, hnext]; exact h.next_tried
  paid := by
    rcases h.paid with hpaid | hdue
    · exact .inl (hpaid.mono htried hheartbeats hpings hsince)
    · exact .inr (hnext ▸ hdue.trans hsince)

/-- A heartbeat that is due. -/
theorem Rates.handHeartbeat (h : t.Rates now) (hin : t.InTurn) (hdue : t.nextHeartbeat ≤ now) :
    (t.hand now (publishQos0 topicHeartbeat (asBytes "1".toList)) (.heartbeat now)).Rates now ∧
      (t.hand now (publishQos0 topicHeartbeat (asBytes "1".toList))
        (.heartbeat now)).PhaseRates := by
  set t' := t.hand now (publishQos0 topicHeartbeat (asBytes "1".toList)) (.heartbeat now)
  have hheartbeats : t'.heartbeats = t.heartbeats ++ [now] :=
    times_note_of_true (beq_self_eq_true topicHeartbeat)
  have hpings : t'.pings = t.pings := times_note_of_false rfl
  have htried : t'.tried = t.tried := rfl
  have hnow : t'.since = now := rfl
  -- the new heartbeat pays for the ping that may still be owed
  have hpaid : t'.Paid 0 := by
    have := h.paid
    have := h.since_le
    unfold Paid at *
    rw [hheartbeats, hpings, htried, hnow, List.length_append, List.length_singleton, Nat.succ_mul]
    omega
  have hle : ∀ a ∈ t'.heartbeats, a ≤ now := by
    intro a ha
    rw [hheartbeats] at ha
    rcases List.mem_append.mp ha with ha | ha
    · exact (h.le_since a ha).trans h.since_le
    · exact Nat.le_of_eq (List.mem_singleton.mp ha)
  -- the top of the loop hands it over at `nextHeartbeat` or later, an interval after the last one
  refine ⟨{
    since_le := Nat.le_refl now
    tried_le := h.tried_le.trans h.since_le
    spaced := ?_
    from_tried := ?_
    le_since := hle
    paid := hpaid.weaken }, hle, h.tried_le.trans h.since_le, hpaid⟩
  · rw [hheartbeats]
    exact h.spaced.concat fun a ha => (hin.next a (List.mem_of_getLast? ha)).trans hdue
  · intro a ha
    rw [hheartbeats] at ha
    rcases List.mem_append.mp ha with ha | ha
    · exact h.from_tried a ha
    · rw [List.mem_singleton.mp ha]
      exact hin.next_tried.trans hdue

/-- **The top of the loop.** -/
theorem Rates.loopTop (h : t.Rates now) (hin : t.InTurn) :
    (t.loopTop now).Rates now ∧ (t.loopTop now).PhaseRates := by
  unfold MqttTask.loopTop
  split
  · next hdue => exact h.handHeartbeat hin hdue
  · next hdue =>
    have hsince := h.since_le
    have hpaid : t.Paid 0 := hin.paid.resolve_right (by omega)
    exact ⟨h.keep rfl rfl rfl rfl, hin.keep rfl rfl rfl rfl h.since_le,
      hpaid.mono rfl rfl rfl h.since_le, rfl⟩

/-- The connected loop begins with a heartbeat an interval ahead. -/
theorem Rates.subscribeAll (h : t.Rates now) (hnone : t.heartbeats = [] ∧ t.pings = []) (n : ℕ) :
    (t.subscribeAll now n).Rates now ∧ (t.subscribeAll now n).PhaseRates := by
  unfold MqttTask.subscribeAll
  split
  · exact ⟨h.keep rfl (times_note_of_false rfl) (times_note_of_false rfl) rfl,
      (times_note_of_false rfl).trans hnone.1, (times_note_of_false rfl).trans hnone.2⟩
  · have hin : { t with nextHeartbeat := now + heartbeatInterval }.InTurn := {
      next := fun a ha => absurd ha (hnone.1 ▸ List.not_mem_nil)
      next_tried := Nat.add_le_add_right (h.tried_le.trans h.since_le) heartbeatInterval
      paid := .inl (by
        change t.tried + t.pings.length * second ≤ t.since + t.heartbeats.length * second + 0
        rw [hnone.1, hnone.2]
        simpa using h.tried_le) }
    exact Rates.loopTop (t := { t with nextHeartbeat := now + heartbeatInterval })
      ⟨h.since_le, h.tried_le, h.spaced, h.from_tried, h.le_since, h.paid⟩ hin

/-- A new connection starts without any. -/
theorem rates_connect (t : MqttTask) (now : ℕ) : (t.connect now).Rates now where
  since_le := Nat.le_refl now
  tried_le := by simp [tried, MqttTask.connect]
  spaced := .nil
  from_tried := by simp [heartbeats, times, MqttTask.connect]
  le_since := by simp [heartbeats, times, MqttTask.connect]
  paid := by simp [Paid, tried, heartbeats, pings, times, MqttTask.connect]

theorem rates_boot (cfg : NetworkConfig) (reason : ResetReason) (now : ℕ) :
    (boot cfg reason now).Rates now where
  since_le := Nat.le_refl now
  tried_le := Nat.zero_le now
  spaced := .nil
  from_tried := by simp [heartbeats, times, boot]
  le_since := by simp [heartbeats, times, boot]
  paid := by simp [Paid, tried, heartbeats, pings, times, boot]

/-- A keep-alive ping, when the timer has expired. -/
theorem Rates.handPing {deadline : ℕ} (h : t.Rates now) (hin : t.InTurn) (hpaid : t.Paid 0)
    (hdeadline : deadline = t.since + min (t.nextHeartbeat - t.since) second)
    (hdue : deadline ≤ now) :
    (t.hand now .pingreq .pinging).Rates now ∧ (t.hand now .pingreq .pinging).PhaseRates := by
  set t' := t.hand now .pingreq .pinging
  have hheartbeats : t'.heartbeats = t.heartbeats := times_note_of_false rfl
  have hpings : t'.pings = t.pings ++ [now] := times_note_of_true rfl
  have htried : t'.tried = t.tried := rfl
  have hnow : t'.since = now := rfl
  have hsince := h.since_le
  have hcost : t.tried + (t.pings.length + 1) * second ≤ now + t.heartbeats.length * second ∨
      t.nextHeartbeat ≤ now := by
    unfold Paid at hpaid
    rw [Nat.succ_mul]
    -- the timer ran for a whole second, or up to the next heartbeat
    rcases Nat.le_total second (t.nextHeartbeat - t.since) with hle | hle
    · rw [Nat.min_eq_right hle] at hdeadline
      exact .inl (by omega)
    · rw [Nat.min_eq_left hle] at hdeadline
      exact .inr (by omega)
  have hpaid' : t'.Paid 0 ∨ t'.nextHeartbeat ≤ t'.since := by
    refine hcost.imp (fun hcost => ?_) id
    unfold Paid
    rw [hheartbeats, hpings, htried, hnow, List.length_append, List.length_singleton]
    exact hcost.trans (Nat.le_add_right _ 0)
  refine ⟨{
    since_le := Nat.le_refl now
    tried_le := h.tried_le.trans h.since_le
    spaced := hheartbeats ▸ h.spaced
    from_tried := fun a ha => h.from_tried a (hheartbeats ▸ ha)
    le_since := fun a ha => (h.le_since a (hheartbeats ▸ ha)).trans h.since_le
    paid := ?_ }, ⟨fun a ha => hin.next a (hheartbeats ▸ ha), hin.next_tried, hpaid'⟩⟩
  unfold Paid at hpaid ⊢
  rw [hheartbeats, hpings, htried, hnow, List.length_append, List.length_singleton, Nat.succ_mul]
  omega

theorem Rates.resumes {a : Await} (h : t.Rates now) (hphase : t.PhaseRates)
    (hresumes : t.Resumes now a t') : t'.Rates now ∧ t'.PhaseRates := by
  unfold PhaseRates at hphase
  cases hresumes with
  | networkUp | retry => exact ⟨rates_connect t now, rfl, rfl⟩
  | tcpError | connackError | lost => exact ⟨h.keep rfl rfl rfl rfl, trivial⟩
  | tcp hp | connack hp | status hp =>
    rw [hp] at hphase
    exact ⟨h.keep rfl (times_note_of_false rfl) (times_note_of_false rfl) rfl,
      (times_note_of_false rfl).trans hphase.1, (times_note_of_false rfl).trans hphase.2⟩
  | diag hp | subscribed hp =>
    rw [hp] at hphase
    exact h.subscribeAll hphase _
  -- the next one is set from the time at which this one began, not from its end
  | @heartbeat _ began hp =>
    rw [hp] at hphase
    obtain ⟨hle, htried, hpaid⟩ := hphase
    have hpaid' : ({ t with nextHeartbeat := began + heartbeatInterval }.select now).Paid 0 :=
      hpaid.mono rfl rfl rfl h.since_le
    exact ⟨h.keep rfl rfl rfl rfl, ⟨fun a ha => Nat.add_le_add_right (hle a ha) heartbeatInterval,
      Nat.add_le_add_right htried heartbeatInterval, .inl hpaid'⟩, hpaid', rfl⟩
  | header hp =>
    rw [hp] at hphase
    exact ⟨h.keep rfl rfl rfl rfl, hphase.1.keep rfl rfl rfl rfl h.since_le⟩
  | timer hp hdue =>
    rw [hp] at hphase
    exact h.handPing hphase.1 hphase.2.1 hphase.2.2 hdue
  | turn hp =>
    refine h.loopTop ?_
    cases hcases : t.phase <;> simp only [hcases, MqttPhase.EndsTurn] at hp hphase <;> exact hphase

/-- A message, with the answer to it. -/
theorem Rates.handleEvent (h : t.Rates now) (hin : t.InTurn) (p : Publish) :
    (t.handleEvent now p).Rates now ∧ (t.handleEvent now p).PhaseRates := by
  have hnote : (t.note now (.received p)).heartbeats = t.heartbeats ∧
      (t.note now (.received p)).pings = t.pings :=
    ⟨times_note_of_false rfl, times_note_of_false rfl⟩
  -- a message is recorded, and neither a heartbeat nor a ping is handed over
  have hstay : ∀ phase, ((t.note now (.received p)).goto now phase).Rates now ∧
      ((t.note now (.received p)).goto now phase).InTurn := fun phase =>
    ⟨h.keep rfl hnote.1 hnote.2 rfl, hin.keep rfl hnote.1 hnote.2 rfl h.since_le⟩
  have hloop : ((t.note now (.received p)).loopTop now).Rates now ∧
      ((t.note now (.received p)).loopTop now).PhaseRates := by
    refine Rates.loopTop ⟨h.since_le, h.tried_le, hnote.1 ▸ h.spaced, fun a ha => ?_,
      fun a ha => h.le_since a (hnote.1 ▸ ha),
      h.paid.mono rfl hnote.1 hnote.2 (Nat.le_refl _)⟩
      (hin.keep rfl hnote.1 hnote.2 rfl (Nat.le_refl _))
    exact h.from_tried a (hnote.1 ▸ ha)
  unfold MqttTask.handleEvent
  dsimp only
  split
  · exact hloop
  · split
    · exact hstay .saving
    · exact hstay .saving
    · exact hstay .saving
    · have hpong : Entry.isHeartbeat
          (.sent (publishQos0 topicPong (asBytes "1".toList))) = false :=
        (by decide : (topicPong == topicHeartbeat) = false)
      exact ⟨h.keep rfl ((times_note_of_false hpong).trans hnote.1)
        ((times_note_of_false rfl).trans hnote.2) rfl,
        hin.keep rfl ((times_note_of_false hpong).trans hnote.1)
          ((times_note_of_false rfl).trans hnote.2) rfl h.since_le⟩
    · exact ⟨(hstay .rebooting).1, trivial⟩
    · exact hloop
    · exact hloop
    · exact hloop

end MqttTask

theorem MqttTask.Rates.step {s : MqttNet} {e : MqttEvent} {t : MqttTask} {now : ℕ}
    (h : s.task.Rates s.now) (hphase : s.task.PhaseRates) (hstep : s.TaskStep e t now) :
    t.Rates now ∧ t.PhaseRates := by
  cases hstep with
  | wait ticks =>
    exact ⟨⟨h.since_le.trans (Nat.le_add_right _ _), h.tried_le, h.spaced, h.from_tried,
      h.le_since, h.paid⟩, hphase⟩
  | aside => exact ⟨h, hphase⟩
  | resumes hresumes => exact h.resumes hphase hresumes
  | change hp =>
    rw [MqttTask.PhaseRates, hp] at hphase
    have hreport : ∀ relayOn,
        Entry.isHeartbeat (.sent (publishQos0 topicRelay (relayPayload relayOn))) = false :=
      fun _ => (by decide : (topicRelay == topicHeartbeat) = false)
    exact ⟨h.keep rfl (MqttTask.times_note_of_false (hreport _))
      (MqttTask.times_note_of_false rfl) rfl, hphase.1.keep rfl
      (MqttTask.times_note_of_false (hreport _)) (MqttTask.times_note_of_false rfl) rfl h.since_le⟩
  | message p hp =>
    rw [MqttTask.PhaseRates, hp] at hphase
    exact h.handleEvent hphase p
  | reset cfg reason =>
    exact ⟨MqttTask.rates_boot cfg reason s.now, trivial⟩

theorem rates_of_reachable {s : MqttNet} (h : mqttSystem.Reachable s) :
    s.task.Rates s.now ∧ s.task.PhaseRates := by
  apply h.invariant (P := fun s => s.task.Rates s.now ∧ s.task.PhaseRates)
  · rintro _ ⟨cfg, reason, rfl⟩
    exact ⟨MqttTask.rates_boot cfg reason 0, trivial⟩
  · intro s e s' hs hstep
    exact hs.1.step hs.2 (MqttNet.taskStep_of_step hstep)

/-- **How often the device sends** on a connection. In any stretch of time there is at most one
heartbeat more than intervals fit into it; since the connection was tried there are at most as
many as intervals, and at most as many keep-alive pings as seconds and heartbeats, and one. -/
theorem sending_rates {s : MqttNet} (h : mqttSystem.Reachable s) :
    (∀ lo hi, lo ≤ hi → lo + s.task.heartbeats.countP (fun a => decide (lo ≤ a ∧ a ≤ hi)) *
      heartbeatInterval ≤ hi + heartbeatInterval) ∧
    s.task.tried + s.task.heartbeats.length * heartbeatInterval ≤ s.now ∧
    s.task.tried + s.task.pings.length * second ≤
      s.now + (s.task.heartbeats.length + 1) * second := by
  have hrates := (rates_of_reachable h).1
  refine ⟨fun lo hi hle => hrates.spaced.countP_mul_le hle, ?_, ?_⟩
  · by_cases hroom : s.task.tried + heartbeatInterval ≤ s.now
    · have := hrates.spaced.length_mul_le hrates.from_tried
        (fun a ha => (hrates.le_since a ha).trans hrates.since_le) hroom
      omega
    · have hnil : s.task.heartbeats = [] := List.eq_nil_iff_forall_not_mem.mpr fun a ha =>
        hroom ((hrates.from_tried a ha).trans ((hrates.le_since a ha).trans hrates.since_le))
      rw [hnil, List.length_nil, Nat.zero_mul]
      exact hrates.tried_le.trans hrates.since_le
  · have hpaid := hrates.paid
    have hsince := hrates.since_le
    rw [MqttTask.Paid] at hpaid
    rw [Nat.succ_mul]
    omega

/-- A connection with one keep-alive ping, a second after it was tried. -/
theorem sending_rates_oneConnection :
    ∃ s, mqttSystem.Reachable s ∧ s.task.pings.length = 1 ∧
      s.task.tried + s.task.pings.length * second ≤
        s.now + (s.task.heartbeats.length + 1) * second := by
  obtain ⟨s, hs, hcheck⟩ := exists_oneConnection (P := fun s =>
    decide (s.task.pings.length = 1)) (by decide +kernel)
  exact ⟨s, hs, of_decide_eq_true hcheck, (sending_rates hs).2.2⟩

end Jzf407
