import Jzf407.System.EchoLoop

/-!
# Pulses and reports

The receive path does not tell a report of the device from a command of another client. A
report that comes back after a fresh pulse was asked for therefore cancels that pulse, also
when the broker delivers everything in order (`pulse_cancelled_by_report`).

A run keeps every pulse exactly when each report in it comes back while an `off` is already
pending, or while no command is pending and no pulse runs (`pulses_held_iff`). `PulseHeld` is said
of a step, and has two parts: what the pin shows, and what is due. A pulse is due while it is
pending, or runs with no `off` pending (`RelayNet.PulseDue`); a report is harmless where none is
due (`RelayNet.offHarmless_iff`).

One direction is the invariant `RelayNet.PulseInv`: an `off` that is pending during a pulse comes
from another client. It needs to know when the pulse was taken and what was delivered since
(`History`), because the timer of the relay is a deadline and the `off` may have come before it.
The other direction is that a report always says `off`, which `RelayNet.ReportInv` knows, so that
whatever was due is not due afterwards (`RelayNet.trigger_of_report`).
-/

namespace Jzf407

open Foundation

namespace RelayNet

/-- **The invariant of the pulses**: a pulse ends two seconds after it was taken, and an `off`
that is pending during a pulse comes from another client, after the command that caused the
pulse. -/
structure PulseInv (s : RelayNet) : Prop where
  caused_le : s.history.caused ≤ s.history.delivered.length
  deadline_eq : ∀ d, s.relay.phase = .pulsing d → d = s.history.takenAt + relayPulse
  off_of_other : ∀ d, s.relay.trigger = some .off → s.relay.phase = .pulsing d → s.now < d →
    ⟨false, false⟩ ∈ s.history.delivered.drop s.history.caused

theorem pulseInv_boot : PulseInv boot where
  caused_le := Nat.le_refl 0
  deadline_eq d h := by cases h
  off_of_other d h := by cases h

/-- An `off` does no harm: another one is already pending, or no command is pending and no
pulse runs. -/
def OffHarmless (s : RelayNet) : Prop :=
  s.relay.trigger = some .off ∨
    (s.relay.trigger = none ∧ ∀ d, s.relay.phase = .pulsing d → d ≤ s.now)

/-- A pulse is due: it is pending, or it runs and no `off` is pending. -/
def PulseDue (s : RelayNet) : Prop :=
  s.relay.trigger = some .pulse ∨
    (s.relay.trigger ≠ some .off ∧ ∃ d, s.relay.phase = .pulsing d ∧ s.now < d)

theorem offHarmless_iff {s : RelayNet} : s.OffHarmless ↔ ¬ s.PulseDue := by
  unfold OffHarmless PulseDue
  rcases s.relay.trigger with - | ⟨- | -⟩ <;> simp

/-- The invariant depends on the relay, the history and the clock. -/
theorem PulseInv.of_eq {s s' : RelayNet} (h : PulseInv s) (hrelay : s'.relay = s.relay)
    (hhistory : s'.history = s.history) (hnow : s.now ≤ s'.now) : PulseInv s' where
  caused_le := hhistory ▸ h.caused_le
  deadline_eq d hd := by
    rw [hrelay] at hd
    exact hhistory ▸ h.deadline_eq d hd
  off_of_other d htrigger hphase hlt := by
    rw [hrelay] at htrigger hphase
    exact hhistory ▸ h.off_of_other d htrigger hphase (Nat.lt_of_le_of_lt hnow hlt)

/-- A command keeps the invariant when it is a pulse, comes from another client or does no
harm. -/
theorem PulseInv.command {s : RelayNet} (h : PulseInv s) {own on : Bool}
    (hown : own = true → s.OffHarmless) : PulseInv (s.command own on) := by
  have hdelivered : (s.command own on).history.delivered = s.history.delivered ++ [⟨own, on⟩] :=
    rfl
  have hcaused : (s.command own on).history.caused = s.history.caused := rfl
  refine ⟨?_, fun d hd => h.deadline_eq d (s.phase_command own on ▸ hd), ?_⟩
  · rw [hdelivered, hcaused, List.length_append]
    exact Nat.le_trans h.caused_le (Nat.le_add_right _ _)
  intro d htrigger hd hlt
  rw [phase_command] at hd
  rw [hdelivered, hcaused, List.drop_append_of_le_length h.caused_le, List.mem_append]
  cases on with
  | true => cases htrigger
  | false =>
    cases own with
    | false => exact .inr (List.mem_singleton.mpr rfl)
    | true =>
      -- a report of the device changes nothing: its `off` is pending already, or comes too late
      rcases hown rfl with hoff | ⟨-, hdone⟩
      · exact .inl (h.off_of_other d hoff hd hlt)
      · exact absurd (hdone d hd) (Nat.not_le.mpr hlt)

/-- The relay task keeps the invariant. -/
theorem PulseInv.task {s : RelayNet} (h : PulseInv s) {r : Relay} {taken : Option RelayCmd}
    (hmoves : s.relay.Moves s.now r taken) :
    PulseInv { s with relay := r, history := s.take taken } := by
  cases hmoves with
  | ignore => exact ⟨h.caused_le, h.deadline_eq, fun d hd => (by cases hd)⟩
  | start =>
    refine ⟨Nat.le_refl _, fun d hd => ?_, fun d hd => (by cases hd)⟩
    exact (RelayPhase.pulsing.inj hd).symm
  | expire => exact ⟨h.caused_le, fun d hd => (by cases hd), fun d _ hd => (by cases hd)⟩
  | cancel => exact ⟨h.caused_le, fun d hd => (by cases hd), fun d hd => (by cases hd)⟩

end RelayNet

/-- A report comes back while an `off` is already pending, or while no command is pending and no
pulse runs. -/
def ReportHarmless (s : RelayNet) (e : RelayEvent) : Prop :=
  ∀ i m, e = .deliver i → s.toDevice[i]? = some m → m.own = true → s.OffHarmless

/-- The broker keeps the order in which it received the messages, and loses none. -/
def InOrder : RelayEvent → Prop
  | .deliver i => i = 0
  | .forward i => i = 0
  | .loseReport _ => False
  | .loseMessage _ => False
  | _ => True

instance : DecidablePred InOrder
  | .deliver i => inferInstanceAs (Decidable (i = 0))
  | .forward i => inferInstanceAs (Decidable (i = 0))
  | .loseReport _ => inferInstanceAs (Decidable False)
  | .loseMessage _ => inferInstanceAs (Decidable False)
  | .wait _ | .relayTask | .connect | .disconnect | .takeChange | .send | .clientPublish _ _
  | .reset => inferInstanceAs (Decidable True)

/-- **Every step keeps the invariant of the pulses** when no report does harm. -/
theorem RelayNet.PulseInv.step {s s' : RelayNet} {e : RelayEvent} (h : PulseInv s)
    (hreports : ReportHarmless s e) (hstep : s.step e = some s') : PulseInv s' := by
  cases affects_of_step hstep with
  | nothing hrelay hhistory hnow => exact h.of_eq hrelay hhistory hnow
  | task hmoves hhistory hnow =>
    exact (h.task hmoves).of_eq rfl hhistory (Nat.le_of_eq hnow.symm)
  | @command i m on hm hcmd hrelay hhistory hnow =>
    exact (h.command (hreports i m rfl hm)).of_eq hrelay hhistory (Nat.le_of_eq hnow.symm)
  | @change on hchange hrelay hhistory hnow =>
    have hsame : PulseInv { s with relay := s'.relay, history := s'.history } := by
      rw [hrelay, hhistory]
      exact ⟨h.caused_le, h.deadline_eq, h.off_of_other⟩
    exact hsame.of_eq rfl rfl (Nat.le_of_eq hnow.symm)
  | reset hrelay hhistory =>
    refine ⟨hhistory ▸ h.caused_le, fun d hd => ?_, fun d hd => ?_⟩
    · rw [hrelay] at hd
      cases hd
    · rw [hrelay] at hd
      cases hd

/-- Only the relay task drives the pin LOW, short of a reset. -/
theorem RelayNet.moves_of_pin_low {s s' : RelayNet} {e : RelayEvent} (hstep : s.step e = some s')
    (hreset : e ≠ .reset) (hhigh : s.relay.pin = true) (hlow : s'.relay.pin = false) :
    ∃ taken, s.relay.Moves s.now s'.relay taken ∧ s'.now = s.now := by
  have hchanged : s'.relay.pin ≠ s.relay.pin := by
    rw [hhigh, hlow]
    decide
  cases affects_of_step hstep with
  | @task taken hmoves hhistory hnow => exact ⟨taken, hmoves, hnow⟩
  | nothing hrelay => exact absurd (by rw [hrelay]) hchanged
  | command hm hcmd hrelay => exact absurd (by rw [hrelay, pin_command]) hchanged
  | change hchange hrelay => exact absurd (by rw [hrelay]) hchanged
  | reset => exact absurd rfl hreset

/-- Delivering a report leaves an `off` in the trigger. -/
theorem RelayNet.trigger_of_report {s s' : RelayNet} {i : ℕ} {m : Message} (h : ReportInv s)
    (hstep : s.step (.deliver i) = some s') (hm : s.toDevice[i]? = some m) (hown : m.own = true) :
    s'.relay.trigger = some .off := by
  obtain rfl := h.toDevice_off m (List.mem_of_getElem? hm) hown
  simp only [RelayNet.step, hm] at hstep
  split at hstep
  · obtain rfl := Option.some.inj hstep
    rw [RelayNet.handleEvent, messageCmd_relayPayload_false]
    rfl
  · cases hstep

/-- **A pulse is held**: when the pin goes LOW less than two seconds after the last pulse was
taken, a falsy command of another client was delivered after the command that caused the
pulse; and a pulse that is due before a report comes back is due afterwards.

The second part is more than the first can show. A report that takes away a pulse which is still
pending cancels it before the pin was ever HIGH, and an `off` of a report may be followed by one
of another client before the relay task looks. -/
def PulseHeld (s : RelayNet) (e : RelayEvent) (s' : RelayNet) : Prop :=
  (e ≠ .reset → s.relay.pin = true → s'.relay.pin = false →
    s'.now < s.history.takenAt + relayPulse →
    ⟨false, false⟩ ∈ s.history.delivered.drop s.history.caused) ∧
  ∀ i m, e = .deliver i → s.toDevice[i]? = some m → m.own = true → s.PulseDue → s'.PulseDue

/-- **One step**: it holds the pulses exactly when it brings back no harmful report. -/
theorem pulseHeld_iff {s s' : RelayNet} {e : RelayEvent} (hreport : s.ReportInv)
    (hpulse : s.PulseInv) (hstep : s.step e = some s') :
    PulseHeld s e s' ↔ ReportHarmless s e := by
  constructor
  · rintro ⟨-, hdue⟩ i m rfl hm hown
    rw [RelayNet.offHarmless_iff]
    intro hbefore
    have hoff := RelayNet.trigger_of_report hreport hstep hm hown
    -- the report leaves an `off`, and then no pulse is due
    rcases hdue i m rfl hm hown hbefore with hpending | ⟨hno, -⟩
    · rw [hoff] at hpending
      cases hpending
    · exact hno hoff
  · intro hharmless
    constructor
    · intro hreset hhigh hlow hsoon
      obtain ⟨taken, hmoves, hnow⟩ := RelayNet.moves_of_pin_low hstep hreset hhigh hlow
      rw [hnow] at hsoon
      generalize s'.relay = r at hmoves hlow
      cases hmoves with
      | ignore => exact absurd (hhigh.symm.trans hlow) (by decide)
      | start => cases hlow
      | @expire d hphase hexpired =>
        rw [hpulse.deadline_eq d hphase] at hexpired
        exact absurd hexpired (Nat.not_le.mpr hsoon)
      | @cancel d hphase hrunning htrigger =>
        exact hpulse.off_of_other d htrigger hphase hrunning
    · rintro i m rfl hm hown hbefore
      exact absurd hbefore (RelayNet.offHarmless_iff.mp (hharmless i m rfl hm hown))

/-- The parties around a broker that delivers every message, in the order in which it
received them. -/
def orderlySystem : System RelayNet RelayEvent := relaySystem.guarded fun _ e => InOrder e

/-- **When pulses are held**: every step of a run holds them exactly when each report that
comes back in it does so while an `off` is already pending, or while no command is pending and
no pulse runs.

For the pin alone the condition is enough: no pulse ends early without a falsy command of another
client. It is necessary for the whole of `PulseHeld`, in which no report cancels a pulse that is
due, step by step. -/
theorem pulses_held_iff (l : List RelayEvent) :
    orderlySystem.Throughout PulseHeld l ↔
      orderlySystem.Throughout (fun s e _ => ReportHarmless s e) l := by
  refine System.throughout_iff (I := fun s => s.ReportInv ∧ s.PulseInv) ?_ ?_ ?_
  · rintro _ rfl
    exact ⟨RelayNet.reportInv_boot, RelayNet.pulseInv_boot⟩
  · intro s e s' ⟨hreport, hpulse⟩ ⟨_, hstep⟩ hharmless
    exact ⟨hreport.step hstep, hpulse.step hharmless hstep⟩
  · intro s e s' ⟨hreport, hpulse⟩ ⟨_, hstep⟩
    exact pulseHeld_iff hreport hpulse hstep

/-- Two commands: the second reaches the broker before the report of the first pulse, which
comes back while the second pulse runs. -/
def lateReport : List RelayEvent :=
  [.connect, .clientPublish (asBytes "1".toList) false, .deliver 0, .relayTask,
    .wait relayPulse, .relayTask, .takeChange, .send,
    .clientPublish (asBytes "1".toList) false, .forward 0,
    .deliver 0, .relayTask, .deliver 0]

/-- The second pulse is cancelled by the report of the first. -/
theorem pulse_cancelled_by_report : ¬ ∀ l, orderlySystem.Throughout PulseHeld l := by
  intro h
  let held : RelayNet :=
    { now := relayPulse
      relay := ⟨some .off, none, .pulsing (relayPulse + relayPulse), true⟩
      online := true
      publishing := none
      toBroker := []
      toDevice := []
      history := ⟨[⟨false, true⟩, ⟨false, true⟩, ⟨true, false⟩], 2, relayPulse, 1⟩ }
  let cancelled : RelayNet := { held with relay := ⟨none, some false, .waiting, false⟩ }
  have hsteps : lateReport.foldlM RelayNet.step RelayNet.boot = some held := by decide
  have hrun : relaySystem.Run RelayNet.boot lateReport held :=
    .of_foldlM (fun _ _ _ h => h) hsteps
  have horderly : orderlySystem.Run RelayNet.boot lateReport held :=
    hrun.guarded_of_forall (by decide)
  have hcancel : held.step .relayTask = some cancelled := by decide
  have hheld := h (lateReport ++ [.relayTask]) lateReport .relayTask [] RelayNet.boot held
    cancelled rfl rfl horderly ⟨trivial, hcancel⟩
  have hother := hheld.1 (by decide) rfl rfl (by decide)
  revert hother
  decide

end Jzf407
