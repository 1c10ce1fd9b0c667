import Jzf407.System.Relay
import Mathlib.Data.List.Basic

/-!
# No echo loop

A report of the device comes back to it as a command. It cannot set off another report: a
report says that the relay is off, and an `off` starts no pulse. What counts is the commands
that ask for a pulse. Each of them is in at most one place: in the trigger, in the pulse that
runs, or in the change that is not yet published. Every published report uses one up, so
there are never more reports than truthy commands of other clients (`no_echo_loop`).

`Relay.owed` counts the reports that the relay task may still cause by itself. The relay task moves
a pulse from one place to the next and adds none (`Moves.owed_le`), a command to pulse adds at most
one (`owed_pulseRelay_le`), and taking the change takes one (`owed_of_change`). The invariant
`ReportInv` sets what is owed and what is published against the truthy commands, and knows of every
report on its way that it says `off`; that is why a report which comes back adds nothing
(`messageCmd_relayPayload_false`).

It holds in any order of the steps, with messages lost, delayed and overtaken, connections lost and
the device reset. A reset forgets what is owed, so it does no harm.
-/

namespace Jzf407

open Foundation

/-- One report for a pulse in the trigger. -/
def RelayCmd.owed : Option RelayCmd → ℕ
  | some .pulse => 1
  | _ => 0

/-- One report for a pulse that runs. -/
def RelayPhase.owed : RelayPhase → ℕ
  | .waiting => 0
  | .pulsing _ => 1

/-- The number of reports that the relay task may still cause without another command: one
each for a pulse in the trigger, a pulse that runs and a change not yet published. -/
def Relay.owed (r : Relay) : ℕ :=
  RelayCmd.owed r.trigger + r.phase.owed + r.change.toList.length

namespace Relay

variable {r r' : Relay} {now : ℕ} {taken : Option RelayCmd}

/-- A command to pulse adds at most one report. -/
theorem owed_pulseRelay_le (r : Relay) : r.pulseRelay.owed ≤ r.owed + 1 := by
  simp only [owed, pulseRelay, RelayCmd.owed]
  omega

theorem owed_relayOff_le (r : Relay) : r.relayOff.owed ≤ r.owed := by
  simp only [owed, relayOff, RelayCmd.owed]
  omega

/-- Taking the change takes a report. -/
theorem owed_of_change {on : Bool} (h : r.change = some on) :
    ({ r with change := none } : Relay).owed + 1 = r.owed := by
  simp only [owed, h]
  rfl

/-- **The relay task adds no report**: it moves a pulse from the trigger to the pin and from
there to the change. -/
theorem Moves.owed_le (h : r.Moves now r' taken) : r'.owed ≤ r.owed := by
  have hend : r.endPulse.change.toList.length = 1 := rfl
  cases h with
  | ignore hphase htrigger =>
    simp only [owed, htrigger, RelayCmd.owed]
    exact Nat.le_refl _
  | start htrigger =>
    simp only [owed, startPulse, htrigger, RelayCmd.owed, RelayPhase.owed]
    omega
  | expire hphase hnow =>
    have hwas : r.phase.owed = 1 := by rw [hphase]; rfl
    have hnow : r.endPulse.phase.owed = 0 := rfl
    have hsame : r.endPulse.trigger = r.trigger := rfl
    rw [owed, owed, hsame, hend, hwas, hnow]
    omega
  | cancel hphase hnow htrigger =>
    simp only [owed, endPulse, hphase, htrigger, RelayCmd.owed, RelayPhase.owed]
    exact Nat.le_add_right 1 _

/-- A change that the relay task signals says that the relay is off. -/
theorem Moves.change_off (h : r.Moves now r' taken) (hoff : ∀ on, r.change = some on → on = false)
    {on : Bool} (hon : r'.change = some on) : on = false := by
  cases h with
  | ignore => exact hoff on hon
  | start => exact hoff on hon
  | expire => exact (Option.some.inj hon).symm
  | cancel => exact (Option.some.inj hon).symm

end Relay

/-- A report that the relay is off is read as a falsy command. -/
theorem messageCmd_relayPayload_false :
    messageCmd topicRelay (relayPayload false) = some (.relay false) := by decide

namespace RelayNet

/-- The truthy commands of other clients delivered so far. -/
def truthy (s : RelayNet) : ℕ := s.history.delivered.count ⟨false, true⟩

/-- **The invariant of the reports**: wherever a report is, it says that the relay is off,
and the published reports and those still owed are covered by truthy commands of other
clients. -/
structure ReportInv (s : RelayNet) : Prop where
  change_off : ∀ on, s.relay.change = some on → on = false
  publishing_off : ∀ on, s.publishing = some on → on = false
  toBroker_off : ∀ payload ∈ s.toBroker, payload = relayPayload false
  toDevice_off : ∀ m ∈ s.toDevice, m.own = true → m = ⟨true, relayPayload false, false⟩
  covered : s.history.published + s.relay.owed ≤ s.truthy

theorem reportInv_boot : ReportInv boot where
  change_off on h := by cases h
  publishing_off on h := by cases h
  toBroker_off payload h := by cases h
  toDevice_off m h := by cases h
  covered := Nat.le_refl 0

variable {s s' : RelayNet} {e : RelayEvent}

/-- A truthy command of another client covers the report it may lead to. -/
theorem covered_command (h : s.history.published + s.relay.owed ≤ s.truthy) {own on : Bool}
    (hown : own = true → on = false) :
    (s.command own on).history.published + (s.command own on).relay.owed ≤
      (s.command own on).truthy := by
  cases on with
  | false =>
    have howed : (s.command own false).relay.owed ≤ s.relay.owed := s.relay.owed_relayOff_le
    have htruthy : (s.command own false).truthy = s.truthy := by
      simp [truthy, RelayNet.command]
    rw [htruthy]
    exact Nat.le_trans (Nat.add_le_add_left howed _) h
  | true =>
    obtain rfl : own = false := by
      cases own with
      | false => rfl
      | true => exact absurd (hown rfl) (by decide)
    have howed : (s.command false true).relay.owed ≤ s.relay.owed + 1 :=
      s.relay.owed_pulseRelay_le
    have htruthy : (s.command false true).truthy = s.truthy + 1 := by
      simp [truthy, RelayNet.command]
    rw [htruthy]
    exact Nat.le_trans (Nat.add_le_add_left howed _) (Nat.add_le_add_right h 1)

/-- What a step does to the relay task keeps the reports covered, and signals no change but
that the relay is off. -/
theorem ReportInv.affects (h : ReportInv s) (haffects : Affects s s' e) :
    (∀ on, s'.relay.change = some on → on = false) ∧
      s'.history.published + s'.relay.owed ≤ s'.truthy := by
  have hcovered := h.covered
  cases haffects with
  | nothing hrelay hhistory =>
    rw [truthy, hrelay, hhistory]
    exact ⟨h.change_off, hcovered⟩
  | task hmoves hhistory =>
    refine ⟨fun on => hmoves.change_off h.change_off, ?_⟩
    rw [truthy, hhistory, published_take, delivered_take]
    exact Nat.le_trans (Nat.add_le_add_left hmoves.owed_le _) hcovered
  | @command i m on hm hcmd hrelay hhistory =>
    -- a report of the device is an `off`, so it owes nothing
    have hown : m.own = true → on = false := by
      intro hown
      obtain rfl := h.toDevice_off m (List.mem_of_getElem? hm) hown
      cases messageCmd_relayPayload_false.symm.trans hcmd
      rfl
    rw [truthy, hrelay, hhistory, change_command]
    exact ⟨h.change_off, covered_command hcovered hown⟩
  | change hchange hrelay hhistory =>
    have howed := Relay.owed_of_change hchange
    rw [truthy, hrelay, hhistory]
    refine ⟨fun on hon => (by cases hon), ?_⟩
    simp only [truthy] at hcovered ⊢
    omega
  | reset hrelay hhistory =>
    rw [truthy, hrelay, hhistory]
    exact ⟨fun on hon => (by cases hon), Nat.le_trans (Nat.le_add_right _ _) hcovered⟩

/-- **Every step keeps the invariant of the reports.** -/
theorem ReportInv.step (h : ReportInv s) (hstep : s.step e = some s') : ReportInv s' := by
  obtain ⟨hchange, hcovered⟩ := h.affects (affects_of_step hstep)
  have hless : ∀ i, ∀ m ∈ s.toDevice.eraseIdx i, m.own = true →
      m = ⟨true, relayPayload false, false⟩ :=
    fun i m hm => h.toDevice_off m (List.mem_of_mem_eraseIdx hm)
  cases e with
  -- the report moves on: from the change signal to the publication, to the broker, to the device
  | takeChange =>
    rw [RelayNet.step] at hstep
    split at hstep
    · next on hon =>
      split at hstep
      · obtain rfl := Option.some.inj hstep
        refine ⟨hchange, fun v hv => ?_, h.toBroker_off, h.toDevice_off, hcovered⟩
        exact Option.some.inj hv ▸ h.change_off on hon
      · cases hstep
    · cases hstep
  | send =>
    obtain ⟨on, hon, rfl⟩ := Option.map_eq_some_iff.mp hstep
    refine ⟨hchange, fun v hv => (by cases hv), fun payload hmem => ?_, h.toDevice_off, hcovered⟩
    rcases List.mem_append.mp hmem with hmem | hmem
    · exact h.toBroker_off payload hmem
    · rw [List.mem_singleton.mp hmem, h.publishing_off on hon]
  | deliver i =>
    rw [RelayNet.step] at hstep
    split at hstep
    · next m hm =>
      split at hstep
      · obtain rfl := Option.some.inj hstep
        -- what a message does to the relay is in `hchange` and `hcovered` already
        obtain ⟨hpublishing, hup, hdown⟩ := handleEvent_inFlight
          { s with toDevice := s.toDevice.eraseIdx i } m
        refine ⟨hchange, ?_, ?_, ?_, hcovered⟩
        · rw [hpublishing]
          exact h.publishing_off
        · rw [hup]
          exact h.toBroker_off
        · rw [hdown]
          exact hless i
      · cases hstep
    · cases hstep
  | forward i =>
    obtain ⟨payload, hpayload, rfl⟩ := Option.map_eq_some_iff.mp hstep
    refine ⟨hchange, h.publishing_off, fun p hp => ?_, fun m hmem hown => ?_, hcovered⟩
    · exact h.toBroker_off p (List.mem_of_mem_eraseIdx hp)
    · rcases List.mem_append.mp hmem with hold | hnew
      · exact h.toDevice_off m hold hown
      · rw [List.mem_singleton.mp hnew, h.toBroker_off payload (List.mem_of_getElem? hpayload)]
  -- what another client publishes is no report, whatever it says
  | clientPublish payload retain =>
    obtain rfl := Option.some.inj hstep
    refine ⟨hchange, h.publishing_off, h.toBroker_off, fun m hmem hown => ?_, hcovered⟩
    rcases List.mem_append.mp hmem with hold | hnew
    · exact h.toDevice_off m hold hown
    · rw [List.mem_singleton.mp hnew] at hown
      cases hown
  -- losing something keeps every statement about all that is left
  | loseReport i =>
    obtain rfl := Option.some.inj hstep
    exact ⟨hchange, h.publishing_off,
      fun p hp => h.toBroker_off p (List.mem_of_mem_eraseIdx hp), h.toDevice_off, hcovered⟩
  | loseMessage i =>
    obtain rfl := Option.some.inj hstep
    exact ⟨hchange, h.publishing_off, h.toBroker_off, hless i, hcovered⟩
  | relayTask =>
    obtain ⟨p, -, rfl⟩ := Option.map_eq_some_iff.mp hstep
    exact ⟨hchange, h.publishing_off, h.toBroker_off, h.toDevice_off, hcovered⟩
  | disconnect | reset =>
    obtain rfl := Option.some.inj hstep
    exact ⟨hchange, fun v hv => (by cases hv), h.toBroker_off, h.toDevice_off, hcovered⟩
  | wait | connect =>
    obtain rfl := Option.some.inj hstep
    exact ⟨hchange, h.publishing_off, h.toBroker_off, h.toDevice_off, hcovered⟩

theorem reportInv_of_reachable (h : relaySystem.Reachable s) : ReportInv s := by
  refine h.invariant ?_ ?_
  · rintro _ rfl
    exact reportInv_boot
  · intro _ _ _ hs hstep
    exact hs.step hstep

end RelayNet

/-- **No echo loop**: the device never publishes more reports than truthy commands of other
clients were delivered to it. -/
theorem no_echo_loop {s : RelayNet} (h : relaySystem.Reachable s) :
    s.history.published ≤ s.truthy :=
  Nat.le_trans (Nat.le_add_right _ _) (RelayNet.reportInv_of_reachable h).covered

/-- One command, its pulse, and the report of its end. -/
def oneReport : List RelayEvent :=
  [.connect, .clientPublish (asBytes "1".toList) false, .deliver 0, .relayTask,
    .wait relayPulse, .relayTask, .takeChange, .send, .forward 0, .deliver 0]

/-- The report has come back to the device, and has caused no other. -/
theorem no_echo_loop_oneReport :
    ∃ s, relaySystem.Reachable s ∧ s.history.published = 1 ∧ s.truthy = 1 ∧
      s.history.published ≤ s.truthy := by
  obtain ⟨s, hs⟩ : ∃ s, oneReport.foldlM RelayNet.step RelayNet.boot = some s :=
    Option.isSome_iff_exists.mp (by decide)
  have hreach : relaySystem.Reachable s :=
    ⟨RelayNet.boot, oneReport, rfl, .of_foldlM (fun _ _ _ h => h) hs⟩
  have hcounts : (oneReport.foldlM RelayNet.step RelayNet.boot).map
      (fun s => (s.history.published, s.truthy)) = some (1, 1) := by decide
  rw [hs] at hcounts
  obtain ⟨hpublished, htruthy⟩ := Prod.mk.inj (Option.some.inj hcounts)
  exact ⟨s, hreach, hpublished, htruthy, no_echo_loop hreach⟩

end Jzf407
