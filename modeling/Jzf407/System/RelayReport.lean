import Jzf407.System.Relay

/-!
# Reports that are still due

The end of a pulse is to be published, so that the broker reflects that the relay is off. Until
it is, the report is pending in the change signal or being published: reconnecting loses
neither. What loses it is a publication that fails. The MQTT task has taken the report out of
the signal by then, gives up the connection, and does not put the report back.

`RelayReport` adds to the parties whether a pulse has ended since the last successful
publication, which no party knows. A report that is owed is held when it is pending or being
published (`RelayReport.Held`), and no other step than a failing publication lets go of it
(`RelayNet.held_frame`).

In a run without resets such a report is held in every state exactly when each
publication that fails finds a further change pending (`reports_held_iff`): a second pulse has ended
in the meantime, and its report takes the place of the one that is lost. One step is
`RelayReport.held_step_iff`. A connection that is lost while nothing is being published does no
harm: what is pending stays pending until there is another.
-/

namespace Jzf407

open Foundation

/-- The parties, and whether a pulse has ended since the last report that was published. -/
structure RelayReport where
  net : RelayNet
  owed : Bool
  deriving DecidableEq, Repr

namespace RelayReport

/-- The start of a run. -/
def boot : RelayReport := ⟨RelayNet.boot, false⟩

/-- The pulse of the one state has ended in the other. -/
def pulseEnded (before after : RelayNet) : Bool :=
  before.relay.phase != .waiting && after.relay.phase == .waiting

/-- **One step of the parties.** A pulse that ends leaves a report owed, and a publication that
succeeds leaves none; one that fails ends the connection (`disconnect`). -/
def step (s : RelayReport) (e : RelayEvent) : Option RelayReport :=
  (s.net.step e).map fun net =>
    match e with
    | .relayTask => ⟨net, s.owed || pulseEnded s.net net⟩
    | .send => ⟨net, false⟩
    | _ => ⟨net, s.owed⟩

/-- **An owed report is held**: it is pending, or being published. -/
def Held (s : RelayReport) : Prop :=
  s.owed = true → s.net.relay.change ≠ none ∨ s.net.publishing ≠ none

/-- **A failing publication is harmless**: it finds a further change pending, unless no report is
owed. -/
def FailsHarmlessly (s : RelayReport) (e : RelayEvent) : Prop :=
  e = .disconnect → s.net.publishing ≠ none → s.owed = true → s.net.relay.change ≠ none

end RelayReport

/-- **The parties without resets**, in any order of their steps. -/
def reportSystem : System RelayReport RelayEvent :=
  System.guarded ⟨fun s => s = RelayReport.boot, fun s e t => s.step e = some t⟩
    fun _ e => e ≠ .reset

/-! ### One step -/

/-- **What is pending or being published stays so**, but for the events that settle or lose it. -/
theorem RelayNet.held_frame {s t : RelayNet} {e : RelayEvent} (h : s.step e = some t)
    (hreset : e ≠ .reset) (htask : e ≠ .relayTask) (hsend : e ≠ .send)
    (hdisconnect : e ≠ .disconnect) (hheld : s.relay.change ≠ none ∨ s.publishing ≠ none) :
    t.relay.change ≠ none ∨ t.publishing ≠ none := by
  cases e with
  | reset => exact absurd rfl hreset
  | relayTask => exact absurd rfl htask
  | send => exact absurd rfl hsend
  | disconnect => exact absurd rfl hdisconnect
  | takeChange =>
    -- the report is taken from the signal to be published
    rw [RelayNet.step] at h
    split at h
    · split at h
      · obtain rfl := Option.some.inj h
        exact .inr (Option.some_ne_none _)
      · cases h
    · cases h
  | deliver i =>
    rw [RelayNet.step] at h
    split at h
    · next m hm =>
      split at h
      · obtain rfl := Option.some.inj h
        rwa [RelayNet.change_handleEvent, (RelayNet.handleEvent_inFlight _ m).1]
      · cases h
    · cases h
  | forward i =>
    obtain ⟨payload, -, rfl⟩ := Option.map_eq_some_iff.mp h
    exact hheld
  | wait | connect | clientPublish | loseReport | loseMessage =>
    obtain rfl := Option.some.inj h
    exact hheld

namespace RelayReport

variable {s t : RelayReport} {e : RelayEvent}

theorem net_step (h : s.step e = some t) : s.net.step e = some t.net := by
  obtain ⟨net, hnet, rfl⟩ := Option.map_eq_some_iff.mp h
  rw [hnet]
  cases e <;> rfl

/-- Only a step of the relay task makes a report owed, and only a publication settles it. -/
theorem owed_step (h : s.step e = some t) (htask : e ≠ .relayTask) (hsend : e ≠ .send) :
    t.owed = s.owed := by
  obtain ⟨net, -, rfl⟩ := Option.map_eq_some_iff.mp h
  cases e with
  | relayTask => exact absurd rfl htask
  | send => exact absurd rfl hsend
  | _ => rfl

/-- A step of the relay task that leaves a report owed signals the change, or found it owed and
keeps the signal. -/
theorem change_of_relayTask (h : s.step .relayTask = some t) (howed : t.owed = true) :
    t.net.relay.change ≠ none ∨ s.owed = true ∧ t.net.relay.change = s.net.relay.change := by
  obtain ⟨net, hnet, rfl⟩ := Option.map_eq_some_iff.mp h
  obtain ⟨⟨r, taken⟩, hr, rfl⟩ := Option.map_eq_some_iff.mp hnet
  have howed : (s.owed || pulseEnded s.net { s.net with relay := r, history := s.net.take taken }) =
      true := howed
  change r.change ≠ none ∨ s.owed = true ∧ r.change = s.net.relay.change
  have hkept : r.phase ≠ .waiting ∨ s.net.relay.phase = .waiting → s.owed = true := by
    intro hphase
    rcases hphase with hphase | hphase <;> simpa [pulseEnded, hphase] using howed
  cases Relay.moves_of_step hr with
  | ignore hphase => exact .inr ⟨hkept (.inr hphase), rfl⟩
  | start => exact .inr ⟨hkept (.inl (by simp [Relay.startPulse])), rfl⟩
  | expire => exact .inl (by simp [Relay.endPulse])
  | cancel => exact .inl (by simp [Relay.endPulse])

/-- **One step** holds an owed report exactly when it is no harmful failure. -/
theorem held_step_iff (hs : s.Held) (hreset : e ≠ .reset) (h : s.step e = some t) :
    t.Held ↔ s.FailsHarmlessly e := by
  have hnet := net_step h
  by_cases hdisconnect : e = .disconnect
  · -- what was being published is lost; a change that is pending takes its place
    subst hdisconnect
    have howed := owed_step h (by decide) (by decide)
    obtain hlost := Option.some.inj hnet
    unfold Held FailsHarmlessly
    rw [howed, ← hlost]
    constructor
    · intro ht _ hpublishing hs'
      exact (ht hs').resolve_right fun hno => hno rfl
    · intro hharmless hs'
      refine .inl ((hs hs').elim id fun hpublishing => ?_)
      exact hharmless rfl hpublishing hs'
  -- every other step keeps the report, or settles it
  refine iff_of_true ?_ fun he => absurd he hdisconnect
  intro ht
  by_cases htask : e = .relayTask
  · subst htask
    rcases change_of_relayTask h ht with hchange | ⟨hs', hchange⟩
    · exact .inl hchange
    · obtain ⟨p, -, hp⟩ := Option.map_eq_some_iff.mp hnet
      rw [hchange, ← hp]
      exact hs hs'
  by_cases hsend : e = .send
  · subst hsend
    obtain ⟨net, -, rfl⟩ := Option.map_eq_some_iff.mp h
    cases ht
  · rw [owed_step h htask hsend] at ht
    exact RelayNet.held_frame hnet hreset htask hsend hdisconnect (hs ht)

end RelayReport

/-! ### Runs -/

/-- **When reports are held**: in a run of the parties, a report that is owed is pending or being
published after every step exactly when each publication that fails finds a further change
pending, or no report owed. -/
theorem reports_held_iff (l : List RelayEvent) :
    reportSystem.Throughout (fun _ _ t => t.Held) l ↔
      reportSystem.Throughout (fun s e _ => s.FailsHarmlessly e) l := by
  refine System.throughout_iff (I := RelayReport.Held) ?_ ?_ ?_
  · rintro _ rfl howed
    cases howed
  · rintro s e t hs ⟨hreset, hstep⟩ hharmless
    exact (RelayReport.held_step_iff hs hreset hstep).mpr hharmless
  · rintro s e t hs ⟨hreset, hstep⟩
    exact RelayReport.held_step_iff hs hreset hstep

/-- A pulse ends, and the publication of its report fails with the connection: nothing is left of
the report, then or after the device has reconnected. -/
theorem report_lost :
    ¬ ∀ l s, reportSystem.Run RelayReport.boot l s → s.Held := by
  intro h
  let l : List RelayEvent :=
    [.connect, .clientPublish (asBytes "1".toList) false, .deliver 0, .relayTask,
      .wait relayPulse, .relayTask, .takeChange, .disconnect, .connect]
  let s : RelayReport := (l.foldlM RelayReport.step RelayReport.boot).get (by decide)
  have hsteps : l.foldlM RelayReport.step RelayReport.boot = some s := (Option.some_get _).symm
  have hrun : reportSystem.Run RelayReport.boot l s :=
    (System.Run.of_foldlM (fun _ _ _ h => h) hsteps).guarded_of_forall (by decide)
  exact absurd (h l s hrun (by decide)) (by decide)

end Jzf407
