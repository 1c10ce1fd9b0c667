import Jzf407.System.Relay

/-!
# The relay task, poll by poll

A poll of the relay task runs its two loops until both the trigger and the timer make it wait.
`RelayRun.poll` is one poll: the steps of the task, at one time, until there is none left. That
there is an end to them is shown by `Relay.work`, which every step makes smaller. The
run records what was signalled last, what the task took last and when, and in order what it did
to the pin and to the change signal.

These effects (`RelayEffect`) are read off the step. `Relay.effects` runs it on a change signal that
was emptied before: the level to which the step changes the pin, and the change that it leaves
there. What the step does to the signal as it was is the same (`Relay.does_of_step`), and the
signal after a run is the one that the effects leave (`changeAfter`).

After a poll no command is left, and the pin is HIGH exactly while the last command is a pulse
that was taken less than two seconds before; the end of every pulse is signalled once
(`relay_after_poll`). That is said of the effects: the next one after each fall of the pin is the
change to `false`, and there is no other such change (`Announced`). Between the steps of a poll a
fall may not be announced yet, and `AnnouncedBefore` says so of the last effect.

Late polls, overwritten commands, and a command that arrives with the end of a pulse are all
covered: polls and commands come in any order and at any times. When the timer has expired and a
command is there as well, the timer goes first, and the command starts a new pulse or does
nothing.
-/

namespace Jzf407

open Foundation

/-! ### Effects -/

/-- What the relay task does to the pin and to the change signal. -/
inductive RelayEffect
  | setRelay (on : Bool)
  | signalChange (on : Bool)
  deriving DecidableEq, Repr

/-- The level of the pin after these effects, from LOW on. -/
def pinAfter (l : List RelayEffect) : Bool :=
  l.foldl (fun pin e => match e with | .setRelay on => on | .signalChange _ => pin) false

/-- The change signal after these effects, which nobody reads, from the empty one on. -/
def changeAfter (l : List RelayEffect) : Option Bool :=
  l.foldl (fun change e => match e with | .setRelay _ => change | .signalChange on => some on) none

/-- The last of the effects has changed the pin from HIGH to LOW. -/
def Falls (l : List RelayEffect) : Prop :=
  ∃ pre, l = pre ++ [.setRelay false] ∧ pinAfter pre = true

/-- **Every fall is announced, and nothing else**: the change to LOW is signalled next after
each fall of the pin, and at no other moment. -/
def Announced (l : List RelayEffect) : Prop :=
  ∀ pre post, l = pre ++ post → (post.head? = some (.signalChange false) ↔ Falls pre)

@[simp]
theorem pinAfter_concat_setRelay (l : List RelayEffect) (on : Bool) :
    pinAfter (l ++ [.setRelay on]) = on := by
  simp [pinAfter]

@[simp]
theorem pinAfter_concat_signalChange (l : List RelayEffect) (on : Bool) :
    pinAfter (l ++ [.signalChange on]) = pinAfter l := by
  simp [pinAfter]

@[simp]
theorem changeAfter_concat_setRelay (l : List RelayEffect) (on : Bool) :
    changeAfter (l ++ [.setRelay on]) = changeAfter l := by
  simp [changeAfter]

@[simp]
theorem changeAfter_concat_signalChange (l : List RelayEffect) (on : Bool) :
    changeAfter (l ++ [.signalChange on]) = some on := by
  simp [changeAfter]

theorem falls_concat_iff {l : List RelayEffect} {e : RelayEffect} :
    Falls (l ++ [e]) ↔ e = .setRelay false ∧ pinAfter l = true := by
  constructor
  · rintro ⟨pre, hpre, hpin⟩
    obtain ⟨rfl, he⟩ := List.append_inj' hpre rfl
    exact ⟨List.singleton_inj.mp he, hpin⟩
  · rintro ⟨rfl, hpin⟩
    exact ⟨l, rfl, hpin⟩

theorem announced_nil : Announced [] := by
  intro pre post h
  obtain ⟨rfl, rfl⟩ := List.append_eq_nil_iff.mp h.symm
  simp [Falls]

/-- The same for all effects but the last, which is still to be announced if it is a fall. -/
def AnnouncedBefore (l : List RelayEffect) : Prop :=
  ∀ pre post, l = pre ++ post → post ≠ [] →
    (post.head? = some (.signalChange false) ↔ Falls pre)

theorem announced_iff {l : List RelayEffect} : Announced l ↔ AnnouncedBefore l ∧ ¬ Falls l := by
  constructor
  · refine fun h => ⟨fun pre post hl _ => h pre post hl, fun hfalls => ?_⟩
    have hhead := (h l [] (List.append_nil l).symm).mpr hfalls
    cases hhead
  · rintro ⟨hbefore, hlast⟩ pre post hl
    by_cases hpost : post = []
    · subst hpost
      rw [List.append_nil] at hl
      subst hl
      simpa using hlast
    · exact hbefore pre post hl hpost

/-- One more effect: it is the announcement exactly if the one before is a fall. -/
theorem AnnouncedBefore.concat {l : List RelayEffect} {e : RelayEffect} (h : AnnouncedBefore l)
    (he : e = .signalChange false ↔ Falls l) : AnnouncedBefore (l ++ [e]) := by
  intro pre post hl hpost
  rcases List.eq_nil_or_concat post with rfl | ⟨post', x, rfl⟩
  · exact absurd rfl hpost
  · rw [List.concat_eq_append, ← List.append_assoc] at hl
    obtain ⟨rfl, hx⟩ := List.append_inj' hl rfl
    obtain rfl := List.singleton_inj.mp hx
    cases post' with
    | nil => simpa using he
    | cons y post' => simpa using h pre (y :: post') rfl (List.cons_ne_nil _ _)

/-- The pin goes HIGH, or stays so. -/
theorem Announced.concat_high {l : List RelayEffect} (h : Announced l) :
    Announced (l ++ [.setRelay true]) := by
  obtain ⟨hbefore, hlast⟩ := announced_iff.mp h
  refine announced_iff.mpr ⟨hbefore.concat ?_, ?_⟩
  · simpa using hlast
  · simp [falls_concat_iff]

/-- The pin goes LOW, and the change is signalled. -/
theorem Announced.append_fall {l : List RelayEffect} (h : Announced l)
    (hpin : pinAfter l = true) :
    Announced (l ++ [.setRelay false, .signalChange false]) := by
  obtain ⟨hbefore, hlast⟩ := announced_iff.mp h
  have hfall : Falls (l ++ [.setRelay false]) := falls_concat_iff.mpr ⟨rfl, hpin⟩
  have hfirst : AnnouncedBefore (l ++ [.setRelay false]) := hbefore.concat (by simpa using hlast)
  have hboth := hfirst.concat (e := .signalChange false) (iff_of_true rfl hfall)
  rw [List.append_assoc] at hboth
  refine announced_iff.mpr ⟨hboth, ?_⟩
  have hsplit : l ++ [RelayEffect.setRelay false, .signalChange false] =
      (l ++ [.setRelay false]) ++ [.signalChange false] := by simp
  rw [hsplit, falls_concat_iff]
  simp

/-! ### The steps of a poll -/

namespace Relay

/-- **What the next step of the relay task does**, read off the step itself: the level to which
it changes the pin, and then what it leaves in the change signal when it finds it empty. -/
def effects (r : Relay) (now : ℕ) : List RelayEffect :=
  match ({ r with change := none } : Relay).step now with
  | none => []
  | some (r', _) =>
      (if r'.pin = r.pin then [] else [.setRelay r'.pin]) ++
        (r'.change.map RelayEffect.signalChange).toList

/-- A step of the relay task with all that it does. -/
inductive Does (r : Relay) (now : ℕ) : Relay → Option RelayCmd → List RelayEffect → Prop
  | ignore (hphase : r.phase = .waiting) (htrigger : r.trigger = some .off) :
      Does r now { r with trigger := none } (some .off) []
  | start (hphase : r.phase = .waiting) (htrigger : r.trigger = some .pulse) :
      Does r now (r.startPulse now) (some .pulse) [.setRelay true]
  | retrigger {deadline : ℕ} (hphase : r.phase = .pulsing deadline) (hnow : now < deadline)
      (htrigger : r.trigger = some .pulse) : Does r now (r.startPulse now) (some .pulse) []
  | expire {deadline : ℕ} (hphase : r.phase = .pulsing deadline) (hnow : deadline ≤ now) :
      Does r now r.endPulse none [.setRelay false, .signalChange false]
  | cancel {deadline : ℕ} (hphase : r.phase = .pulsing deadline) (hnow : now < deadline)
      (htrigger : r.trigger = some .off) :
      Does r now { r.endPulse with trigger := none } (some .off)
        [.setRelay false, .signalChange false]

variable {r r' : Relay} {now : ℕ} {taken : Option RelayCmd}

/-- A pulse is not taken when the one before is due: the timer goes first. -/
theorem lt_of_step_pulse (h : r.step now = some (r', some .pulse)) {d : ℕ}
    (hphase : r.phase = .pulsing d) : now < d := by
  by_contra hdue
  rw [step, hphase] at h
  dsimp only at h
  rw [if_pos (Nat.not_lt.mp hdue)] at h
  cases h

/-- **Every step does one of these things.** The step does not read the change signal, so what
it does to an empty one it does to every other. -/
theorem does_of_step (hpin : r.PinFollows) (h : r.step now = some (r', taken)) :
    Does r now r' taken (r.effects now) := by
  have hlow (hphase : r.phase = .waiting) : r.pin = false := by
    simpa [PinFollows, hphase] using hpin
  have hhigh {d : ℕ} (hphase : r.phase = .pulsing d) : r.pin = true := hpin.mpr ⟨d, hphase⟩
  cases moves_of_step h with
  | ignore hphase htrigger =>
    have heffects : r.effects now = [] := by simp [effects, step, hphase, htrigger]
    rw [heffects]
    exact .ignore hphase htrigger
  | start htrigger =>
    cases hphase : r.phase with
    | waiting =>
      have heffects : r.effects now = [.setRelay true] := by
        simp [effects, step, hphase, htrigger, startPulse, hlow hphase]
      rw [heffects]
      exact .start hphase htrigger
    | pulsing d =>
      -- the pin is HIGH already
      have hnow := lt_of_step_pulse h hphase
      have heffects : r.effects now = [] := by
        simp [effects, step, hphase, htrigger, startPulse, hhigh hphase, Nat.not_le.mpr hnow]
      rw [heffects]
      exact .retrigger hphase hnow htrigger
  | expire hphase hnow =>
    have heffects : r.effects now = [.setRelay false, .signalChange false] := by
      simp [effects, step, hphase, hnow, endPulse, hhigh hphase]
    rw [heffects]
    exact .expire hphase hnow
  | cancel hphase hnow htrigger =>
    have heffects : r.effects now = [.setRelay false, .signalChange false] := by
      simp [effects, step, hphase, htrigger, endPulse, hhigh hphase, Nat.not_le.mpr hnow]
    rw [heffects]
    exact .cancel hphase hnow htrigger

/-- What is left to do in a poll: the command, and the end of a pulse that is due. -/
def work (r : Relay) (now : ℕ) : ℕ :=
  (if r.trigger.isSome then 1 else 0) +
    match r.phase with
    | .waiting => 0
    | .pulsing deadline => if deadline ≤ now then 1 else 0

/-- Every step leaves less to do. -/
theorem work_lt_of_step (h : r.step now = some (r', taken)) : r'.work now < r.work now := by
  have hlater : ¬ now + relayPulse ≤ now := by
    have hpulse : 0 < relayPulse := by decide
    omega
  cases moves_of_step h with
  | ignore hphase htrigger => simp [work, hphase, htrigger]
  | start htrigger =>
    -- the new pulse is not due, and the command is gone
    simp [work, startPulse, htrigger, hlater]
  | expire hphase hnow =>
    simp only [work, endPulse, hphase, hnow, if_true]
    exact Nat.lt_succ_self _
  | cancel hphase hnow htrigger => simp [work, endPulse, hphase, htrigger]

end Relay

/-! ### Runs -/

/-- The relay task in a run: the time, the command signalled last, the command taken last with
its time, and all that the task has done. -/
structure RelayRun where
  now : ℕ
  relay : Relay
  signalled : Option RelayCmd
  taken : Option (RelayCmd × ℕ)
  effects : List RelayEffect
  deriving DecidableEq, Repr

namespace RelayRun

/-- The start of a run. -/
def boot : RelayRun := ⟨0, Relay.boot, none, none, []⟩

/-- The next step of the relay task, if there is one. -/
def advance (s : RelayRun) : Option RelayRun :=
  (s.relay.step s.now).map fun p =>
    { s with
      relay := p.1
      taken := (p.2.map fun cmd => (cmd, s.now)).or s.taken
      effects := s.effects ++ s.relay.effects s.now }

theorem work_lt_of_advance (s t : RelayRun) (h : s.advance = some t) :
    t.relay.work t.now < s.relay.work s.now := by
  obtain ⟨⟨r, cmd⟩, hr, rfl⟩ := Option.map_eq_some_iff.mp h
  exact Relay.work_lt_of_step hr

/-- **One poll** of the relay task: steps until it waits. -/
def poll : RelayRun → RelayRun := exhaust advance (fun s => s.relay.work s.now) work_lt_of_advance

/-- A command is signalled: it overwrites one that was not taken. -/
def signal (s : RelayRun) (cmd : RelayCmd) : RelayRun :=
  { s with
    relay := match cmd with
      | .pulse => s.relay.pulseRelay
      | .off => s.relay.relayOff
    signalled := some cmd }

end RelayRun

/-- What happens in a run: time passes, a command is signalled, or the task is polled. -/
inductive RelayRunEvent
  | wait (ticks : ℕ)
  | signal (cmd : RelayCmd)
  | poll
  deriving DecidableEq, Repr

/-- **One event.** -/
def RelayRun.step (s : RelayRun) : RelayRunEvent → RelayRun
  | .wait ticks => { s with now := s.now + ticks }
  | .signal cmd => s.signal cmd
  | .poll => s.poll

/-- **The relay task as a system.** -/
def relayTaskSystem : System RelayRun RelayRunEvent where
  init s := s = RelayRun.boot
  step s e t := s.step e = t

namespace RelayRun

/-- **The invariant of the relay task.** -/
structure Inv (s : RelayRun) : Prop where
  pending : ∀ cmd, s.relay.trigger = some cmd → s.signalled = some cmd
  caughtUp : s.relay.trigger = none → s.taken.map Prod.fst = s.signalled
  pulsing : ∀ d, s.relay.phase = .pulsing d → ∃ c, s.taken = some (.pulse, c) ∧ d = c + relayPulse
  waiting : s.relay.phase = .waiting → ∀ c, s.taken = some (.pulse, c) → c + relayPulse ≤ s.now
  pin : s.relay.PinFollows
  level : pinAfter s.effects = s.relay.pin
  change : changeAfter s.effects = s.relay.change
  announced : Announced s.effects

variable {s t : RelayRun}

theorem inv_boot : Inv boot where
  pending := by simp [boot, Relay.boot]
  caughtUp := by simp [boot]
  pulsing := by simp [boot, Relay.boot]
  waiting := by simp [boot]
  pin := Relay.pinFollows_boot
  level := rfl
  change := rfl
  announced := announced_nil

theorem Inv.signal (h : Inv s) (cmd : RelayCmd) : Inv (s.signal cmd) := by
  cases cmd <;> exact {
    pending := fun cmd hcmd => hcmd
    caughtUp := fun hnone => by cases hnone
    pulsing := h.pulsing
    waiting := h.waiting
    pin := h.pin
    level := h.level
    change := h.change
    announced := h.announced }

theorem Inv.wait (h : Inv s) (ticks : ℕ) : Inv { s with now := s.now + ticks } where
  pending := h.pending
  caughtUp := h.caughtUp
  pulsing := h.pulsing
  waiting hphase c hc := Nat.le_add_right_of_le (h.waiting hphase c hc)
  pin := h.pin
  level := h.level
  change := h.change
  announced := h.announced

/-- The pin falls, and the change is signalled next: that is all an end of a pulse does. -/
theorem Inv.fall (h : Inv s) {deadline : ℕ} (hphase : s.relay.phase = .pulsing deadline) :
    pinAfter (s.effects ++ [.setRelay false, .signalChange false]) = false ∧
      changeAfter (s.effects ++ [.setRelay false, .signalChange false]) = some false ∧
        Announced (s.effects ++ [.setRelay false, .signalChange false]) := by
  have hhigh : pinAfter s.effects = true := h.level.trans (h.pin.mpr ⟨deadline, hphase⟩)
  exact ⟨by simp [pinAfter], by simp [changeAfter], h.announced.append_fall hhigh⟩

/-- **One step of the relay task** keeps the invariant. -/
theorem Inv.advance (h : Inv s) (hstep : s.advance = some t) : Inv t := by
  obtain ⟨⟨r, taken⟩, hr, rfl⟩ := Option.map_eq_some_iff.mp hstep
  have hdoes := Relay.does_of_step h.pin hr
  have hpin := (Relay.moves_of_step hr).pinFollows h.pin
  generalize s.relay.effects s.now = effects at hdoes ⊢
  cases hdoes with
  | ignore hphase htrigger =>
    exact {
      pending := by simp
      caughtUp := fun _ => (h.pending .off htrigger).symm
      pulsing := by simp [hphase]
      waiting := by simp
      pin := hpin
      level := by simpa using h.level
      change := by simpa using h.change
      announced := by simpa using h.announced }
  | start hphase htrigger =>
    exact {
      pending := by simp [Relay.startPulse]
      caughtUp := fun _ => (h.pending .pulse htrigger).symm
      pulsing := fun d hd => ⟨s.now, rfl, (RelayPhase.pulsing.inj hd).symm⟩
      waiting := by simp [Relay.startPulse]
      pin := hpin
      level := by simp [Relay.startPulse]
      change := by simpa [Relay.startPulse] using h.change
      announced := h.announced.concat_high }
  | @retrigger deadline hphase hnow htrigger =>
    -- the pin stays HIGH: only the timer starts anew
    have hhigh : s.relay.pin = true := h.pin.mpr ⟨deadline, hphase⟩
    exact {
      pending := by simp [Relay.startPulse]
      caughtUp := fun _ => (h.pending .pulse htrigger).symm
      pulsing := fun d hd => ⟨s.now, rfl, (RelayPhase.pulsing.inj hd).symm⟩
      waiting := by simp [Relay.startPulse]
      pin := hpin
      level := by simpa [Relay.startPulse, hhigh] using h.level
      change := by simpa [Relay.startPulse] using h.change
      announced := by simpa using h.announced }
  | @expire deadline hphase hnow =>
    obtain ⟨c, hc, rfl⟩ := h.pulsing deadline hphase
    obtain ⟨hlevel, hchange, hannounced⟩ := h.fall hphase
    exact {
      pending := h.pending
      caughtUp := h.caughtUp
      pulsing := by simp [Relay.endPulse]
      waiting := by
        intro _ c' hc'
        obtain ⟨-, rfl⟩ := Prod.mk.inj (Option.some.inj (hc.symm.trans hc'))
        exact hnow
      pin := hpin
      level := hlevel
      change := hchange
      announced := hannounced }
  | @cancel deadline hphase hnow htrigger =>
    obtain ⟨hlevel, hchange, hannounced⟩ := h.fall hphase
    exact {
      pending := by simp
      caughtUp := fun _ => (h.pending .off htrigger).symm
      pulsing := by simp [Relay.endPulse]
      waiting := by simp
      pin := hpin
      level := hlevel
      change := hchange
      announced := hannounced }

theorem inv_of_reachable (h : relayTaskSystem.Reachable s) : Inv s := by
  apply h.invariant
  · rintro _ rfl
    exact inv_boot
  · rintro s e _ hs rfl
    cases e with
    | wait ticks => exact hs.wait ticks
    | signal cmd => exact hs.signal cmd
    | poll => exact exhaust_invariant _ (fun _ _ => Inv.advance) hs

/-- After a poll the task waits: no command is left, and no pulse is due. -/
theorem waits_poll (s : RelayRun) :
    s.poll.relay.trigger = none ∧ ∀ d, s.poll.relay.phase = .pulsing d → s.poll.now < d := by
  have hstuck : s.poll.advance = none := exhaust_stuck _ s
  generalize s.poll = t at hstuck
  have hstep : t.relay.step t.now = none := Option.map_eq_none_iff.mp hstuck
  unfold Relay.step at hstep
  split at hstep
  · next hphase =>
    split at hstep
    · next htrigger => exact ⟨htrigger, fun d hd => by rw [hphase] at hd; cases hd⟩
    · cases hstep
    · cases hstep
  · next deadline hphase =>
    split at hstep
    · cases hstep
    · next hnow =>
      split at hstep
      · next htrigger =>
        refine ⟨htrigger, fun d hd => ?_⟩
        obtain rfl := RelayPhase.pulsing.inj (hphase.symm.trans hd)
        exact Nat.lt_of_not_le hnow
      · cases hstep
      · cases hstep

/-- A step of a poll, or the end of it. -/
theorem poll_of_advance {s t : RelayRun} (h : s.advance = some t) : s.poll = t.poll :=
  exhaust_of_some work_lt_of_advance h

theorem poll_of_stuck {s : RelayRun} (h : s.advance = none) : s.poll = s :=
  exhaust_of_none work_lt_of_advance h

end RelayRun

/-- **The relay task after a poll.** Whatever was signalled and however it was polled before: no
command is left, and the one taken last is the one signalled last. The pin is HIGH exactly if
that is a pulse taken less than two seconds before. And the change to LOW was signalled at every
fall of the pin and at no other moment: the pin and the change signal are what the effects of the
steps leave, and among the effects each fall is announced next. -/
theorem relay_after_poll {s : RelayRun} (h : relayTaskSystem.Reachable s) :
    s.poll.relay.trigger = none ∧ s.poll.taken.map Prod.fst = s.poll.signalled ∧
      (s.poll.relay.pin = true ↔
        ∃ c, s.poll.taken = some (.pulse, c) ∧ s.poll.now < c + relayPulse) ∧
          s.poll.relay.pin = pinAfter s.poll.effects ∧
            s.poll.relay.change = changeAfter s.poll.effects ∧ Announced s.poll.effects := by
  have hinv : RelayRun.Inv s.poll := exhaust_invariant _ (fun _ _ => RelayRun.Inv.advance)
    (RelayRun.inv_of_reachable h)
  obtain ⟨htrigger, hdue⟩ := s.waits_poll
  refine ⟨htrigger, hinv.caughtUp htrigger, ?_, hinv.level.symm, hinv.change.symm,
    hinv.announced⟩
  rw [show s.poll.relay.pin = true ↔ _ from hinv.pin]
  constructor
  · rintro ⟨d, hd⟩
    -- a pulse that runs after a poll is not due
    obtain ⟨c, hc, rfl⟩ := hinv.pulsing d hd
    exact ⟨c, hc, hdue _ hd⟩
  · rintro ⟨c, hc, hnow⟩
    -- a task that waits has finished the pulse taken last
    cases hphase : s.poll.relay.phase with
    | pulsing d => exact ⟨d, rfl⟩
    | waiting => exact absurd (hinv.waiting hphase c hc) (Nat.not_le.mpr hnow)

/-- A pulse that is retriggered after a second and ends two seconds later: the pin is LOW again,
and its one fall was announced. -/
theorem relay_after_poll_retriggered :
    ∃ s : RelayRun, relayTaskSystem.Reachable s ∧ s.taken = some (.pulse, 1000000) ∧
      s.relay.pin = true ∧ s.poll.relay.pin = false ∧ s.poll.relay.change = some false ∧
        s.poll.effects = [.setRelay true, .setRelay false, .signalChange false] ∧
        s.poll.relay.trigger = none ∧ s.poll.taken.map Prod.fst = s.poll.signalled ∧
      (s.poll.relay.pin = true ↔
        ∃ c, s.poll.taken = some (.pulse, c) ∧ s.poll.now < c + relayPulse) ∧
          s.poll.relay.pin = pinAfter s.poll.effects ∧
            s.poll.relay.change = changeAfter s.poll.effects ∧ Announced s.poll.effects := by
  -- the pulse is taken in the first poll, and taken again in the second
  let started : RelayRun :=
    ⟨0, ⟨none, none, .pulsing 2000000, true⟩, some .pulse, some (.pulse, 0), [.setRelay true]⟩
  let later : RelayRun := { started with now := 1000000 }
  let restarted : RelayRun :=
    ⟨1000000, ⟨none, none, .pulsing 3000000, true⟩, some .pulse, some (.pulse, 1000000),
      [.setRelay true]⟩
  let due : RelayRun := { restarted with now := 3000000 }
  let ended : RelayRun :=
    { due with
      relay := ⟨none, some false, .waiting, false⟩
      effects := [.setRelay true, .setRelay false, .signalChange false] }
  have hstarted : (RelayRun.boot.signal .pulse).step .poll = started :=
    (RelayRun.poll_of_advance (by decide)).trans (RelayRun.poll_of_stuck (by decide))
  have hlater : started.step (.wait 1000000) = later := by decide
  have hrestarted : (later.signal .pulse).step .poll = restarted :=
    (RelayRun.poll_of_advance (by decide)).trans (RelayRun.poll_of_stuck (by decide))
  have hdue : restarted.step (.wait 2000000) = due := by decide
  have hended : due.poll = ended :=
    (RelayRun.poll_of_advance (by decide)).trans (RelayRun.poll_of_stuck (by decide))
  have hrun : relayTaskSystem.Run RelayRun.boot
      [.signal .pulse, .poll, .wait 1000000, .signal .pulse, .poll, .wait 2000000] due :=
    .cons rfl (.cons hstarted (.cons hlater (.cons rfl (.cons hrestarted
      (.cons hdue (.nil _))))))
  have hreach : relayTaskSystem.Reachable due := ⟨_, _, rfl, hrun⟩
  refine ⟨due, hreach, rfl, rfl, ?_, ?_, ?_, relay_after_poll hreach⟩
  all_goals rw [hended]

end Jzf407
