import Jzf407.Foundation.Transition
import Jzf407.Logic.LedDispatch

/-!
# The relay, the MQTT task and the broker

A truthy command on `stm32/relay` puts a `pulse` into the trigger of the relay task, a falsy
one an `off`; the trigger holds the last command that was not yet taken. The relay task holds
the pin HIGH for two seconds and then reports the end of the pulse to the MQTT task, which
publishes it on the same topic. The device subscribes to that topic, so the broker sends the
report back, and the receive path takes it for a command.

* The relay task: `Relay` has its two signals, its phase and the pin, and `Relay.step` goes from one
  await to the next. Its four ways are `Relay.Moves`.
* The MQTT task as far as it concerns the relay: it is online or not, takes a change, publishes it,
  and handles a message (`RelayNet.handleEvent`).
* The broker and the other clients: lists of what is in flight in both directions.

`relaySystem` is all of these, step by step (`RelayEvent`). Messages and reports are in flight for
any time and arrive in any order or not at all; the device may lose the broker or be reset at any
point. `History` records what the properties of runs speak of and no party can see: the commands
delivered, whether each was a report of the device, and which of them caused the last pulse.

Most invariants depend on the relay task and the history only. `affects_of_step` says of every
step what it does to these: nothing, a move of the relay task, a command, the taking of a change, or
a reset.
-/

namespace Jzf407

open Foundation

/-! ### The relay task -/

/-- A command to the relay task. -/
inductive RelayCmd
  | pulse
  | off
  deriving DecidableEq, Repr

/-- The length of a pulse, two seconds in microsecond ticks. -/
def relayPulse : ℕ := 2 * 1000000

/-- Where the relay task is: waiting for a command, or in a pulse that ends at a deadline. -/
inductive RelayPhase
  | waiting
  | pulsing (deadline : ℕ)
  deriving DecidableEq, Repr

/-- The two signals of the relay task, its phase, and the pin. -/
structure Relay where
  trigger : Option RelayCmd
  change : Option Bool
  phase : RelayPhase
  pin : Bool
  deriving DecidableEq, Repr

namespace Relay

/-- The relay after a reset. -/
def boot : Relay := ⟨none, none, .waiting, false⟩

def pulseRelay (r : Relay) : Relay := { r with trigger := some .pulse }

def relayOff (r : Relay) : Relay := { r with trigger := some .off }

/-- A pulse is taken from the trigger: the pin goes HIGH, and the timer starts anew. -/
def startPulse (r : Relay) (now : ℕ) : Relay :=
  { r with trigger := none, phase := .pulsing (now + relayPulse), pin := true }

/-- The pulse ends: the pin goes LOW, and the change is signalled. -/
def endPulse (r : Relay) : Relay :=
  { r with change := some false, phase := .waiting, pin := false }

/-- **One step of the relay task**, with the command that it takes. A timer that has expired
goes before a command. -/
def step (r : Relay) (now : ℕ) : Option (Relay × Option RelayCmd) :=
  match r.phase with
  | .waiting =>
      match r.trigger with
      | none => none
      | some .off => some ({ r with trigger := none }, some .off)
      | some .pulse => some (r.startPulse now, some .pulse)
  | .pulsing deadline =>
      -- the timer comes first in the select
      if deadline ≤ now then some (r.endPulse, none)
      else match r.trigger with
        | none => none
        | some .pulse => some (r.startPulse now, some .pulse)
        | some .off => some ({ r.endPulse with trigger := none }, some .off)

/-- What a step of the relay task can be. -/
inductive Moves (r : Relay) (now : ℕ) : Relay → Option RelayCmd → Prop
  | ignore (hphase : r.phase = .waiting) (htrigger : r.trigger = some .off) :
      Moves r now { r with trigger := none } (some .off)
  | start (htrigger : r.trigger = some .pulse) : Moves r now (r.startPulse now) (some .pulse)
  | expire {deadline : ℕ} (hphase : r.phase = .pulsing deadline) (hnow : deadline ≤ now) :
      Moves r now r.endPulse none
  | cancel {deadline : ℕ} (hphase : r.phase = .pulsing deadline) (hnow : now < deadline)
      (htrigger : r.trigger = some .off) :
      Moves r now { r.endPulse with trigger := none } (some .off)

variable {r r' : Relay} {now : ℕ} {taken : Option RelayCmd}

theorem moves_of_step (h : r.step now = some (r', taken)) : Moves r now r' taken := by
  unfold step at h
  split at h
  · next hphase =>
    split at h
    · cases h
    · next htrigger =>
      cases h
      exact .ignore hphase htrigger
    · next htrigger =>
      cases h
      exact .start htrigger
  · next deadline hphase =>
    split at h
    · next hnow =>
      cases h
      exact .expire hphase hnow
    · next hnow =>
      split at h
      · cases h
      · next htrigger =>
        cases h
        exact .start htrigger
      · next htrigger =>
        cases h
        exact .cancel hphase (Nat.lt_of_not_le hnow) htrigger

/-- The pin is HIGH exactly while a pulse runs. -/
def PinFollows (r : Relay) : Prop := r.pin = true ↔ ∃ d, r.phase = .pulsing d

theorem pinFollows_boot : boot.PinFollows := by simp [PinFollows, boot]

/-- **The pin keeps following the phase**: a pulse that starts drives it HIGH, and one that ends
drives it LOW. -/
theorem Moves.pinFollows (h : Moves r now r' taken) (hpin : r.PinFollows) : r'.PinFollows := by
  cases h with
  | ignore => exact hpin
  | start => simp [PinFollows, startPulse]
  | expire => simp [PinFollows, endPulse]
  | cancel => simp [PinFollows, endPulse]

end Relay

/-! ### Messages -/

/-- The topic of the relay. -/
def topicRelay : Str := "stm32/relay".toList

/-- The payload of a report. -/
def relayPayload (relayOn : Bool) : List UInt8 :=
  if relayOn then asBytes "1".toList else asBytes "0".toList

/-- A message on the topic of the relay, in flight to the device. Whether the device itself
has published it is not part of what it receives. -/
structure Message where
  own : Bool
  payload : List UInt8
  retain : Bool
  deriving DecidableEq, Repr

/-- A command that was delivered to the device. -/
structure Command where
  own : Bool
  on : Bool
  deriving DecidableEq, Repr

/-- What has happened so far: the commands delivered, how many of them and at what time when
the last pulse was taken, and the number of reports published. -/
structure History where
  delivered : List Command
  caused : ℕ
  takenAt : ℕ
  published : ℕ
  deriving DecidableEq, Repr

/-- The relay task and the MQTT task of the device, with what is in flight to and from the
broker. A report that is being published is in neither. -/
structure RelayNet where
  now : ℕ
  relay : Relay
  online : Bool
  publishing : Option Bool
  toBroker : List (List UInt8)
  toDevice : List Message
  history : History
  deriving DecidableEq, Repr

namespace RelayNet

/-- The start of a run. -/
def boot : RelayNet where
  now := 0
  relay := Relay.boot
  online := false
  publishing := none
  toBroker := []
  toDevice := []
  history := ⟨[], 0, 0, 0⟩

/-- A command is delivered to the relay task. -/
def command (s : RelayNet) (own on : Bool) : RelayNet :=
  { s with
    relay := if on then s.relay.pulseRelay else s.relay.relayOff
    history := { s.history with delivered := s.history.delivered ++ [⟨own, on⟩] } }

/-- The MQTT task handles a message on the topic of the relay. -/
def handleEvent (s : RelayNet) (m : Message) : RelayNet :=
  -- a retained message is an old command, sent again with the subscription
  if m.retain then s
  else match messageCmd topicRelay m.payload with
    | some (.relay on) => s.command m.own on
    | _ => s

/-- The relay task takes a command, or none. The trigger holds the last command delivered, so
a pulse that is taken is caused by that one. -/
def take (s : RelayNet) : Option RelayCmd → History
  | some .pulse => { s.history with caused := s.history.delivered.length, takenAt := s.now }
  | _ => s.history

end RelayNet

/-- What the parties do. -/
inductive RelayEvent
  | wait (ticks : ℕ)
  | relayTask
  | connect
  | disconnect
  | takeChange
  | send
  | deliver (i : ℕ)
  | clientPublish (payload : List UInt8) (retain : Bool)
  | forward (i : ℕ)
  | loseReport (i : ℕ)
  | loseMessage (i : ℕ)
  | reset
  deriving DecidableEq, Repr

/-- **One step of the parties.** The MQTT task receives messages and takes reports while it
is online and publishes nothing; losing the broker it gives up what it publishes. The broker
sends a report that it receives back to the device. -/
def RelayNet.step (s : RelayNet) : RelayEvent → Option RelayNet
  | .wait ticks => some { s with now := s.now + ticks }
  | .relayTask =>
      (s.relay.step s.now).map fun p => { s with relay := p.1, history := s.take p.2 }
  | .connect => some { s with online := true }
  | .disconnect => some { s with online := false, publishing := none }
  | .takeChange =>
      match s.relay.change with
      | some relayOn =>
          if s.online ∧ s.publishing = none then
            some { s with
              relay := { s.relay with change := none }
              publishing := some relayOn
              history := { s.history with published := s.history.published + 1 } }
          else none
      | none => none
  | .send =>
      s.publishing.map fun relayOn =>
        { s with publishing := none, toBroker := s.toBroker ++ [relayPayload relayOn] }
  | .deliver i =>
      match s.toDevice[i]? with
      | some m =>
          if s.online ∧ s.publishing = none then
            some (RelayNet.handleEvent { s with toDevice := s.toDevice.eraseIdx i } m)
          else none
      | none => none
  | .clientPublish payload retain =>
      some { s with toDevice := s.toDevice ++ [⟨false, payload, retain⟩] }
  | .forward i =>
      s.toBroker[i]?.map fun payload =>
        { s with
          toBroker := s.toBroker.eraseIdx i
          toDevice := s.toDevice ++ [⟨true, payload, false⟩] }
  | .loseReport i => some { s with toBroker := s.toBroker.eraseIdx i }
  | .loseMessage i => some { s with toDevice := s.toDevice.eraseIdx i }
  | .reset => some { s with relay := Relay.boot, online := false, publishing := none }

/-! ### What a step does to the relay task -/

namespace RelayNet

variable {s s' : RelayNet} {e : RelayEvent}

/-- What a step can do to the relay task and to the history: nothing, a step of the relay
task, the delivery of a command, the publication of a report, or a reset. -/
inductive Affects (s s' : RelayNet) : RelayEvent → Prop
  | nothing {e : RelayEvent} (hrelay : s'.relay = s.relay) (hhistory : s'.history = s.history)
      (hnow : s.now ≤ s'.now) : Affects s s' e
  | task {taken : Option RelayCmd} (hmoves : s.relay.Moves s.now s'.relay taken)
      (hhistory : s'.history = s.take taken) (hnow : s'.now = s.now) : Affects s s' .relayTask
  | command {i : ℕ} {m : Message} {on : Bool} (hm : s.toDevice[i]? = some m)
      (hcmd : messageCmd topicRelay m.payload = some (.relay on))
      (hrelay : s'.relay = (s.command m.own on).relay)
      (hhistory : s'.history = (s.command m.own on).history) (hnow : s'.now = s.now) :
      Affects s s' (.deliver i)
  | change {on : Bool} (hchange : s.relay.change = some on)
      (hrelay : s'.relay = { s.relay with change := none })
      (hhistory : s'.history = { s.history with published := s.history.published + 1 })
      (hnow : s'.now = s.now) : Affects s s' .takeChange
  | reset (hrelay : s'.relay = Relay.boot) (hhistory : s'.history = s.history) :
      Affects s s' .reset

theorem affects_handleEvent {i : ℕ} {m : Message} (hm : s.toDevice[i]? = some m) :
    Affects s (RelayNet.handleEvent { s with toDevice := s.toDevice.eraseIdx i } m)
      (.deliver i) := by
  unfold RelayNet.handleEvent
  split
  · exact .nothing rfl rfl (Nat.le_refl _)
  · split
    · next on hcmd => exact .command hm hcmd rfl rfl rfl
    · exact .nothing rfl rfl (Nat.le_refl _)

/-- **Every step affects the relay task in one of these ways.** -/
theorem affects_of_step (hstep : s.step e = some s') : Affects s s' e := by
  cases e with
  | relayTask =>
    obtain ⟨⟨r, taken⟩, hr, rfl⟩ := Option.map_eq_some_iff.mp hstep
    exact .task (Relay.moves_of_step hr) rfl rfl
  | takeChange =>
    rw [RelayNet.step] at hstep
    split at hstep
    · next on hchange =>
      split at hstep
      · obtain rfl := Option.some.inj hstep
        exact .change hchange rfl rfl rfl
      · cases hstep
    · cases hstep
  | deliver i =>
    rw [RelayNet.step] at hstep
    split at hstep
    · next m hm =>
      split at hstep
      · obtain rfl := Option.some.inj hstep
        exact affects_handleEvent hm
      · cases hstep
    · cases hstep
  -- what is in flight is neither relay nor history
  | send =>
    obtain ⟨on, -, rfl⟩ := Option.map_eq_some_iff.mp hstep
    exact .nothing rfl rfl (Nat.le_refl _)
  | forward i =>
    obtain ⟨payload, -, rfl⟩ := Option.map_eq_some_iff.mp hstep
    exact .nothing rfl rfl (Nat.le_refl _)
  | wait ticks =>
    obtain rfl := Option.some.inj hstep
    exact .nothing rfl rfl (Nat.le_add_right _ _)
  | reset =>
    obtain rfl := Option.some.inj hstep
    exact .reset rfl rfl
  | connect | disconnect | clientPublish | loseReport | loseMessage =>
    obtain rfl := Option.some.inj hstep
    exact .nothing rfl rfl (Nat.le_refl _)

/-- Handling a message leaves what is in flight as it is. -/
theorem handleEvent_inFlight (s : RelayNet) (m : Message) :
    (s.handleEvent m).publishing = s.publishing ∧ (s.handleEvent m).toBroker = s.toBroker ∧
      (s.handleEvent m).toDevice = s.toDevice := by
  unfold RelayNet.handleEvent
  split
  · exact ⟨rfl, rfl, rfl⟩
  · split <;> exact ⟨rfl, rfl, rfl⟩

@[simp]
theorem phase_command (s : RelayNet) (own on : Bool) :
    (s.command own on).relay.phase = s.relay.phase := by
  cases on <;> rfl

@[simp]
theorem change_command (s : RelayNet) (own on : Bool) :
    (s.command own on).relay.change = s.relay.change := by
  cases on <;> rfl

/-- Handling a message leaves the change signal as it is. -/
theorem change_handleEvent (s : RelayNet) (m : Message) :
    (s.handleEvent m).relay.change = s.relay.change := by
  unfold RelayNet.handleEvent
  split
  · rfl
  · split
    · exact change_command s m.own _
    · rfl

@[simp]
theorem pin_command (s : RelayNet) (own on : Bool) :
    (s.command own on).relay.pin = s.relay.pin := by
  cases on <;> rfl

@[simp]
theorem delivered_take (s : RelayNet) (taken : Option RelayCmd) :
    (s.take taken).delivered = s.history.delivered := by
  rcases taken with - | ⟨- | -⟩ <;> rfl

@[simp]
theorem published_take (s : RelayNet) (taken : Option RelayCmd) :
    (s.take taken).published = s.history.published := by
  rcases taken with - | ⟨- | -⟩ <;> rfl

end RelayNet

/-- **The parties as a system.** -/
def relaySystem : System RelayNet RelayEvent where
  init s := s = RelayNet.boot
  step s e s' := s.step e = some s'

end Jzf407
