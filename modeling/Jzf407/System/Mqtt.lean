import Jzf407.System.Leds
import Jzf407.System.Relay
import Jzf407.Web.Texts
import Mathlib.Data.List.DropRight

/-!
# The MQTT task

`mqtt_task` connects to the broker, announces itself, subscribes to six topics and then waits
for whatever comes first: a packet, a change of the relay, or a timer. Every await of the task is
a phase (`MqttPhase`), and `MqttTask.resume` is what the task does from one await to the next. The
client hands its packets to the connection in the order of the calls; `log` keeps them, with the
messages received between them and the time of each (`Entry`).

The functions of the source keep their places. `buildConnectOptions` is the CONNECT with the will
and the keep-alive, `MqttTask.subscribeAll` the six subscriptions, `MqttTask.loopTop` the top of the
connected loop with its heartbeat, and `MqttTask.handleEvent` what a message is answered with.
`mqttString` and `mqttBinary` stand for two constructors of the client library, with the limits that
MQTT 5 sets.

`mqttSystem` puts the task beside the relay task, the broker and other clients (`MqttNet`). What the
network does is arbitrary: every await may fail, a message may come at any time, be lost, or be
overtaken. Time is an event of its own. A reset comes at any time, too, and starts the task with
another configuration and another reset reason.

No proof later unfolds the step. `MqttTask.resumes_of_resume` lists what an await can lead to
(`MqttTask.Resumes`), and `MqttNet.taskStep_of_step` what a step of the parties does to the task
and the clock; every invariant of the task is proved along these two.
-/

namespace Jzf407

open Foundation

/-! ### Packets -/

/-- One second in microsecond ticks. -/
def second : ℕ := 1000000

def topicLed1 : Str := "stm32/led/1".toList
def topicLed2 : Str := "stm32/led/2".toList
def topicLedAll : Str := "stm32/led/all".toList
def topicPing : Str := "stm32/ping".toList
def topicReboot : Str := "stm32/cmd/reboot".toList
def topicStatus : Str := "stm32/status".toList
def topicDiag : Str := "stm32/diag".toList
def topicHeartbeat : Str := "stm32/heartbeat".toList
def topicPong : Str := "stm32/pong".toList

/-- The time between two heartbeats, ten seconds. -/
def heartbeatInterval : ℕ := 10000 * 1000

/-- The topics that the device subscribes to, in order. -/
def subscribeTopics : List Str :=
  [topicLed1, topicLed2, topicLedAll, topicRelay, topicPing, topicReboot]

/-- The message that the broker publishes for the device when it loses the device. -/
structure WillOptions where
  topic : Str
  message : List UInt8
  retain : Bool
  deriving DecidableEq, Repr

/-- What a connection is asked for. -/
structure ConnectOptions where
  cleanStart : Bool
  keepAlive : ℕ
  will : WillOptions
  userName : Option Str
  password : Option (List UInt8)
  deriving DecidableEq, Repr

/-- A packet of the device. -/
inductive Packet
  | connect (clientId : Option Str) (options : ConnectOptions)
  | publish (topic : Str) (payload : List UInt8) (retain : Bool)
  | subscribe (topic : Str)
  | pingreq
  deriving DecidableEq, Repr

/-- The texts that a packet can carry. The constructor belongs to the client library, and refuses
what MQTT 5 does not allow as a UTF-8 string: more than 65535 bytes, and the character U+0000. -/
def mqttString (s : Str) : Option Str :=
  if byteLen s ≤ 65535 ∧ NulFree s then some s else none

/-- The data that a packet can carry. This constructor, too, belongs to the client library: binary
data in MQTT 5 is preceded by its length in two bytes, so it refuses more than 65535. -/
def mqttBinary (b : List UInt8) : Option (List UInt8) := if b.length ≤ 65535 then some b else none

/-- The options of the connection; the keep-alive is in seconds. -/
def buildConnectOptions (cfg : NetworkConfig) : ConnectOptions where
  cleanStart := true
  keepAlive := 120
  will := ⟨topicStatus, asBytes "offline".toList, true⟩
  userName := if cfg.mqttUser.isEmpty then none else mqttString cfg.mqttUser.chars
  password := if cfg.mqttPass.isEmpty then none else mqttBinary cfg.mqttPass.asBytes

/-- The client identifier: the configured one without the NULs at its end. -/
def clientIdStr (cfg : NetworkConfig) : Str :=
  ((fromUtf8 cfg.clientId.asBytes).getD defaultId).rdropWhile (· == '\x00')

/-- The first packet of a connection. -/
def connectPacket (cfg : NetworkConfig) : Packet :=
  .connect (mqttString (clientIdStr cfg)) (buildConnectOptions cfg)

def publishQos0 (topic : Str) (payload : List UInt8) : Packet := .publish topic payload false

def publishRetained (topic : Str) (payload : List UInt8) : Packet := .publish topic payload true

/-! ### The task -/

/-- The awaits of the task. -/
inductive MqttPhase
  | waitNetwork
  | connecting
  | handshake
  | status
  | diag
  | subscribing (n : ℕ)
  | heartbeat (now : ℕ)
  | selecting (deadline : ℕ)
  | reading
  | saving
  | pong
  | reporting (relayOn : Bool)
  | pinging
  | retrying (deadline : ℕ)
  -- the device resets itself; nothing else happens before that
  | rebooting
  deriving DecidableEq, Repr

/-- An entry of the log of a connection: a packet handed to the client, or a message received. A
packet is logged when the call that hands it over begins; what the call comes to is no part of the
log, as the task itself looks at the result of a report, a subscription or a ping only. -/
inductive Entry
  | sent (p : Packet)
  | received (p : Publish)
  deriving DecidableEq, Repr

/-- The task, with what it was started with: its phase and when that began, `MQTT_ONLINE`, the
time of the next heartbeat, the log of the current connection, and the times at which connections
were tried since the boot. -/
structure MqttTask where
  cfg : NetworkConfig
  reason : ResetReason
  phase : MqttPhase
  since : ℕ
  online : Bool
  nextHeartbeat : ℕ
  log : List (ℕ × Entry)
  attempts : List ℕ
  deriving DecidableEq

namespace MqttTask

/-- The task after a boot. -/
def boot (cfg : NetworkConfig) (reason : ResetReason) (now : ℕ) : MqttTask where
  cfg := cfg
  reason := reason
  phase := .waitNetwork
  since := now
  online := false
  nextHeartbeat := 0
  log := []
  attempts := []

/-- Await something. -/
def goto (t : MqttTask) (now : ℕ) (p : MqttPhase) : MqttTask := { t with phase := p, since := now }

/-- Record an entry. -/
def note (t : MqttTask) (now : ℕ) (e : Entry) : MqttTask := { t with log := t.log ++ [(now, e)] }

/-- Hand a packet to the connection and await the end of it. -/
def hand (t : MqttTask) (now : ℕ) (p : Packet) (phase : MqttPhase) : MqttTask :=
  (t.note now (.sent p)).goto now phase

/-- The top of the outer loop: a new socket. -/
def connect (t : MqttTask) (now : ℕ) : MqttTask :=
  { t with online := false, phase := .connecting, since := now, log := [],
           attempts := t.attempts ++ [now] }

/-- Wait for a second before the next attempt. -/
def retryLater (t : MqttTask) (now : ℕ) : MqttTask := t.goto now (.retrying (now + second))

/-- The connection is given up. -/
def disconnected (t : MqttTask) (now : ℕ) : MqttTask := { t with online := false }.retryLater now

/-- Wait for a packet, a change or the timer. -/
def select (t : MqttTask) (now : ℕ) : MqttTask :=
  t.goto now (.selecting (now + min (t.nextHeartbeat - now) second))

/-- The top of the connected loop: a heartbeat when it is due. -/
def loopTop (t : MqttTask) (now : ℕ) : MqttTask :=
  if t.nextHeartbeat ≤ now then
    t.hand now (publishQos0 topicHeartbeat (asBytes "1".toList)) (.heartbeat now)
  else t.select now

/-- The connected loop begins. -/
def runConnectedLoop (t : MqttTask) (now : ℕ) : MqttTask :=
  { t with nextHeartbeat := now + heartbeatInterval }.loopTop now

/-- The subscriptions from the `n`-th on. -/
def subscribeAll (t : MqttTask) (now : ℕ) (n : ℕ) : MqttTask :=
  match subscribeTopics[n]? with
  | some topic => t.hand now (.subscribe topic) (.subscribing n)
  | none => t.runConnectedLoop now

/-- The broker has accepted the connection. -/
def connected (t : MqttTask) (now : ℕ) : MqttTask :=
  { t with online := true }.hand now (publishRetained topicStatus (asBytes "online".toList)) .status

end MqttTask

/-- How an await of the task ends. -/
inductive Await
  | networkUp
  | tcp (ok : Bool)
  | connack (ok : Bool)
  | published (ok : Bool)
  | subscribed (ok : Bool)
  | header (ok : Bool)
  | timer
  | packet
  | bodyError
  | saved
  | reported (ok : Bool)
  | pinged (ok : Bool)
  | retry
  deriving DecidableEq, Repr

/-- **The task goes on after an await**, up to the next one. -/
def MqttTask.resume (t : MqttTask) (now : ℕ) : Await → Option MqttTask
  | .networkUp => if t.phase = .waitNetwork then some (t.connect now) else none
  | .tcp ok =>
      if t.phase = .connecting then
        some (if ok then t.hand now (connectPacket t.cfg) .handshake else t.retryLater now)
      else none
  | .connack ok =>
      if t.phase = .handshake then some (if ok then t.connected now else t.retryLater now) else none
  -- what a publish comes to is looked at for a report only
  | .published _ =>
      match t.phase with
      | .status => some (t.hand now (publishRetained topicDiag (asBytes t.reason.asStr)) .diag)
      | .diag => some (t.subscribeAll now 0)
      | .heartbeat began =>
          some ({ t with nextHeartbeat := began + heartbeatInterval }.select now)
      | .pong => some (t.loopTop now)
      | _ => none
  | .subscribed ok =>
      match t.phase with
      | .subscribing n => some (if ok then t.subscribeAll now (n + 1) else t.disconnected now)
      | _ => none
  | .header ok =>
      match t.phase with
      | .selecting _ => some (if ok then t.goto now .reading else t.disconnected now)
      | _ => none
  | .timer =>
      match t.phase with
      | .selecting deadline =>
          if deadline ≤ now then some (t.hand now .pingreq .pinging) else none
      | _ => none
  -- an acknowledgement or another packet that is no message
  | .packet => if t.phase = .reading then some (t.loopTop now) else none
  | .bodyError => if t.phase = .reading then some (t.disconnected now) else none
  | .saved => if t.phase = .saving then some (t.loopTop now) else none
  | .reported ok =>
      match t.phase with
      | .reporting _ => some (if ok then t.loopTop now else t.disconnected now)
      | _ => none
  | .pinged ok =>
      if t.phase = .pinging then some (if ok then t.loopTop now else t.disconnected now) else none
  | .retry =>
      match t.phase with
      | .retrying deadline => if deadline ≤ now then some (t.connect now) else none
      | _ => none

namespace MqttPhase

/-- The awaits that end a turn of the connected loop. -/
def EndsTurn : MqttPhase → Prop
  | reading | saving | pong | reporting _ | pinging => True
  | _ => False

end MqttPhase

/-- The await ends a turn that is in the phase. -/
def Await.Finishes : Await → MqttPhase → Prop
  | packet, p => p = .reading
  | saved, p => p = .saving
  | published _, p => p = .pong
  | pinged ok, p => ok = true ∧ p = .pinging
  | reported ok, p => ok = true ∧ ∃ relayOn, p = .reporting relayOn
  | _, _ => False

/-- The await fails, and the connection with it. -/
def Await.Fails : Await → Prop
  | subscribed false | header false | bodyError | reported false | pinged false => True
  | _ => False

/-- What the task can do after an await. -/
inductive MqttTask.Resumes (t : MqttTask) (now : ℕ) : Await → MqttTask → Prop
  | networkUp (hphase : t.phase = .waitNetwork) : Resumes t now .networkUp (t.connect now)
  | tcp (hphase : t.phase = .connecting) :
      Resumes t now (.tcp true) (t.hand now (connectPacket t.cfg) .handshake)
  | tcpError (hphase : t.phase = .connecting) : Resumes t now (.tcp false) (t.retryLater now)
  | connack (hphase : t.phase = .handshake) : Resumes t now (.connack true) (t.connected now)
  | connackError (hphase : t.phase = .handshake) :
      Resumes t now (.connack false) (t.retryLater now)
  | status {ok : Bool} (hphase : t.phase = .status) :
      Resumes t now (.published ok)
        (t.hand now (publishRetained topicDiag (asBytes t.reason.asStr)) .diag)
  | diag {ok : Bool} (hphase : t.phase = .diag) :
      Resumes t now (.published ok) (t.subscribeAll now 0)
  | heartbeat {ok : Bool} {began : ℕ} (hphase : t.phase = .heartbeat began) :
      Resumes t now (.published ok)
        ({ t with nextHeartbeat := began + heartbeatInterval }.select now)
  | subscribed {n : ℕ} (hphase : t.phase = .subscribing n) :
      Resumes t now (.subscribed true) (t.subscribeAll now (n + 1))
  | header {deadline : ℕ} (hphase : t.phase = .selecting deadline) :
      Resumes t now (.header true) (t.goto now .reading)
  | timer {deadline : ℕ} (hphase : t.phase = .selecting deadline) (hdue : deadline ≤ now) :
      Resumes t now .timer (t.hand now .pingreq .pinging)
  | turn {a : Await} (hphase : t.phase.EndsTurn) (ha : a.Finishes t.phase) :
      Resumes t now a (t.loopTop now)
  | lost {a : Await} (ha : a.Fails) : Resumes t now a (t.disconnected now)
  | retry {deadline : ℕ} (hphase : t.phase = .retrying deadline) (hdue : deadline ≤ now) :
      Resumes t now .retry (t.connect now)

/-- **The task goes on in one of these ways.** -/
theorem MqttTask.resumes_of_resume {t t' : MqttTask} {now : ℕ} {a : Await}
    (h : t.resume now a = some t') : t.Resumes now a t' := by
  cases a with
  | networkUp =>
    obtain ⟨hphase, hsome⟩ := Option.ite_none_right_eq_some.mp h
    exact Option.some.inj hsome ▸ .networkUp hphase
  | tcp ok =>
    obtain ⟨hphase, hsome⟩ := Option.ite_none_right_eq_some.mp h
    cases ok with
    | false => exact Option.some.inj hsome ▸ .tcpError hphase
    | true => exact Option.some.inj hsome ▸ .tcp hphase
  | connack ok =>
    obtain ⟨hphase, hsome⟩ := Option.ite_none_right_eq_some.mp h
    cases ok with
    | false => exact Option.some.inj hsome ▸ .connackError hphase
    | true => exact Option.some.inj hsome ▸ .connack hphase
  -- what follows a publication depends on the phase, and not on how it went
  | published ok =>
    rw [resume] at h
    split at h
    · next hphase => exact Option.some.inj h ▸ .status hphase
    · next hphase => exact Option.some.inj h ▸ .diag hphase
    · next hphase => exact Option.some.inj h ▸ .heartbeat hphase
    · next hphase => exact Option.some.inj h ▸ .turn (by rw [hphase]; trivial) hphase
    · cases h
  | subscribed ok =>
    rw [resume] at h
    split at h
    · next hphase =>
      cases ok with
      | false => exact Option.some.inj h ▸ .lost trivial
      | true => exact Option.some.inj h ▸ .subscribed hphase
    · cases h
  | header ok =>
    rw [resume] at h
    split at h
    · next hphase =>
      cases ok with
      | false => exact Option.some.inj h ▸ .lost trivial
      | true => exact Option.some.inj h ▸ .header hphase
    · cases h
  | timer =>
    rw [resume] at h
    split at h
    · next hphase =>
      obtain ⟨hdue, hsome⟩ := Option.ite_none_right_eq_some.mp h
      exact Option.some.inj hsome ▸ .timer hphase hdue
    · cases h
  -- a packet that is no message ends the turn
  | packet =>
    obtain ⟨hphase, hsome⟩ := Option.ite_none_right_eq_some.mp h
    exact Option.some.inj hsome ▸ .turn (by rw [hphase]; trivial) hphase
  | bodyError =>
    obtain ⟨hphase, hsome⟩ := Option.ite_none_right_eq_some.mp h
    exact Option.some.inj hsome ▸ .lost trivial
  | saved =>
    obtain ⟨hphase, hsome⟩ := Option.ite_none_right_eq_some.mp h
    exact Option.some.inj hsome ▸ .turn (by rw [hphase]; trivial) hphase
  | reported ok =>
    rw [resume] at h
    split at h
    · next hphase =>
      cases ok with
      | false => exact Option.some.inj h ▸ .lost trivial
      | true => exact Option.some.inj h ▸ .turn (by rw [hphase]; trivial) ⟨rfl, _, hphase⟩
    · cases h
  | pinged ok =>
    obtain ⟨hphase, hsome⟩ := Option.ite_none_right_eq_some.mp h
    cases ok with
    | false => exact Option.some.inj hsome ▸ .lost trivial
    | true => exact Option.some.inj hsome ▸ .turn (by rw [hphase]; trivial) ⟨rfl, hphase⟩
  | retry =>
    rw [resume] at h
    split at h
    · next hphase =>
      obtain ⟨hdue, hsome⟩ := Option.ite_none_right_eq_some.mp h
      exact Option.some.inj hsome ▸ .retry hphase hdue
    · cases h

/-- **The task handles a message** that it has read, its own part of it. -/
def MqttTask.handleEvent (t : MqttTask) (now : ℕ) (p : Publish) : MqttTask :=
  let t := t.note now (.received p)
  -- a retained message is an old command, sent again with the subscription
  if p.retain then t.loopTop now
  else match messageCmd p.topic p.payload with
    | some (.led1 _) | some (.led2 _) | some (.allLeds _) => t.goto now .saving
    | some .ping => t.hand now (publishQos0 topicPong (asBytes "1".toList)) .pong
    | some .reboot => t.goto now .rebooting
    -- a command to the relay is left in its trigger
    | some (.relay _) | some .unknown | none => t.loopTop now

namespace MqttTask

/-- What the task was started with. -/
def start (t : MqttTask) : NetworkConfig × ResetReason := (t.cfg, t.reason)

@[simp]
theorem start_loopTop (t : MqttTask) (now : ℕ) : (t.loopTop now).start = t.start := by
  unfold loopTop
  split <;> rfl

@[simp]
theorem start_subscribeAll (t : MqttTask) (now n : ℕ) : (t.subscribeAll now n).start = t.start := by
  unfold subscribeAll
  split
  · rfl
  · exact start_loopTop _ now

theorem start_handleEvent (t : MqttTask) (now : ℕ) (p : Publish) :
    (t.handleEvent now p).start = t.start := by
  have hloop : ((t.note now (.received p)).loopTop now).start = t.start := start_loopTop _ now
  unfold handleEvent
  dsimp only
  split
  · exact hloop
  · split <;> first | exact hloop | rfl

theorem Resumes.start_eq {t t' : MqttTask} {now : ℕ} {a : Await} (h : t.Resumes now a t') :
    t'.start = t.start := by
  cases h with
  | diag | subscribed => exact start_subscribeAll t now _
  | turn => exact start_loopTop t now
  | _ => rfl

end MqttTask

/-! ### The parties -/

/-- The MQTT task and the relay task of the device, with what is in flight to and from the
broker on the topic of the relay. -/
structure MqttNet where
  now : ℕ
  task : MqttTask
  relay : Relay
  toBroker : List (List UInt8)
  toDevice : List Message
  history : History
  deriving DecidableEq

/-- What the parties do. -/
inductive MqttEvent
  | wait (ticks : ℕ)
  | await (a : Await)
  | takeChange
  | deliver (i : ℕ)
  | message (p : Publish)
  | relayTask
  | clientPublish (payload : List UInt8) (retain : Bool)
  | forward (i : ℕ)
  | loseReport (i : ℕ)
  | loseMessage (i : ℕ)
  | reset (cfg : NetworkConfig) (reason : ResetReason)
  deriving DecidableEq

namespace MqttNet

/-- The start of a run. -/
def boot (cfg : NetworkConfig) (reason : ResetReason) : MqttNet where
  now := 0
  task := MqttTask.boot cfg reason 0
  relay := Relay.boot
  toBroker := []
  toDevice := []
  history := ⟨[], 0, 0, 0⟩

/-- A command is delivered to the relay task. -/
def command (s : MqttNet) (own on : Bool) : MqttNet :=
  { s with
    relay := if on then s.relay.pulseRelay else s.relay.relayOff
    history := { s.history with delivered := s.history.delivered ++ [⟨own, on⟩] } }

/-- What a message does to the relay. -/
def commandOf (s : MqttNet) (own : Bool) (p : Publish) : MqttNet :=
  if p.retain then s
  else match messageCmd p.topic p.payload with
    | some (.relay on) => s.command own on
    | _ => s

/-- The MQTT task handles a message. -/
def handleEvent (s : MqttNet) (own : Bool) (p : Publish) : MqttNet :=
  { s.commandOf own p with task := s.task.handleEvent s.now p }

/-- The end of an await. A report that was written is on its way to the broker. -/
def ended (s : MqttNet) (a : Await) (t : MqttTask) : MqttNet :=
  match a, s.task.phase with
  | .reported true, .reporting relayOn =>
      { s with task := t, toBroker := s.toBroker ++ [relayPayload relayOn] }
  | _, _ => { s with task := t }

/-- The relay task takes a command, or none. -/
def take (s : MqttNet) : Option RelayCmd → History
  | some .pulse => { s.history with caused := s.history.delivered.length, takenAt := s.now }
  | _ => s.history

/-- **One step of the parties.** In the select a change goes before the timer. -/
def step (s : MqttNet) : MqttEvent → Option MqttNet
  | .wait ticks => some { s with now := s.now + ticks }
  | .await a =>
      if a = .timer ∧ s.relay.change ≠ none then none
      else (s.task.resume s.now a).map (s.ended a)
  | .takeChange =>
      match s.task.phase, s.relay.change with
      | .selecting _, some relayOn =>
          some { s with
            task := s.task.hand s.now (publishQos0 topicRelay (relayPayload relayOn))
              (.reporting relayOn)
            relay := { s.relay with change := none }
            history := { s.history with published := s.history.published + 1 } }
      | _, _ => none
  | .deliver i =>
      match s.toDevice[i]? with
      | some m =>
          if s.task.phase = .reading then
            some (handleEvent { s with toDevice := s.toDevice.eraseIdx i } m.own
              ⟨topicRelay, m.payload, m.retain⟩)
          else none
      | none => none
  -- a message on another topic
  | .message p =>
      if s.task.phase = .reading ∧ p.topic ≠ topicRelay then some (s.handleEvent false p) else none
  | .relayTask =>
      if s.task.phase = .rebooting then none
      else (s.relay.step s.now).map fun p => { s with relay := p.1, history := s.take p.2 }
  | .clientPublish payload retain =>
      some { s with toDevice := s.toDevice ++ [⟨false, payload, retain⟩] }
  | .forward i =>
      s.toBroker[i]?.map fun payload =>
        { s with
          toBroker := s.toBroker.eraseIdx i
          toDevice := s.toDevice ++ [⟨true, payload, false⟩] }
  | .loseReport i => some { s with toBroker := s.toBroker.eraseIdx i }
  | .loseMessage i => some { s with toDevice := s.toDevice.eraseIdx i }
  | .reset cfg reason =>
      some { s with task := MqttTask.boot cfg reason s.now, relay := Relay.boot }

end MqttNet

/-- What a step does to the task and to the time. -/
inductive MqttNet.TaskStep (s : MqttNet) : MqttEvent → MqttTask → ℕ → Prop
  | wait (ticks : ℕ) : TaskStep s (.wait ticks) s.task (s.now + ticks)
  | resumes {a : Await} {t : MqttTask} (h : s.task.Resumes s.now a t) :
      TaskStep s (.await a) t s.now
  | change {deadline : ℕ} {relayOn : Bool} (hphase : s.task.phase = .selecting deadline) :
      TaskStep s .takeChange
        (s.task.hand s.now (publishQos0 topicRelay (relayPayload relayOn)) (.reporting relayOn))
        s.now
  | message {e : MqttEvent} (p : Publish) (hphase : s.task.phase = .reading) :
      TaskStep s e (s.task.handleEvent s.now p) s.now
  | aside {e : MqttEvent} : TaskStep s e s.task s.now
  | reset (cfg : NetworkConfig) (reason : ResetReason) :
      TaskStep s (.reset cfg reason) (MqttTask.boot cfg reason s.now) s.now

@[simp]
theorem MqttNet.now_commandOf (s : MqttNet) (own : Bool) (p : Publish) :
    (s.commandOf own p).now = s.now := by
  unfold commandOf
  split
  · rfl
  · split <;> rfl

@[simp]
theorem MqttNet.now_ended (s : MqttNet) (a : Await) (t : MqttTask) : (s.ended a t).now = s.now := by
  unfold ended
  split <;> rfl

@[simp]
theorem MqttNet.task_ended (s : MqttNet) (a : Await) (t : MqttTask) : (s.ended a t).task = t := by
  unfold ended
  split <;> rfl

/-- **Every step does one of these.** -/
theorem MqttNet.taskStep_of_step {s s' : MqttNet} {e : MqttEvent} (h : s.step e = some s') :
    s.TaskStep e s'.task s'.now := by
  cases e with
  | wait ticks => exact Option.some.inj h ▸ .wait ticks
  | await a =>
    rw [step] at h
    split at h
    · cases h
    · obtain ⟨t, ht, rfl⟩ := Option.map_eq_some_iff.mp h
      rw [task_ended, now_ended]
      exact .resumes (MqttTask.resumes_of_resume ht)
  | takeChange =>
    rw [step] at h
    split at h
    · next hphase _ => exact Option.some.inj h ▸ .change hphase
    · cases h
  | deliver i =>
    rw [step] at h
    split at h
    · next m _ =>
      obtain ⟨hphase, hsome⟩ := Option.ite_none_right_eq_some.mp h
      obtain rfl := Option.some.inj hsome
      rw [handleEvent, now_commandOf]
      exact .message ⟨topicRelay, m.payload, m.retain⟩ hphase
    · cases h
  | message p =>
    obtain ⟨hphase, hsome⟩ := Option.ite_none_right_eq_some.mp h
    obtain rfl := Option.some.inj hsome
    rw [handleEvent, now_commandOf]
    exact .message p hphase.1
  -- the relay task and the other parties leave the MQTT task alone
  | relayTask =>
    rw [step] at h
    split at h
    · cases h
    · obtain ⟨_, _, rfl⟩ := Option.map_eq_some_iff.mp h
      exact .aside
  | forward i =>
    obtain ⟨_, _, rfl⟩ := Option.map_eq_some_iff.mp h
    exact .aside
  | clientPublish | loseReport | loseMessage => exact Option.some.inj h ▸ .aside
  | reset cfg reason => exact Option.some.inj h ▸ .reset cfg reason

/-- Only a boot starts the task anew. -/
theorem MqttNet.TaskStep.start_eq {s : MqttNet} {e : MqttEvent} {t : MqttTask} {now : ℕ}
    (h : s.TaskStep e t now) :
    t.start = s.task.start ∨ ∃ cfg reason, e = .reset cfg reason ∧ t.start = (cfg, reason) := by
  cases h with
  | wait | aside => exact .inl rfl
  | change => exact .inl rfl
  | resumes hresumes => exact .inl hresumes.start_eq
  | message p => exact .inl (s.task.start_handleEvent s.now p)
  | reset cfg reason => exact .inr ⟨cfg, reason, rfl, rfl⟩

/-- **The parties as a system.** -/
def mqttSystem : System MqttNet MqttEvent where
  init s := ∃ cfg reason, s = MqttNet.boot cfg reason
  step s e s' := s.step e = some s'

/-- A connection: the preamble, a ping and the answer to it, and a keep-alive ping. -/
def oneConnection : List MqttEvent :=
  [.await .networkUp, .await (.tcp true), .await (.connack true), .await (.published true),
    .await (.published true)] ++ List.replicate 6 (.await (.subscribed true)) ++
  [.await (.header true), .message ⟨topicPing, [], false⟩, .await (.published true),
    .wait second, .await .timer]

/-- The state after a connection that runs as this one does. -/
theorem exists_oneConnection {P : MqttNet → Bool}
    (h : (oneConnection.foldlM MqttNet.step (MqttNet.boot .default .powerOn)).any P = true) :
    ∃ s, mqttSystem.Reachable s ∧ P s = true :=
  System.Reachable.exists_of_foldlM (S := mqttSystem) (fun _ _ _ _ hstep => hstep)
    ⟨.default, .powerOn, rfl⟩ h

end Jzf407
