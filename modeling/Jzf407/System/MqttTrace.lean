import Jzf407.Foundation.Preamble
import Jzf407.System.Mqtt

/-!
# What the device hands over for the broker

A connection begins with nine packets in a fixed order: the CONNECT with the will of the device,
the retained status and reset reason, and the six subscriptions (`mqttPreamble`). Only then come the
heartbeats, the keep-alive pings, the reports of the relay and the answers to pings, in any order;
an answer follows the ping that it answers directly (`MqttBlock`). `mqtt_conversation` says this of
the log of every connection, however far it has come, and that `MQTT_ONLINE` is set exactly from the
answer of the broker until the connection is given up.

This is a preamble with blocks after it, and `MqttPhase.stage` says how far it has come in each
phase of the task. The invariant `MqttTask.Talks` is that the log is at the stage of the phase. The
end of an await goes to the next item of the preamble, adds a block or ends the conversation
(`Talks.resumes`); a message adds one block, with or without the answer (`InLoop.handleEvent`).

Two results read off the log what other clients may rely on. `pongs_eq_pings`: for every ping that
was received one answer was begun, and none without one, since this holds of every block.
`permitted_of_mem_log`: whatever is handed over is of a kind that the device may publish
(`Permitted`), so nothing of it is a command but the report of the relay.
-/

namespace Jzf407

open Foundation

/-! ### The conversation -/

/-- The nine packets that begin a connection. -/
def mqttPreamble (cfg : NetworkConfig) (reason : ResetReason) : List Entry :=
  [.sent (connectPacket cfg),
    .sent (publishRetained topicStatus (asBytes "online".toList)),
    .sent (publishRetained topicDiag (asBytes reason.asStr))] ++
  subscribeTopics.map fun topic => .sent (.subscribe topic)

/-- A message that asks for an answer. -/
def Publish.AsksPong (p : Publish) : Prop :=
  p.retain = false ∧ messageCmd p.topic p.payload = some .ping

instance (p : Publish) : Decidable p.AsksPong := inferInstanceAs (Decidable (_ ∧ _))

/-- What may come after that, as often as it likes. -/
inductive MqttBlock : List Entry → Prop
  | heartbeat : MqttBlock [.sent (publishQos0 topicHeartbeat (asBytes "1".toList))]
  | keepAlive : MqttBlock [.sent .pingreq]
  | report (relayOn : Bool) : MqttBlock [.sent (publishQos0 topicRelay (relayPayload relayOn))]
  | message (p : Publish) (hp : ¬ p.AsksPong) : MqttBlock [.received p]
  | answer (p : Publish) (hp : p.AsksPong) :
      MqttBlock [.received p, .sent (publishQos0 topicPong (asBytes "1".toList))]

namespace MqttPhase

/-- How far the conversation has come in a phase. -/
def stage : MqttPhase → Preamble.Stage
  | waitNetwork | connecting => .opening 0
  | handshake => .opening 1
  | status => .opening 2
  | diag => .opening 3
  | subscribing n => .opening (n + 4)
  | heartbeat _ | selecting _ | reading | saving | pong | reporting _ | pinging => .running
  | retrying _ | rebooting => .closed

/-- The phases between the answer of the broker and the end of the connection. -/
def isOnline : MqttPhase → Bool
  | waitNetwork | connecting | handshake | retrying _ => false
  | _ => true

theorem EndsTurn.running {p : MqttPhase} (h : p.EndsTurn) :
    p.stage = .running ∧ p.isOnline = true := by
  cases p <;> first | exact ⟨rfl, rfl⟩ | cases h

end MqttPhase

namespace MqttTask

/-- The log without the times. -/
def entries (t : MqttTask) : List Entry := t.log.map Prod.snd

/-- **The invariant of the conversation.** -/
structure Talks (t : MqttTask) : Prop where
  log : Preamble.At (mqttPreamble t.cfg t.reason) MqttBlock t.phase.stage t.entries
  online : t.online = t.phase.isOnline

variable {t t' : MqttTask} {now : ℕ}

@[simp]
theorem entries_note (t : MqttTask) (now : ℕ) (e : Entry) :
    (t.note now e).entries = t.entries ++ [e] := by simp [entries, note]

@[simp]
theorem entries_hand (t : MqttTask) (now : ℕ) (p : Packet) (phase : MqttPhase) :
    (t.hand now p phase).entries = t.entries ++ [.sent p] := entries_note t now (.sent p)

theorem talks_boot (cfg : NetworkConfig) (reason : ResetReason) (now : ℕ) :
    (boot cfg reason now).Talks := ⟨rfl, rfl⟩

theorem talks_connect (t : MqttTask) (now : ℕ) : (t.connect now).Talks := ⟨rfl, rfl⟩

/-- The connection may end at any stage. -/
theorem Talks.disconnected (h : t.Talks) : (t.disconnected now).Talks := ⟨h.log.close, rfl⟩

theorem Talks.retryLater (h : t.Talks) (hoff : t.phase.isOnline = false) :
    (t.retryLater now).Talks := ⟨h.log.close, h.online.trans hoff⟩

/-- The next packet of the preamble. -/
theorem talks_handNext {p : Packet} {phase : MqttPhase} {n : ℕ}
    (hlog : Preamble.At (mqttPreamble t.cfg t.reason) MqttBlock (.opening n) t.entries)
    (hp : (mqttPreamble t.cfg t.reason)[n]? = some (.sent p))
    (hnext : phase.stage = .opening (n + 1)) (hon : t.online = phase.isOnline) :
    (t.hand now p phase).Talks where
  log := by
    rw [entries_hand]
    exact hnext ▸ hlog.next hp
  online := hon

/-- The log of a task in the connected loop. -/
structure InLoop (t : MqttTask) : Prop where
  log : Preamble.At (mqttPreamble t.cfg t.reason) MqttBlock .running t.entries
  online : t.online = true

theorem Talks.inLoop (h : t.Talks) (hstage : t.phase.stage = .running)
    (hon : t.phase.isOnline = true) : t.InLoop := ⟨hstage ▸ h.log, h.online.trans hon⟩

/-- Awaiting something in the loop. -/
theorem InLoop.goto {phase : MqttPhase} (h : t.InLoop) (hstage : phase.stage = .running)
    (hon : phase.isOnline = true) : (t.goto now phase).Talks :=
  ⟨by rw [MqttTask.goto, hstage]; exact h.log, h.online.trans hon.symm⟩

/-- A packet that is a block of its own. -/
theorem InLoop.hand {p : Packet} {phase : MqttPhase} (h : t.InLoop)
    (hp : MqttBlock [.sent p]) (hstage : phase.stage = .running) (hon : phase.isOnline = true) :
    (t.hand now p phase).Talks :=
  InLoop.goto ⟨by rw [entries_note]; exact h.log.block hp, h.online⟩ hstage hon

theorem InLoop.loopTop (h : t.InLoop) : (t.loopTop now).Talks := by
  unfold MqttTask.loopTop
  split
  · exact h.hand .heartbeat rfl rfl
  · exact h.goto rfl rfl

theorem InLoop.setHeartbeat (h : t.InLoop) (next : ℕ) : { t with nextHeartbeat := next }.InLoop :=
  ⟨h.log, h.online⟩

/-- The subscriptions are the last part of the preamble. -/
theorem mqttPreamble_subscribe (cfg : NetworkConfig) (reason : ResetReason) (n : ℕ) :
    (mqttPreamble cfg reason)[n + 3]? =
      subscribeTopics[n]?.map fun topic => .sent (.subscribe topic) := by
  rw [mqttPreamble, List.getElem?_append_right (Nat.le_add_left 3 n)]
  exact List.getElem?_map ..

theorem Talks.subscribeAll {n : ℕ} (h : t.Talks) (hstage : t.phase.stage = .opening (n + 3))
    (hon : t.phase.isOnline = true) : (t.subscribeAll now n).Talks := by
  have hnext := mqttPreamble_subscribe t.cfg t.reason n
  unfold MqttTask.subscribeAll
  split
  · next topic htopic =>
    rw [htopic] at hnext
    exact talks_handNext (hstage ▸ h.log) hnext rfl (h.online.trans hon)
  · next hdone =>
    rw [hdone] at hnext
    have hlog := (hstage ▸ h.log).enter (List.getElem?_eq_none_iff.mp hnext)
    exact InLoop.loopTop (InLoop.setHeartbeat ⟨hlog, h.online.trans hon⟩ _)

/-- **The end of an await** keeps to the conversation. -/
theorem Talks.resumes {a : Await} (h : t.Talks) (hresumes : t.Resumes now a t') : t'.Talks := by
  have hlog := h.log
  have hon := h.online
  cases hresumes with
  | networkUp | retry => exact talks_connect t now
  | tcpError hphase | connackError hphase => exact h.retryLater (by rw [hphase]; rfl)
  | lost => exact h.disconnected
  | turn hphase _ => exact (h.inLoop hphase.running.1 hphase.running.2).loopTop
  | tcp hphase | status hphase =>
    rw [hphase] at hlog hon
    exact talks_handNext hlog rfl rfl hon
  | connack hphase =>
    rw [hphase] at hlog
    exact talks_handNext (t := { t with online := true }) hlog rfl rfl rfl
  | diag hphase | subscribed hphase =>
    exact h.subscribeAll (by rw [hphase]; rfl) (by rw [hphase]; rfl)
  | heartbeat hphase =>
    exact ((h.inLoop (by rw [hphase]; rfl) (by rw [hphase]; rfl)).setHeartbeat _).goto rfl rfl
  | header hphase => exact (h.inLoop (by rw [hphase]; rfl) (by rw [hphase]; rfl)).goto rfl rfl
  | timer hphase =>
    exact (h.inLoop (by rw [hphase]; rfl) (by rw [hphase]; rfl)).hand .keepAlive rfl rfl

/-- **A message** keeps to the conversation, with the answer to it. -/
theorem InLoop.handleEvent (h : t.InLoop) (p : Publish) : (t.handleEvent now p).Talks := by
  have hnoted : ¬ p.AsksPong → (t.note now (.received p)).InLoop := fun hp =>
    ⟨by rw [entries_note]; exact h.log.block (.message p hp), h.online⟩
  unfold MqttTask.handleEvent
  dsimp only
  split
  · next hretain => exact (hnoted fun hp => by simp [hp.1] at hretain).loopTop
  · next hretain =>
    have hother : ∀ {c}, messageCmd p.topic p.payload = c → c ≠ some .ping →
        (t.note now (.received p)).InLoop := fun hcmd hne =>
      hnoted fun hp => hne (hcmd.symm.trans hp.2)
    split
    · next hcmd => exact (hother hcmd (by simp)).goto rfl rfl
    · next hcmd => exact (hother hcmd (by simp)).goto rfl rfl
    · next hcmd => exact (hother hcmd (by simp)).goto rfl rfl
    · next hcmd =>
      have hasks : p.AsksPong := ⟨by simpa using hretain, hcmd⟩
      refine ⟨?_, h.online⟩
      rw [entries_hand, entries_note, List.append_assoc]
      exact h.log.block (.answer p hasks)
    · next hcmd =>
      have hin := hother hcmd (by simp)
      exact ⟨hin.log.close, hin.online⟩
    · next hcmd => exact (hother hcmd (by simp)).loopTop
    · next hcmd => exact (hother hcmd (by simp)).loopTop
    · next hcmd => exact (hother hcmd (by simp)).loopTop

end MqttTask

/-- **Every step of the parties** keeps to the conversation. -/
theorem MqttTask.Talks.step {s : MqttNet} {e : MqttEvent} {t : MqttTask} {now : ℕ}
    (h : s.task.Talks) (hstep : s.TaskStep e t now) : t.Talks := by
  cases hstep with
  | wait | aside => exact h
  | resumes hresumes => exact h.resumes hresumes
  | change hphase =>
    exact (h.inLoop (by rw [hphase]; rfl) (by rw [hphase]; rfl)).hand (.report _) rfl rfl
  | message p hphase =>
    exact (h.inLoop (by rw [hphase]; rfl) (by rw [hphase]; rfl)).handleEvent p
  | reset cfg reason => exact MqttTask.talks_boot cfg reason s.now

theorem talks_of_reachable {s : MqttNet} (h : mqttSystem.Reachable s) : s.task.Talks := by
  apply h.invariant
  · rintro _ ⟨cfg, reason, rfl⟩
    exact MqttTask.talks_boot cfg reason 0
  · intro s e s' hs hstep
    exact hs.step (MqttNet.taskStep_of_step hstep)

/-- **The conversation of every connection**: however far it has come, its log is a beginning of
the preamble or the whole preamble and blocks, and it has the whole preamble as long as the
connected loop runs. `MQTT_ONLINE` is set exactly from the answer of the broker until the
connection is given up. -/
theorem mqtt_conversation {s : MqttNet} (h : mqttSystem.Reachable s) :
    Preamble.Legal (mqttPreamble s.task.cfg s.task.reason) MqttBlock s.task.entries ∧
      (s.task.phase.stage = .running →
        Preamble.Opened (mqttPreamble s.task.cfg s.task.reason) MqttBlock s.task.entries) ∧
      s.task.online = s.task.phase.isOnline := by
  have htalks := talks_of_reachable h
  refine ⟨htalks.log.legal, fun hrunning => ?_, htalks.online⟩
  have hlog := htalks.log
  rwa [hrunning] at hlog

/-- A connection with a ping and a keep-alive ping: the preamble and three packets more. -/
theorem mqtt_conversation_oneConnection :
    ∃ s, mqttSystem.Reachable s ∧ s.task.entries.length = 12 ∧
      Preamble.Opened (mqttPreamble s.task.cfg s.task.reason) MqttBlock s.task.entries := by
  obtain ⟨s, hs, hcheck⟩ := exists_oneConnection (P := fun s =>
    decide (s.task.phase.stage = .running ∧ s.task.entries.length = 12)) (by decide +kernel)
  obtain ⟨hstage, hlength⟩ := of_decide_eq_true hcheck
  exact ⟨s, hs, hlength, (mqtt_conversation hs).2.1 hstage⟩

/-! ### What other clients see -/

namespace Entry

/-- A message that asks for an answer. -/
def isPing : Entry → Bool
  | received p => decide p.AsksPong
  | sent _ => false

/-- An answer. -/
def isPong : Entry → Bool
  | sent (.publish topic _ _) => topic == topicPong
  | _ => false

/-- **What the device may hand over**: retained, its status and its reset reason only; not
retained, on the topics of the heartbeat, of the answers and of the relay only. -/
def Permitted (cfg : NetworkConfig) : Entry → Prop
  | sent (.publish topic _ true) => topic = topicStatus ∨ topic = topicDiag
  | sent (.publish topic _ false) =>
      topic = topicHeartbeat ∨ topic = topicPong ∨ topic = topicRelay
  | sent (.connect clientId options) =>
      Packet.connect clientId options = connectPacket cfg
  | sent (.subscribe topic) => topic ∈ subscribeTopics
  | sent .pingreq | received _ => True

end Entry

/-- What holds of every entry of the preamble. -/
theorem forall_mem_mqttPreamble {P : Entry → Prop} {cfg : NetworkConfig} {reason : ResetReason}
    (hconnect : P (.sent (connectPacket cfg)))
    (hstatus : P (.sent (publishRetained topicStatus (asBytes "online".toList))))
    (hdiag : P (.sent (publishRetained topicDiag (asBytes reason.asStr))))
    (hsubscribe : ∀ topic ∈ subscribeTopics, P (.sent (.subscribe topic))) :
    ∀ e ∈ mqttPreamble cfg reason, P e := by
  intro e he
  rcases List.mem_append.mp he with he | he
  · rw [List.mem_cons, List.mem_cons, List.mem_singleton] at he
    rcases he with rfl | rfl | rfl
    · exact hconnect
    · exact hstatus
    · exact hdiag
  · obtain ⟨topic, htopic, rfl⟩ := List.mem_map.mp he
    exact hsubscribe topic htopic

/-- **One call for every ping**: on every connection, however far it has come, the device has begun
to publish as many answers as it has received messages that ask for one. Whether such a call
succeeds the device does not look at, and the log does not say. -/
theorem pongs_eq_pings {s : MqttNet} (h : mqttSystem.Reachable s) :
    s.task.entries.countP Entry.isPong = s.task.entries.countP Entry.isPing := by
  refine (talks_of_reachable h).log.legal.countP_eq ?_ fun b hb => ?_
  · refine forall_mem_mqttPreamble ⟨rfl, rfl⟩ ⟨?_, rfl⟩ ⟨?_, rfl⟩ fun _ _ => ⟨rfl, rfl⟩
    · exact (by decide : (topicStatus == topicPong) = false)
    · exact (by decide : (topicDiag == topicPong) = false)
  · cases hb with
    | heartbeat => decide
    | keepAlive => rfl
    | report relayOn => cases relayOn <;> decide
    | message p hp => simp [Entry.isPong, Entry.isPing, hp]
    | answer p hp => simp [Entry.isPong, Entry.isPing, hp, publishQos0]

/-- A connection with one ping, and the one answer to it. -/
theorem pongs_eq_pings_oneConnection :
    ∃ s, mqttSystem.Reachable s ∧ s.task.entries.countP Entry.isPing = 1 ∧
      s.task.entries.countP Entry.isPong = s.task.entries.countP Entry.isPing := by
  obtain ⟨s, hs, hcheck⟩ := exists_oneConnection (P := fun s =>
    decide (s.task.entries.countP Entry.isPing = 1)) (by decide +kernel)
  exact ⟨s, hs, of_decide_eq_true hcheck, pongs_eq_pings hs⟩

/-- **What other clients see of the device**: nothing is retained but its status and its reset
reason, and of the topics that it obeys it publishes on that of the relay alone. -/
theorem permitted_of_mem_log {s : MqttNet} (h : mqttSystem.Reachable s) :
    ∀ e ∈ s.task.entries, e.Permitted s.task.cfg := by
  refine (talks_of_reachable h).log.legal.forall ?_ fun b hb => ?_
  · exact forall_mem_mqttPreamble rfl (.inl rfl) (.inr rfl) fun _ ht => ht
  · cases hb with
    | heartbeat => simp [Entry.Permitted, publishQos0]
    | keepAlive => simp [Entry.Permitted]
    | report relayOn => simp [Entry.Permitted, publishQos0]
    | message p hp => simp [Entry.Permitted]
    | answer p hp => simp [Entry.Permitted, publishQos0]

/-- The twelve entries of that connection. -/
theorem permitted_of_mem_log_oneConnection :
    ∃ s, mqttSystem.Reachable s ∧ s.task.entries.length = 12 ∧
      ∀ e ∈ s.task.entries, e.Permitted s.task.cfg := by
  obtain ⟨s, hs, hcheck⟩ := exists_oneConnection (P := fun s =>
    decide (s.task.entries.length = 12)) (by decide +kernel)
  exact ⟨s, hs, of_decide_eq_true hcheck, permitted_of_mem_log hs⟩

end Jzf407
