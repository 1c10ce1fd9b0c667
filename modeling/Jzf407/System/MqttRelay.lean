import Jzf407.System.MqttTrace

/-!
# The MQTT task drives the relay as specified

`relaySystem` describes the MQTT task by what it does to the relay: it is online or not, takes a
change and publishes it, and delivers commands. `mqttSimulation` shows that the task of
`mqttSystem`, with all its awaits, is an implementation of that description: each of its steps is
a step of `relaySystem`, or leaves it as it is. Whatever holds in every state of `relaySystem`
therefore holds of the device with the whole MQTT task (`mqtt_refines_relay`).

`MqttNet.toRelayNet` forgets the phase of the task, but for `MQTT_ONLINE` and the report that it is
publishing (`MqttPhase.publishing`). `MqttEvent.toRelayEvent` says which step of the description an
event is. An await that ends may be the end of a report or of the connection, and is no step
otherwise; `Refines` lists these, and `refines_of_resumes` goes through what an await can lead to.

Messages need one fact more. The description knows the topic of the relay only, and the task reads
a command off any message: no other topic commands the relay (`topic_of_messageCmd_relay`), so
a message there is no step (`toRelayNet_message`).
-/

namespace Jzf407

open Foundation

/-- The report that a phase is publishing. -/
def MqttPhase.publishing : MqttPhase → Option Bool
  | reporting relayOn => some relayOn
  | _ => none

namespace MqttNet

/-- What `relaySystem` sees. -/
def toRelayNet (s : MqttNet) : RelayNet where
  now := s.now
  relay := s.relay
  online := s.task.online
  publishing := s.task.phase.publishing
  toBroker := s.toBroker
  toDevice := s.toDevice
  history := s.history

end MqttNet

/-- The step of `relaySystem` that an event is, if it is one. -/
def MqttEvent.toRelayEvent : MqttEvent → Option RelayEvent
  | wait ticks => some (.wait ticks)
  | await (.connack true) => some .connect
  | await (.reported true) => some .send
  | await .networkUp | await .retry | await (.subscribed false) | await (.header false)
  | await .bodyError | await (.reported false) | await (.pinged false) => some .disconnect
  | await _ | message _ => none
  | takeChange => some .takeChange
  | deliver i => some (.deliver i)
  | relayTask => some .relayTask
  | clientPublish payload retain => some (.clientPublish payload retain)
  | forward i => some (.forward i)
  | loseReport i => some (.loseReport i)
  | loseMessage i => some (.loseMessage i)
  | reset _ _ => some .reset

/-- Only the end of a report ends the publishing of one. -/
theorem Await.Finishes.publishing {a : Await} {p : MqttPhase} (h : a.Finishes p)
    (ha : a ≠ .reported true) : p.publishing = none := by
  cases a with
  | packet | saved | published _ => rw [show p = _ from h]; rfl
  | pinged ok => rw [h.2]; rfl
  | reported ok => exact absurd (congrArg reported h.1) ha
  | _ => cases h

/-! ### What the steps leave alone -/

namespace MqttTask

@[simp]
theorem online_loopTop (t : MqttTask) (now : ℕ) : (t.loopTop now).online = t.online := by
  unfold loopTop
  split <;> rfl

@[simp]
theorem publishing_loopTop (t : MqttTask) (now : ℕ) :
    (t.loopTop now).phase.publishing = none := by
  unfold loopTop
  split <;> rfl

@[simp]
theorem online_subscribeAll (t : MqttTask) (now n : ℕ) :
    (t.subscribeAll now n).online = t.online := by
  unfold subscribeAll
  split
  · rfl
  · exact online_loopTop _ now

@[simp]
theorem publishing_subscribeAll (t : MqttTask) (now n : ℕ) :
    (t.subscribeAll now n).phase.publishing = none := by
  unfold subscribeAll
  split
  · rfl
  · exact publishing_loopTop _ now

theorem handleEvent_frame (t : MqttTask) (now : ℕ) (p : Publish) :
    (t.handleEvent now p).online = t.online ∧ (t.handleEvent now p).phase.publishing = none := by
  have hloop : ((t.note now (.received p)).loopTop now).online = t.online ∧
      ((t.note now (.received p)).loopTop now).phase.publishing = none :=
    ⟨online_loopTop _ now, publishing_loopTop _ now⟩
  unfold handleEvent
  dsimp only
  split
  · exact hloop
  · split <;> first | exact hloop | exact ⟨rfl, rfl⟩

end MqttTask

/-- Only the topic of the relay commands the relay. -/
theorem topic_of_messageCmd_relay {topic : Str} {payload : List UInt8} {on : Bool}
    (h : messageCmd topic payload = some (.relay on)) : topic = topicRelay := by
  rw [messageCmd, Option.or_eq_some_iff] at h
  rcases h with h | ⟨-, h⟩
  · obtain ⟨b, -, hb⟩ := Option.bind_eq_some_iff.mp h
    split_ifs at hb with h₁ h₂ h₃ h₄
    · cases hb
    · cases hb
    · cases hb
    · exact h₄
  · unfold dispatchSpecial at h
    split_ifs at h
    · cases h
    · cases h

namespace MqttNet

variable {s s' : MqttNet}

/-- A message on the topic of the relay is handled as specified. -/
theorem toRelayNet_handleEvent (s : MqttNet) (m : Message) (hpub : s.task.phase.publishing = none) :
    (s.handleEvent m.own ⟨topicRelay, m.payload, m.retain⟩).toRelayNet =
      s.toRelayNet.handleEvent m := by
  obtain ⟨honline, hpublishing⟩ :=
    s.task.handleEvent_frame s.now ⟨topicRelay, m.payload, m.retain⟩
  rw [toRelayNet, handleEvent, honline, hpublishing, commandOf, RelayNet.handleEvent, ← hpub]
  split
  · rfl
  · dsimp only
    cases messageCmd topicRelay m.payload with
    | none => rfl
    | some cmd => cases cmd <;> rfl

/-- A message on another topic does nothing to the relay. -/
theorem toRelayNet_message (s : MqttNet) (p : Publish) (hpub : s.task.phase.publishing = none)
    (htopic : p.topic ≠ topicRelay) : (s.handleEvent false p).toRelayNet = s.toRelayNet := by
  obtain ⟨honline, hpublishing⟩ := s.task.handleEvent_frame s.now p
  have hcommand : s.commandOf false p = s := by
    unfold commandOf
    split
    · rfl
    · split
      · next on hcmd => exact absurd (topic_of_messageCmd_relay hcmd) htopic
      · rfl
  rw [toRelayNet, handleEvent, hcommand, honline, hpublishing, toRelayNet, hpub]

/-- Going on without a report changes what `relaySystem` sees in `MQTT_ONLINE` only. -/
theorem toRelayNet_ended {a : Await} (t : MqttTask) (ha : a ≠ .reported true) :
    (s.ended a t).toRelayNet =
      { s.toRelayNet with online := t.online, publishing := t.phase.publishing } := by
  unfold ended
  split
  · exact absurd rfl ha
  · rfl

/-- A report that was written is on its way. -/
theorem ended_reported {t : MqttTask} {relayOn : Bool} (hp : s.task.phase = .reporting relayOn) :
    s.ended (.reported true) t =
      { s with task := t, toBroker := s.toBroker ++ [relayPayload relayOn] } := by
  unfold ended
  split
  · next heq => rw [MqttPhase.reporting.inj (hp.symm.trans heq)]
  · next hne => exact absurd hp (hne relayOn rfl)

/-- An await that `relaySystem` does not see. -/
theorem toRelayNet_ended_unseen {a : Await} {t : MqttTask} (ha : a ≠ .reported true)
    (honline : t.online = s.task.online) (hpub : t.phase.publishing = s.task.phase.publishing) :
    (s.ended a t).toRelayNet = s.toRelayNet := by
  rw [toRelayNet_ended t ha, honline, hpub]
  rfl

/-- The connection is given up, or a new one is tried. -/
theorem step_disconnect {a : Await} {t : MqttTask} (ha : a ≠ .reported true)
    (honline : t.online = false) (hpub : t.phase.publishing = none) :
    s.toRelayNet.step .disconnect = some (s.ended a t).toRelayNet := by
  rw [toRelayNet_ended t ha, honline, hpub]
  rfl

/-- What `relaySystem` is to make of an await. -/
def Refines (s : MqttNet) (a : Await) (t : MqttTask) : Prop :=
  match (MqttEvent.await a).toRelayEvent with
  | some d => s.toRelayNet.step d = some (s.ended a t).toRelayNet
  | none => (s.ended a t).toRelayNet = s.toRelayNet

/-- **The end of an await** is what it is for `relaySystem`. -/
theorem refines_of_resumes {a : Await} {t : MqttTask} (h : s.task.Resumes s.now a t) :
    s.Refines a t := by
  cases h with
  | networkUp | retry => exact step_disconnect (by simp) rfl rfl
  -- these phases publish no report, and neither does what follows
  | tcp hp | tcpError hp | connackError hp | status hp =>
    exact toRelayNet_ended_unseen (by simp) rfl (by rw [hp]; rfl)
  | header hp | timer hp | heartbeat hp =>
    exact toRelayNet_ended_unseen (by simp) rfl (by rw [hp]; rfl)
  | diag hp | subscribed hp =>
    refine toRelayNet_ended_unseen (by simp) (MqttTask.online_subscribeAll ..) ?_
    rw [MqttTask.publishing_subscribeAll, hp]
    rfl
  | connack hp =>
    have hnone : s.task.phase.publishing = none := by rw [hp]; rfl
    rw [Refines, MqttEvent.toRelayEvent, toRelayNet_ended _ (by simp)]
    change some { s.toRelayNet with online := true } = _
    rw [toRelayNet, hnone]
    rfl
  -- the connection is given up for a failure, from any phase
  | lost ha =>
    cases a with
    | subscribed ok | header ok | reported ok | pinged ok =>
      cases ok with
      | false => exact step_disconnect (by simp) rfl rfl
      | true => cases ha
    | bodyError => exact step_disconnect (by simp) rfl rfl
    | _ => cases ha
  | turn _ ha =>
    -- every turn ends at the top of the loop; only the end of a report is seen
    have hloop : ∀ a, a.Finishes s.task.phase → a ≠ .reported true →
        (s.ended a (s.task.loopTop s.now)).toRelayNet = s.toRelayNet := fun a ha hne => by
      refine toRelayNet_ended_unseen hne (MqttTask.online_loopTop ..) ?_
      rw [MqttTask.publishing_loopTop, ha.publishing hne]
    cases a with
    | published ok => exact hloop _ ha (by simp)
    | packet => exact hloop _ ha (by simp)
    | saved => exact hloop _ ha (by simp)
    | pinged ok =>
      obtain ⟨rfl, hp⟩ := ha
      exact hloop (.pinged true) ⟨rfl, hp⟩ (by simp)
    | reported ok =>
      obtain ⟨rfl, relayOn, hp⟩ := ha
      have hpub : s.toRelayNet.publishing = some relayOn := congrArg MqttPhase.publishing hp
      change s.toRelayNet.publishing.map _ = _
      rw [hpub, ended_reported hp]
      simp [toRelayNet]
    | _ => cases ha

/-- **Every step** of the parties with the whole MQTT task is a step of `relaySystem`, or leaves
it as it is. -/
theorem refines_of_step {e : MqttEvent} (htalks : s.task.Talks) (h : s.step e = some s') :
    match e.toRelayEvent with
    | some d => s.toRelayNet.step d = some s'.toRelayNet
    | none => s'.toRelayNet = s.toRelayNet := by
  cases e with
  | await a =>
    rw [step] at h
    split at h
    · cases h
    · obtain ⟨t, ht, rfl⟩ := Option.map_eq_some_iff.mp h
      exact refines_of_resumes (MqttTask.resumes_of_resume ht)
  | message p =>
    obtain ⟨⟨hphase, htopic⟩, hsome⟩ := Option.ite_none_right_eq_some.mp h
    obtain rfl := Option.some.inj hsome
    exact toRelayNet_message s p (by rw [hphase]; rfl) htopic
  | wait | clientPublish | loseReport | loseMessage | reset => exact Option.some.inj h ▸ rfl
  | forward i =>
    obtain ⟨payload, hpayload, rfl⟩ := Option.map_eq_some_iff.mp h
    change s.toBroker[i]?.map _ = _
    rw [hpayload]
    rfl
  | takeChange =>
    rw [step] at h
    split at h
    · next deadline relayOn hphase hchange =>
      obtain rfl := Option.some.inj h
      have honline : s.task.online = true := by rw [htalks.online, hphase]; rfl
      -- in the select the task is online and publishes nothing, as the specification asks
      change s.toRelayNet.step .takeChange = _
      simp [RelayNet.step, toRelayNet, hchange, honline, hphase, MqttPhase.publishing,
        MqttTask.hand, MqttTask.goto, MqttTask.note]
    · cases h
  | deliver i =>
    rw [step] at h
    split at h
    · next m hm =>
      obtain ⟨hphase, hsome⟩ := Option.ite_none_right_eq_some.mp h
      obtain rfl := Option.some.inj hsome
      have honline : s.task.online = true := by rw [htalks.online, hphase]; rfl
      have hnone : s.task.phase.publishing = none := by rw [hphase]; rfl
      have hmsg := toRelayNet_handleEvent { s with toDevice := s.toDevice.eraseIdx i } m hnone
      change s.toRelayNet.step (.deliver i) = _
      have hstep : s.toRelayNet.step (.deliver i) =
          some (RelayNet.handleEvent { s.toRelayNet with toDevice := s.toDevice.eraseIdx i }
            m) := by
        rw [RelayNet.step, show s.toRelayNet.toDevice[i]? = some m from hm]
        exact if_pos ⟨honline, hnone⟩
      rw [hstep]
      exact congrArg some hmsg.symm
    · cases h
  | relayTask =>
    rw [step] at h
    split at h
    · cases h
    · obtain ⟨⟨r, taken⟩, hr, rfl⟩ := Option.map_eq_some_iff.mp h
      change (s.relay.step s.now).map _ = _
      rw [hr]
      rcases taken with - | ⟨- | -⟩ <;> rfl

end MqttNet

/-- With its awaits forgotten, every step of the parties is a step of `relaySystem` or no step
of it at all. -/
theorem mqttSimulation :
    System.Simulation (mqttSystem.guarded fun s _ => s.task.Talks) relaySystem
      MqttNet.toRelayNet MqttEvent.toRelayEvent where
  init := by
    rintro _ ⟨cfg, reason, rfl⟩
    rfl
  step := by
    rintro s e s' ⟨htalks, hstep⟩
    have hrefines := MqttNet.refines_of_step htalks hstep
    revert hrefines
    cases e.toRelayEvent <;> exact id

/-- **The MQTT task implements the specification**: runs of the parties with the whole task are
runs of `relaySystem`, and so every state that they reach is one that it reaches. -/
theorem mqtt_refines_relay {cfg : NetworkConfig} {reason : ResetReason} {l : List MqttEvent}
    {s : MqttNet} (h : mqttSystem.Run (MqttNet.boot cfg reason) l s) :
    relaySystem.Run RelayNet.boot (l.filterMap MqttEvent.toRelayEvent) s.toRelayNet :=
  mqttSimulation.run (h.guarded_of_invariant
    (fun _ _ _ hs hstep => hs.step (MqttNet.taskStep_of_step hstep))
    (MqttTask.talks_boot cfg reason 0))

/-- A connection of the full task, and what the specification sees of it. -/
theorem mqtt_refines_relay_oneConnection :
    ∃ s, mqttSystem.Run (MqttNet.boot .default .powerOn) oneConnection s ∧
      relaySystem.Run RelayNet.boot (oneConnection.filterMap MqttEvent.toRelayEvent)
        s.toRelayNet := by
  obtain ⟨s, hs⟩ : ∃ s, oneConnection.foldlM MqttNet.step (MqttNet.boot .default .powerOn) =
      some s := Option.isSome_iff_exists.mp (by decide +kernel)
  have hrun : mqttSystem.Run (MqttNet.boot .default .powerOn) oneConnection s :=
    .of_foldlM (fun _ _ _ h => h) hs
  exact ⟨s, hrun, mqtt_refines_relay hrun⟩

end Jzf407
